import Mathlib.Tactic.MkIffOfInductiveProp
import Mips32.Proofs.Basic
import Mips32.Proofs.Csv

/-!
This module contains the verification of comma-separated values for readers that end a record at any line break. They
read the records that have been written if every cell is sealed, which is to say that no line break stands in a cell
without quotation marks. Otherwise they cut a record in two at the first carriage return that does.
-/

namespace Mips32

namespace Csv

variable {text : String}

/-- A cell that is left as it is holds nothing that could end it or its record. -/
def Sealed (text : String) : Prop :=
  cell text = text → ∀ c ∈ text.toList, c ≠ ',' ∧ c ≠ '"' ∧ c ≠ '\n' ∧ c ≠ '\r'

theorem length_le_length_doubleQuotes (text : List Char) :
    text.length ≤ (doubleQuotes text).length := by
  unfold doubleQuotes
  induction text with
  | nil => exact Nat.le_refl _
  | cons c rest ih =>
    rw [List.flatMap_cons, List.length_append, List.length_cons]
    split
    . rw [List.length_cons, List.length_singleton]
      omega
    . rw [List.length_singleton]
      omega

theorem cell_eq_self_iff : cell text = text ↔ needsQuotes text.toList = false := by
  constructor
  . intro hcell
    cases h : needsQuotes text.toList with
    | false => rfl
    | true =>
      -- writing it between quotation marks would make the text longer
      have hlist := toList_cell_of_needsQuotes h
      have hlength := length_le_length_doubleQuotes text.toList
      rw [hcell] at hlist
      have hlonger := congrArg List.length hlist
      rw [List.length_cons, List.length_append] at hlonger
      omega
  . exact cell_of_needsQuotes_eq_false

theorem sealed_iff : Sealed text ↔ (needsQuotes text.toList = false → '\r' ∉ text.toList) := by
  unfold Sealed
  rw [cell_eq_self_iff]
  constructor
  . intro hsealed h hmem
    exact (hsealed h _ hmem).2.2.2 rfl
  . intro hreturn h c hmem
    obtain ⟨hcomma, hquote, hfeed⟩ := needsQuotes_eq_false_iff.1 h c hmem
    refine ⟨hcomma, hquote, hfeed, ?_⟩
    rintro rfl
    exact hreturn h hmem

instance (text : String) : Decidable (Sealed text) :=
  decidable_of_iff _ sealed_iff.symm

namespace BreakReader

variable {records : List (List String)} {cells : List String}

theorem follows_step {reader : Reader} {c : Char} (h : c ≠ '\r' ∨ reader.place = .quoted) :
    Reader.Follows step lift reader c := by
  unfold Reader.Follows step
  have hreturn : ¬(c = '\r' ∧ reader.place ≠ .quoted) := by
    rintro ⟨hc, hplace⟩
    exact h.elim (absurd hc) hplace
  rw [lift, if_neg hreturn]
  simp

/-- Line breaks in a sealed cell do no harm: there are none, or they stand between quotation marks. -/
theorem takes_of_sealed (h : Sealed text) : Reader.Takes step lift text := by
  apply Reader.FollowsCell.takes
  rintro reader c (hplace | hmem | ⟨hquotes, hmem⟩)
  . exact follows_step (.inr hplace)
  . apply follows_step
    left
    rintro rfl
    contradiction
  . apply follows_step
    left
    rintro rfl
    exact sealed_iff.1 h hquotes hmem

theorem foldlM_return {head : List Char} (hquotes : needsQuotes head = false) (hreturn : '\r' ∉ head) :
    (head ++ ['\r']).foldlM step (lift ⟨.start, records, cells, []⟩)
      =
    some ⟨⟨.start, records ++ [cells ++ [String.ofList head]], [], []⟩, true⟩ := by
  obtain ⟨place, hplace, hrun⟩ := Reader.foldlM_unquoted hquotes
  have hfollows : ∀ c ∈ head, ∀ reader, Reader.Follows step lift reader c := by
    intro c hmem reader
    apply follows_step
    left
    rintro rfl
    exact hreturn hmem
  have hstep : step (lift ⟨place, records, cells, head⟩) '\r'
      = some ⟨⟨.start, records ++ [cells ++ [String.ofList head]], [], []⟩, true⟩ := by
    unfold step lift
    rw [if_pos ⟨rfl, hplace⟩, Reader.step_mark hplace (.inr rfl)]
    rfl
  rw [List.foldlM_append, Reader.foldlM_follows hfollows, hrun, Option.map_some, Option.bind_eq_bind]
  rw [Option.bind_some, List.foldlM_cons, hstep]
  rfl

end BreakReader

namespace Reader

theorem records_prefix_of_separate? {reader behind : Reader} {c : Char}
    (h : reader.separate? c = some behind) : reader.records <+: behind.records := by
  unfold separate? at h
  split at h
  . cases h
    exact List.prefix_rfl
  . split at h
    . cases h
      exact List.prefix_append _ _
    . contradiction

theorem records_prefix_of_step {reader behind : Reader} {c : Char}
    (h : reader.step c = some behind) : reader.records <+: behind.records := by
  have hbare (h : (reader.separate? c).or (some (reader.push .bare c)) = some behind) :
      reader.records <+: behind.records := by
    rw [Option.or_eq_some_iff] at h
    cases h with
    | inl h => exact records_prefix_of_separate? h
    | inr h =>
      cases h.2
      exact List.prefix_rfl
  unfold step at h
  split at h
  . split at h
    . cases h
      exact List.prefix_rfl
    . exact hbare h
  . exact hbare h
  . split at h
    . cases h
      exact List.prefix_rfl
    . cases h
      exact List.prefix_rfl
  . split at h
    . cases h
      exact List.prefix_rfl
    . exact records_prefix_of_separate? h

end Reader

namespace BreakReader

theorem records_prefix_of_step {state behind : BreakReader} {c : Char}
    (h : state.step c = some behind) : state.reader.records <+: behind.reader.records := by
  unfold step at h
  split at h
  . obtain ⟨reader, hstep, rfl⟩ := Option.map_eq_some_iff.1 h
    exact Reader.records_prefix_of_step hstep
  . split at h
    . cases h
      exact List.prefix_rfl
    . obtain ⟨reader, hstep, rfl⟩ := Option.map_eq_some_iff.1 h
      exact Reader.records_prefix_of_step hstep

theorem records_prefix_of_foldlM {text : List Char} {state behind : BreakReader}
    (h : text.foldlM step state = some behind) : state.reader.records <+: behind.reader.records := by
  induction text generalizing state with
  | nil =>
    cases h
    exact List.prefix_rfl
  | cons c rest ih =>
    rw [List.foldlM_cons] at h
    obtain ⟨between, hstep, hrest⟩ := Option.bind_eq_some_iff.1 h
    exact (records_prefix_of_step hstep).trans (ih hrest)

end BreakReader

/-- Behind the records and cells that were written, a record ends at a carriage return within the next cell. -/
@[mk_iff]
inductive Cut : List (List String) → List (List String) → Prop
  | intro {earlier later read : List (List String)} {before after : List String} {text : String}
      {head : List Char}
      (hsealed : ¬Sealed text)
      (hhead : head ++ ['\r'] <+: text.toList)
      (hread : earlier ++ [before ++ [String.ofList head]] <+: read)
      : Cut (earlier ++ (before ++ text :: after) :: later) read

def upTo (earlier : List (List String)) (before : List String) (head : List Char) : List Char :=
  (Csv.text earlier).toList ++ ((before.flatMap fun text => (cell text).toList ++ [',']) ++ head)

theorem upTo_prefix {earlier later : List (List String)} {before after : List String} {head : List Char}
    (hhead : head <+: (cell text).toList) :
    upTo earlier before head <+: (Csv.text (earlier ++ (before ++ text :: after) :: later)).toList := by
  have htext : (Csv.text (earlier ++ (before ++ text :: after) :: later)).toList
      = (Csv.text earlier).toList
        ++ ((record (before ++ text :: after)).toList ++ (Csv.text later).toList) := by
    simp [Csv.text]
  have hrecord : (cell text).toList <+: (record (text :: after)).toList := by
    cases after with
    | nil => simp [record]
    | cons behind rest => simp [record]
  rw [htext, upTo, List.prefix_append_right_inj, Reader.toList_record_append, List.append_assoc]
  rw [List.prefix_append_right_inj]
  exact (hhead.trans hrecord).trans (List.prefix_append _ _)

theorem BreakReader.foldlM_upTo {earlier : List (List String)} {before : List String} {head : List Char}
    (hearlier : ∀ texts ∈ earlier, ∀ text ∈ texts, Sealed text)
    (hne : ∀ texts ∈ earlier, texts ≠ []) (hbefore : ∀ text ∈ before, Sealed text)
    (hquotes : needsQuotes head = false) (hreturn : '\r' ∉ head) :
    (upTo earlier before (head ++ ['\r'])).foldlM step (lift .init)
      =
    some ⟨⟨.start, earlier ++ [before ++ [String.ofList head]], [], []⟩, true⟩ := by
  have htext : (Csv.text earlier).toList.foldlM step (lift .init)
      = some (lift ⟨.start, earlier, [], []⟩) :=
    Reader.foldlM_text (fun texts htexts text htext => takes_of_sealed (hearlier texts htexts text htext))
      hne
  rw [upTo, List.foldlM_append, htext, Option.bind_eq_bind, Option.bind_some, List.foldlM_append]
  rw [Reader.foldlM_commas fun text hmem => takes_of_sealed (hbefore text hmem)]
  exact foldlM_return hquotes hreturn

theorem cut_of_not_sealed {written read : List (List String)}
    (h : ¬∀ texts ∈ written, ∀ text ∈ texts, Sealed text)
    (hne : ∀ texts ∈ written, texts ≠ [])
    (hread : readBreaks? (Csv.text written) = some read) : Cut written read := by
  obtain ⟨earlier, texts, later, rfl, hearlier, htexts⟩ := List.exists_first h
  obtain ⟨before, text, after, rfl, hbefore, hsealed⟩ := List.exists_first htexts
  have hexposed := hsealed
  rw [sealed_iff, Classical.not_imp, Classical.not_not] at hexposed
  obtain ⟨hquotes, hmem⟩ := hexposed
  obtain ⟨head, tail, hlist, hreturn⟩ := List.eq_append_cons_of_mem hmem
  have hhead : head ++ ['\r'] <+: text.toList := ⟨tail, by rw [hlist]; simp⟩
  have hcell : head ++ ['\r'] <+: (cell text).toList := by
    rwa [cell_of_needsQuotes_eq_false hquotes]
  have hheadQuotes : needsQuotes head = false := by
    rw [needsQuotes_eq_false_iff] at hquotes ⊢
    intro c hc
    exact hquotes c (hhead.subset (List.mem_append_left _ hc))
  rw [List.forall_mem_append] at hne
  obtain ⟨state, hrun, haccept⟩ := Option.bind_eq_some_iff.1 hread
  obtain ⟨rest, hrest⟩ := upTo_prefix hcell
  rw [← hrest, List.foldlM_append] at hrun
  rw [BreakReader.foldlM_upTo hearlier hne.1 hbefore hheadQuotes hreturn] at hrun
  have hgrows := BreakReader.records_prefix_of_foldlM hrun
  rw [Option.ite_none_right_eq_some, Option.some.injEq] at haccept
  rw [haccept.2] at hgrows
  exact .intro hsealed hhead hgrows

theorem readBreaks?_text_of_sealed {written : List (List String)}
    (h : ∀ texts ∈ written, ∀ text ∈ texts, Sealed text) (hne : ∀ texts ∈ written, texts ≠ []) :
    readBreaks? (Csv.text written) = some written := by
  have hrun : (Csv.text written).toList.foldlM BreakReader.step (.lift .init)
      = some (.lift ⟨.start, written, [], []⟩) :=
    Reader.foldlM_text
      (fun texts htexts text htext => BreakReader.takes_of_sealed (h texts htexts text htext)) hne
  unfold readBreaks?
  rw [hrun]
  rfl

end Csv

end Mips32
