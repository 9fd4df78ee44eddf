import Mips32.Layout.Checked
import Mips32.Proofs.Arithmetic
import Mips32.Proofs.Layout

/-!
This module contains the verification of the arithmetic of layouts on 32-bit numbers. The check of a layout is
exact even for widths whose sum passes 32 bits, and on a layout no step of the arithmetic leaves its range, so
extraction and composition come to `Word.extract` and `Word.compose`.
-/

namespace Mips32

namespace Layout.Checked

open Arithmetic

structure Checks (widths : List UInt32) : Prop where
  total_iff : ∀ total, total? widths = some total ↔ total.toNat = (widths.map UInt32.toNat).sum
  too_large_iff : total? widths = none ↔ 2 ^ 32 ≤ (widths.map UInt32.toNat).sum
  layout_iff : isLayout widths = true ↔
    (∀ width ∈ widths, 0 < width) ∧ (widths.map UInt32.toNat).sum = 32
  agrees : isLayout widths = fills 32 (widths.map UInt32.toNat)

structure Extracts (word : UInt32) (widths : List UInt32) : Prop where
  refused_iff : extract? word widths = some (.error (.notWord (widths.map UInt32.toNat))) ↔
    isLayout widths = false
  done_iff : (∃ values, extract? word widths = some (.ok values)) ↔ isLayout widths = true
  in_range : isLayout widths = true → ∀ earlier width later, widths = earlier ++ width :: later →
    ∃ room left, earlier.foldlM sub? 32 = some room ∧ sub? room width = some left ∧ left < 32
  agrees : (extract? word widths).map (Except.map (List.map UInt32.toNat))
    = some (Word.extract word.toBitVec (widths.map UInt32.toNat))

/--
Composition refuses widths that are no layout, and next values that are too many or too few, and otherwise all
its steps are in range. The only shift that has no result makes room for a field that is the whole word, and like
any other shift it loses nothing.
-/
structure Composes (values widths : List UInt32) : Prop where
  refused_iff : compose? values widths = some (.error (.notWord (widths.map UInt32.toNat))) ↔
    isLayout widths = false
  arity_iff : compose? values widths = some (.error (.arity values.length widths.length)) ↔
    isLayout widths = true ∧ values.length ≠ widths.length
  done_iff : (∃ word, compose? values widths = some (.ok word)) ↔
    isLayout widths = true ∧ values.length = widths.length
  in_range : isLayout widths = true → values.length = widths.length → ∀ earlier width value later,
    widths.zip values = earlier ++ (width, value) :: later →
      ∃ word, join? earlier = some word
        ∧ (shiftLeft? word width = none ↔ widths = [32])
        ∧ ((shiftLeft? word width).getD 0).toNat = word.toNat * 2 ^ width.toNat
  agrees : (compose? values widths).map (Except.map UInt32.toBitVec)
    = some (Word.compose (values.map UInt32.toNat) (widths.map UInt32.toNat))

variable {n total room width value : UInt32} {widths values : List UInt32}

theorem total?_eq_some_iff :
    total? widths = some total ↔ total.toNat = (widths.map UInt32.toNat).sum := by
  unfold total?
  rw [foldlM_add?_eq_some_iff, UInt32.toNat_zero, Nat.zero_add]

theorem total?_eq_none_iff : total? widths = none ↔ 2 ^ 32 ≤ (widths.map UInt32.toNat).sum := by
  rw [Option.eq_none_iff_forall_ne_some]
  simp only [ne_eq, total?_eq_some_iff]
  constructor
  . intro h
    apply Nat.le_of_not_lt
    intro hlt
    obtain ⟨total, htotal⟩ := exists_toNat_eq hlt
    exact h total htotal
  . intro h total htotal
    have hlt := total.toNat_lt
    omega

theorem isLayout_iff :
    isLayout widths = true ↔
      (∀ width ∈ widths, 0 < width) ∧ (widths.map UInt32.toNat).sum = 32 := by
  unfold isLayout
  rw [Bool.and_eq_true, List.all_eq_true, beq_iff_eq, total?_eq_some_iff]
  simp only [decide_eq_true_eq]
  apply and_congr_right
  intro _
  exact eq_comm

theorem fills_eq_isLayout : fills 32 (widths.map UInt32.toNat) = isLayout widths := by
  rw [Bool.eq_iff_iff, fills_iff, isLayout_iff, List.forall_mem_map]
  rfl

theorem exists_cut? (word : UInt32) (hpos : 0 < width) (hle : width.toNat ≤ room.toNat)
    (hroom : room.toNat ≤ 32) :
    ∃ left value, cut? word room width = some (left, value)
      ∧ left.toNat + width.toNat = room.toNat
      ∧ value.toNat = word.toNat / 2 ^ left.toNat % 2 ^ width.toNat := by
  rw [pos_iff] at hpos
  have hlt := room.toNat_lt
  obtain ⟨left, hleft⟩ := exists_toNat_eq (k := room.toNat - width.toNat) (by omega)
  have hsub : sub? room width = some left := by
    rw [sub?_eq_some_iff]
    omega
  have hshort : left < 32 := by
    rw [lt_32_iff]
    omega
  obtain ⟨shifted, hshift, hshifted⟩ := exists_shiftRight? word hshort
  obtain ⟨mask, hmask, hand⟩ := exists_mask? width
  refine ⟨left, shifted &&& mask, ?_, ?_, ?_⟩
  . unfold cut?
    simp only [hsub, hshift, hmask, Option.bind_eq_bind, Option.bind_some, Option.pure_def]
  . omega
  . rw [hand, hshifted]

theorem exists_split? (word : UInt32) (hpos : ∀ width ∈ widths, 0 < width)
    (hsum : (widths.map UInt32.toNat).sum = room.toNat) (hroom : room.toNat ≤ 32) :
    ∃ values, split? word room widths = some values
      ∧ values.map UInt32.toNat = unpack word.toNat (widths.map UInt32.toNat) := by
  induction widths generalizing room with
  | nil => exact ⟨[], rfl, rfl⟩
  | cons width rest ih =>
    rw [List.forall_mem_cons] at hpos
    rw [List.map_cons, List.sum_cons] at hsum
    obtain ⟨left, value, hcut, hleft, hvalue⟩ := exists_cut? word hpos.1 (by omega) hroom
    have hrest : (rest.map UInt32.toNat).sum = left.toNat := by omega
    obtain ⟨values, hsplit, hvalues⟩ := ih hpos.2 hrest (by omega)
    refine ⟨value :: values, ?_, ?_⟩
    . unfold split?
      simp only [hcut, hsplit, Option.bind_eq_bind, Option.bind_some, Option.pure_def]
    . rw [List.map_cons, List.map_cons, unpack, hvalue, hvalues, hrest]

theorem exists_push? (word width value : UInt32) :
    ∃ next, push? word width value = some next
      ∧ next.toBitVec = Word.push word.toBitVec width.toNat value.toNat := by
  obtain ⟨mask, hmask, hand⟩ := exists_mask? width
  refine ⟨(shiftLeft? word width).getD 0 ||| (value &&& mask), ?_, ?_⟩
  . unfold push?
    rw [hmask]
    rfl
  . have hvalue : value.toNat % 2 ^ width.toNat < 2 ^ 32 :=
      Nat.lt_of_le_of_lt (Nat.mod_le _ _) value.toNat_lt
    apply BitVec.eq_of_toNat_eq
    unfold Word.push
    rw [UInt32.toNat_toBitVec, UInt32.toNat_or, toNat_getD_shiftLeft?, hand]
    rw [BitVec.toNat_or, BitVec.toNat_shiftLeft, BitVec.toNat_setWidth, BitVec.toNat_ofNat]
    rw [Nat.shiftLeft_eq, Nat.mod_eq_of_lt hvalue, UInt32.toNat_toBitVec]

theorem exists_foldlM_push? (fields : List (UInt32 × UInt32)) (word : UInt32) :
    ∃ next, fields.foldlM (fun word field => push? word field.1 field.2) word = some next
      ∧ next.toBitVec
        = (fields.map (Prod.map UInt32.toNat UInt32.toNat)).foldl
            (fun word digit => Word.push word digit.1 digit.2) word.toBitVec := by
  induction fields generalizing word with
  | nil => exact ⟨word, rfl, rfl⟩
  | cons field rest ih =>
    obtain ⟨pushed, hpush, hpushed⟩ := exists_push? word field.1 field.2
    obtain ⟨next, hrest, hnext⟩ := ih pushed
    refine ⟨next, ?_, ?_⟩
    . rw [List.foldlM_cons, hpush]
      exact hrest
    . rw [hnext, hpushed]
      rfl

theorem exists_join? (fields : List (UInt32 × UInt32)) :
    ∃ word, join? fields = some word
      ∧ word.toNat = pack (fields.map (Prod.map UInt32.toNat UInt32.toNat)) % 2 ^ 32 := by
  obtain ⟨word, hjoin, hword⟩ := exists_foldlM_push? fields 0
  refine ⟨word, hjoin, ?_⟩
  rw [← UInt32.toNat_toBitVec, hword, toNat_foldl_push, UInt32.toNat_toBitVec, UInt32.toNat_zero]
  rw [Nat.zero_mul, Nat.zero_add]

theorem eq_nil_of_sum_eq_zero (hpos : ∀ width ∈ widths, 0 < width)
    (hsum : (widths.map UInt32.toNat).sum = 0) : widths = [] := by
  cases widths with
  | nil => rfl
  | cons width rest =>
    have hwidth := pos_iff.1 (hpos width List.mem_cons_self)
    rw [List.map_cons, List.sum_cons] at hsum
    omega

section IsLayout

variable (h : isLayout widths = true) {earlier later : List UInt32}

include h

theorem exists_layout : ∃ layout : Layout, layout.widths = widths.map UInt32.toNat :=
  ⟨⟨_, fills_eq_isLayout.trans h⟩, rfl⟩

theorem sum_of_isLayout (hwidths : widths = earlier ++ width :: later) :
    (earlier.map UInt32.toNat).sum + width.toNat + (later.map UInt32.toNat).sum = 32 := by
  obtain ⟨_, hsum⟩ := isLayout_iff.1 h
  rw [hwidths, List.map_append, List.map_cons, List.sum_append, List.sum_cons] at hsum
  omega

theorem exists_room (hwidths : widths = earlier ++ width :: later) :
    ∃ room left, earlier.foldlM sub? 32 = some room ∧ sub? room width = some left ∧ left < 32 := by
  have hsum := sum_of_isLayout h hwidths
  have hpos := pos_iff.1 ((isLayout_iff.1 h).1 width (by simp [hwidths]))
  obtain ⟨room, hroom⟩ := exists_toNat_eq (k := 32 - (earlier.map UInt32.toNat).sum) (by omega)
  obtain ⟨left, hleft⟩ := exists_toNat_eq (k := room.toNat - width.toNat) (by omega)
  have hfirst : UInt32.toNat 32 = 32 := rfl
  refine ⟨room, left, ?_, ?_, ?_⟩
  . rw [foldlM_sub?_eq_some_iff]
    omega
  . rw [sub?_eq_some_iff]
    omega
  . rw [lt_32_iff]
    omega

theorem shiftLeft?_width_eq_none_iff (hwidths : widths = earlier ++ width :: later) :
    shiftLeft? n width = none ↔ widths = [32] := by
  rw [shiftLeft?_eq_none_iff]
  constructor
  . intro hle
    have hsum := sum_of_isLayout h hwidths
    obtain ⟨hpos, _⟩ := isLayout_iff.1 h
    rw [hwidths, List.forall_mem_append, List.forall_mem_cons] at hpos
    rw [ge_32_iff] at hle
    have hearlier := eq_nil_of_sum_eq_zero hpos.1 (by omega)
    have hlater := eq_nil_of_sum_eq_zero hpos.2.2 (by omega)
    have hwidth : width.toNat = UInt32.toNat 32 := by
      show width.toNat = 32
      omega
    rw [hwidths, hearlier, hlater, UInt32.toNat_inj.1 hwidth]
    rfl
  . intro hsingle
    have hmem : width ∈ widths := by simp [hwidths]
    rw [hsingle, List.mem_singleton] at hmem
    rw [hmem]
    exact UInt32.le_refl _

/-- No bit is lost when room is made for a field, even where nothing is left of what is shifted. -/
theorem exists_word {earlier later : List (UInt32 × UInt32)} (hlength : values.length = widths.length)
    (hfields : widths.zip values = earlier ++ (width, value) :: later) :
    ∃ word, join? earlier = some word
      ∧ (shiftLeft? word width = none ↔ widths = [32])
      ∧ ((shiftLeft? word width).getD 0).toNat = word.toNat * 2 ^ width.toNat := by
  have hwidths : widths = earlier.map Prod.fst ++ width :: later.map Prod.fst := by
    have hfst : (widths.zip values).map Prod.fst = widths := by
      apply List.map_fst_zip
      omega
    rw [← hfst, hfields, List.map_append]
    rfl
  have hsum := sum_of_isLayout h hwidths
  obtain ⟨word, hjoin, hword⟩ := exists_join? earlier
  refine ⟨word, hjoin, shiftLeft?_width_eq_none_iff h hwidths, ?_⟩
  -- the word holds no more than the fields in front, and these leave room for the next one
  have hlt : word.toNat < 2 ^ ((earlier.map Prod.fst).map UInt32.toNat).sum := by
    have hpack := pack_lt (earlier.map (Prod.map UInt32.toNat UInt32.toNat))
    have hfst : (earlier.map (Prod.map UInt32.toNat UInt32.toNat)).map Prod.fst
        = (earlier.map Prod.fst).map UInt32.toNat := by
      rw [List.map_map, List.map_map]
      rfl
    rw [hfst] at hpack
    rw [hword]
    exact Nat.lt_of_le_of_lt (Nat.mod_le _ _) hpack
  rw [toNat_getD_shiftLeft?]
  apply Nat.mod_eq_of_lt
  calc
    word.toNat * 2 ^ width.toNat
        < 2 ^ ((earlier.map Prod.fst).map UInt32.toNat).sum * 2 ^ width.toNat :=
      Nat.mul_lt_mul_of_pos_right hlt (Nat.two_pow_pos _)
    _ = 2 ^ (((earlier.map Prod.fst).map UInt32.toNat).sum + width.toNat) := (Nat.pow_add ..).symm
    _ ≤ 2 ^ 32 := Nat.pow_le_pow_right (by decide) (by omega)

theorem extract?_of_isLayout (word : UInt32) :
    ∃ values, extract? word widths = some (.ok values)
      ∧ Word.extract word.toBitVec (widths.map UInt32.toNat) = .ok (values.map UInt32.toNat) := by
  obtain ⟨hpos, hsum⟩ := isLayout_iff.1 h
  obtain ⟨layout, hlayout⟩ := exists_layout h
  have hroom : (widths.map UInt32.toNat).sum = UInt32.toNat 32 := hsum
  obtain ⟨values, hsplit, hvalues⟩ := exists_split? word hpos hroom (by decide)
  refine ⟨values, ?_, ?_⟩
  . unfold extract?
    rw [if_pos h, hsplit]
    rfl
  . rw [hvalues, ← hlayout, Word.extract_widths, split_eq_unpack]
    rfl

theorem compose?_of_length_ne (hlength : values.length ≠ widths.length) :
    compose? values widths = some (.error (.arity values.length widths.length))
      ∧ Word.compose (values.map UInt32.toNat) (widths.map UInt32.toNat)
        = .error (.arity values.length widths.length) := by
  obtain ⟨layout, hlayout⟩ := exists_layout h
  constructor
  . unfold compose?
    rw [if_pos h, if_neg hlength]
  . have hjoin : layout.join? (values.map UInt32.toNat)
        = .error (.arity values.length widths.length) := by
      unfold Layout.join?
      rw [hlayout, List.length_map, List.length_map, if_neg hlength]
    unfold Word.compose
    rw [← hlayout, layout.ofWidths_widths]
    exact hjoin

theorem compose?_of_length_eq (hlength : values.length = widths.length) :
    ∃ word, compose? values widths = some (.ok word)
      ∧ Word.compose (values.map UInt32.toNat) (widths.map UInt32.toNat) = .ok word.toBitVec := by
  obtain ⟨layout, hlayout⟩ := exists_layout h
  obtain ⟨word, hjoin, hword⟩ := exists_join? (widths.zip values)
  have hlayoutLength : (values.map UInt32.toNat).length = layout.widths.length := by
    rw [hlayout, List.length_map, List.length_map, hlength]
  refine ⟨word, ?_, ?_⟩
  . unfold compose?
    rw [if_pos h, if_pos hlength, hjoin]
    rfl
  . rw [← hlayout, Word.compose_widths layout hlayoutLength]
    congr 1
    apply BitVec.eq_of_toNat_eq
    have hlt := (layout.join (values.map UInt32.toNat)).isLt
    rw [layout.toNat_join hlayoutLength] at hlt ⊢
    rw [UInt32.toNat_toBitVec, hword, ← List.zip_map, ← hlayout, Nat.mod_eq_of_lt hlt]

end IsLayout

theorem ofWidths_of_isLayout_eq_false (h : isLayout widths = false) :
    ofWidths (widths.map UInt32.toNat) = .error (.notWord (widths.map UInt32.toNat)) := by
  unfold ofWidths
  rw [dif_neg]
  rw [fills_eq_isLayout, h]
  decide

theorem extract?_of_isLayout_eq_false (h : isLayout widths = false) (word : UInt32) :
    extract? word widths = some (.error (.notWord (widths.map UInt32.toNat)))
      ∧ Word.extract word.toBitVec (widths.map UInt32.toNat)
        = .error (.notWord (widths.map UInt32.toNat)) := by
  constructor
  . unfold extract?
    rw [h]
    rfl
  . unfold Word.extract
    rw [ofWidths_of_isLayout_eq_false h]
    rfl

theorem compose?_of_isLayout_eq_false (h : isLayout widths = false) (values : List UInt32) :
    compose? values widths = some (.error (.notWord (widths.map UInt32.toNat)))
      ∧ Word.compose (values.map UInt32.toNat) (widths.map UInt32.toNat)
        = .error (.notWord (widths.map UInt32.toNat)) := by
  constructor
  . unfold compose?
    rw [h]
    rfl
  . unfold Word.compose
    rw [ofWidths_of_isLayout_eq_false h]
    rfl

theorem checks (widths : List UInt32) : Checks widths := by
  constructor
  . intro total
    exact total?_eq_some_iff
  . exact total?_eq_none_iff
  . exact isLayout_iff
  . exact fills_eq_isLayout.symm

theorem extracts (word : UInt32) (widths : List UInt32) : Extracts word widths := by
  cases h : isLayout widths with
  | true =>
    obtain ⟨values, hextract, hword⟩ := extract?_of_isLayout h word
    constructor
    . simp [hextract, h]
    . simp [hextract, h]
    . intro _ earlier width later hwidths
      exact exists_room h hwidths
    . rw [hextract, hword]
      rfl
  | false =>
    obtain ⟨hextract, hword⟩ := extract?_of_isLayout_eq_false h word
    constructor
    . simp [hextract, h]
    . simp [hextract, h]
    . simp [h]
    . rw [hextract, hword]
      rfl

theorem composes (values widths : List UInt32) : Composes values widths := by
  cases h : isLayout widths with
  | true =>
    by_cases hlength : values.length = widths.length
    . obtain ⟨word, hcompose, hword⟩ := compose?_of_length_eq h hlength
      constructor
      . simp [hcompose, h]
      . simp [hcompose, h, hlength]
      . simp [hcompose, h, hlength]
      . intro _ _ earlier width value later hfields
        exact exists_word h hlength hfields
      . rw [hcompose, hword]
        rfl
    . obtain ⟨hcompose, hword⟩ := compose?_of_length_ne h hlength
      constructor
      . simp [hcompose, h]
      . simp [hcompose, h, hlength]
      . simp [hcompose, h, hlength]
      . intro _ heq
        contradiction
      . rw [hcompose, hword]
        rfl
  | false =>
    obtain ⟨hcompose, hword⟩ := compose?_of_isLayout_eq_false h values
    constructor
    . simp [hcompose, h]
    . simp [hcompose, h]
    . simp [hcompose, h]
    . simp [h]
    . rw [hcompose, hword]
      rfl

/--
On 32-bit numbers the check of a layout is exact, and with the check in front neither extraction nor
composition takes a step that is out of range.
-/
theorem checked_in_range :
    (∀ widths, Checks widths)
      ∧ (∀ word widths, Extracts word widths)
      ∧ ∀ values widths, Composes values widths :=
  ⟨checks, extracts, composes⟩

/-- Two widths whose sum would be 32 if it wrapped around, and a field that is the whole word. -/
theorem checked_in_range_wrapped :
    (0xffffffff + 33 : UInt32) = 32 ∧ isLayout [0xffffffff, 33] = false
      ∧ isLayout [32] = true ∧ [(0xdeadbeef : UInt32)].length = [(32 : UInt32)].length
      ∧ ∃ word, join? [] = some word ∧ shiftLeft? word 32 = none ∧ word.toNat = 0 := by
  obtain ⟨hchecks, _, hcomposes⟩ := checked_in_range
  have hwrapped : isLayout [0xffffffff, 33] = false := by
    rw [Bool.eq_false_iff, ne_eq, (hchecks _).layout_iff]
    rintro ⟨_, hsum⟩
    simp at hsum
  have hlayout : isLayout [32] = true := by
    rw [(hchecks _).layout_iff]
    exact ⟨by simp, rfl⟩
  obtain ⟨word, hjoin, hnone, hshift⟩ :=
    (hcomposes [0xdeadbeef] [32]).in_range hlayout rfl [] 32 0xdeadbeef [] rfl
  refine ⟨rfl, hwrapped, hlayout, rfl, word, hjoin, hnone.2 rfl, ?_⟩
  rw [hnone.2 rfl] at hshift
  have hzero : 0 = word.toNat * 2 ^ 32 := hshift
  omega

end Layout.Checked

end Mips32
