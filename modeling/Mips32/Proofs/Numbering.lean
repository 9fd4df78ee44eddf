import Mathlib.Data.List.Basic
import Mips32.Proofs.Source
import Mips32.Text

/-!
This module contains the verification of line numbers. The number of a line is its place among the segments that
the line feeds of a source cut it into, so it does not depend on how the lines end, and sources that are put
one behind the other keep the numbers of their lines up to the number of lines in front.
-/

namespace Mips32

def Line.shift (line : Line) (count : Nat) : Line :=
  { line with number := line.number + count }

namespace Text

theorem trim_ofList_append_return (line : List Char) :
    trim (String.ofList (line ++ ['\r'])) = trim (String.ofList line) := by
  rw [String.ofList_append]
  apply trim_append_of_allBlank
  decide

theorem trim_ofList_dropReturn (line : List Char) :
    trim (String.ofList (dropReturn line)) = trim (String.ofList line) := by
  unfold dropReturn
  split
  . next hlast => rw [← trim_ofList_append_return, List.dropLast_append_getLast? _ hlast]
  . rfl

theorem induction_on_lines {motive : List Char → Prop} (last : ∀ line, '\n' ∉ line → motive line)
    (feed : ∀ line rest, '\n' ∉ line → motive rest → motive (line ++ '\n' :: rest)) (text : List Char) :
    motive text := by
  by_cases hmem : '\n' ∈ text
  . obtain ⟨line, rest, htext, hline⟩ := List.eq_append_cons_of_mem hmem
    rw [htext]
    apply feed line rest hline
    exact induction_on_lines last feed rest
  . exact last text hmem
termination_by text.length
decreasing_by
  rw [htext, List.length_append, List.length_cons]
  omega

theorem length_splitOn (text : List Char) : (text.splitOn '\n').length = text.count '\n' + 1 := by
  induction text using induction_on_lines with
  | last line hline =>
    rw [List.splitOn_eq_singleton hline, List.count_eq_zero_of_not_mem hline]
    rfl
  | feed line rest hline ih =>
    rw [List.splitOn_append_cons_self_of_not_mem hline, List.length_cons, ih]
    rw [List.count_append, List.count_cons_self, List.count_eq_zero_of_not_mem hline, Nat.zero_add]

theorem not_mem_of_mem_splitOn {text segment : List Char} (h : segment ∈ text.splitOn '\n') :
    '\n' ∉ segment := by
  induction text using induction_on_lines with
  | last line hline =>
    rw [List.splitOn_eq_singleton hline, List.mem_singleton] at h
    rwa [h]
  | feed line rest hline ih =>
    rw [List.splitOn_append_cons_self_of_not_mem hline, List.mem_cons] at h
    cases h with
    | inl hfirst => rwa [hfirst]
    | inr hrest => exact ih hrest

def segments (text : String) : List String :=
  (text.toList.splitOn '\n').map String.ofList

theorem segments_ne_nil (text : String) : segments text ≠ [] := by
  unfold segments
  rw [Ne, List.map_eq_nil_iff]
  apply List.splitOn_ne_nil

theorem not_mem_of_mem_segments {text segment : String} (h : segment ∈ segments text) :
    '\n' ∉ segment.toList := by
  unfold segments at h
  rw [List.mem_map] at h
  obtain ⟨segment, hmem, rfl⟩ := h
  rw [String.toList_ofList]
  exact not_mem_of_mem_splitOn hmem

theorem intercalate_segments (text : String) : "\n".intercalate (segments text) = text := by
  apply String.toList_injective
  unfold segments
  rw [String.toList_intercalate, List.map_map]
  have hid : String.toList ∘ String.ofList = id := funext fun _ => String.toList_ofList
  rw [hid, List.map_id]
  apply List.intercalate_splitOn

end Text

namespace Listing

variable {number : Nat} {segments : List (List Char)} {segment segment₁ segment₂ : List Char}

theorem isContent_eq_false_iff {text : String} :
    isContent text = false ↔ text = "" ∨ text.toList.head? = some '#' := by
  rw [← Bool.not_eq_true, isContent_iff, not_and_or, not_not, not_not]

theorem segmentLines_cons (number : Nat) (segment : List Char) (rest : List (List Char)) :
    segmentLines number (segment :: rest)
      =
    segmentLines number [segment] ++ segmentLines (number + 1) rest := by
  rw [← List.singleton_append, segmentLines_append, List.length_singleton]

theorem segmentLines_singleton_congr
    (h : Text.trim (String.ofList segment₁) = Text.trim (String.ofList segment₂)) :
    segmentLines number [segment₁] = segmentLines number [segment₂] := by
  unfold segmentLines
  simp only [List.zipIdx_singleton, List.filterMap_cons, h]

theorem segmentLines_of_isContent_eq_false
    (h : isContent (Text.trim (String.ofList segment)) = false) :
    segmentLines number [segment] = [] := by
  unfold segmentLines
  simp [h]

theorem segmentLines_add (count : Nat) :
    segmentLines (number + count) segments = (segmentLines number segments).map (·.shift count) := by
  induction segments generalizing number with
  | nil => rfl
  | cons segment rest ih =>
    have hsegment : segmentLines (number + count) [segment]
        = (segmentLines number [segment]).map (·.shift count) := by
      cases h : isContent (Text.trim (String.ofList segment)) with
      | false =>
        rw [segmentLines_of_isContent_eq_false h, segmentLines_of_isContent_eq_false h, List.map_nil]
      | true => simp [segmentLines, h, Line.shift]
    rw [segmentLines_cons number, segmentLines_cons (number + count), List.map_append, ← ih, hsegment]
    rw [Nat.add_right_comm]

theorem mem_segmentLines_iff {text : String} :
    ⟨number, text⟩ ∈ segmentLines 1 segments ↔
      ∃ index segment, number = index + 1 ∧ segments[index]? = some segment
        ∧ Text.trim (String.ofList segment) = text ∧ isContent text = true := by
  unfold segmentLines
  rw [List.mem_filterMap]
  constructor
  . rintro ⟨⟨segment, place⟩, hmem, hline⟩
    rw [List.mem_zipIdx_iff_le_and_getElem?_sub] at hmem
    simp only [Option.ite_none_right_eq_some, Option.some.injEq, Line.mk.injEq] at hline
    obtain ⟨hcontent, hplace, htext⟩ := hline
    rw [hplace] at hmem
    rw [htext] at hcontent
    exact ⟨number - 1, segment, by omega, hmem.2, htext, hcontent⟩
  . rintro ⟨index, segment, rfl, hsegment, rfl, hcontent⟩
    refine ⟨(segment, index + 1), ?_, if_pos hcontent⟩
    rw [List.mem_zipIdx_iff_le_and_getElem?_sub]
    exact ⟨by omega, hsegment⟩

theorem mem_sourceLines_iff {source text : String} :
    ⟨number, text⟩ ∈ sourceLines source ↔
      ∃ index segment, number = index + 1 ∧ (Text.segments source)[index]? = some segment
        ∧ Text.trim segment = text ∧ text ≠ "" ∧ text.toList.head? ≠ some '#' := by
  rw [sourceLines_eq_segmentLines, mem_segmentLines_iff, isContent_iff]
  simp only [Text.segments, List.getElem?_map, Option.map_eq_some_iff]
  constructor
  . rintro ⟨index, segment, hnumber, hsegment, htext⟩
    exact ⟨index, _, hnumber, ⟨segment, hsegment, rfl⟩, htext⟩
  . rintro ⟨index, _, hnumber, ⟨segment, hsegment, rfl⟩, htext⟩
    exact ⟨index, segment, hnumber, hsegment, htext⟩

theorem pairwise_segmentLines :
    (segmentLines number segments).Pairwise fun line₁ line₂ => line₁.number < line₂.number := by
  have hplaces := List.pairwise_lt_range' (s := number) (n := segments.length)
  rw [← List.zipIdx_map_snd, List.pairwise_map] at hplaces
  unfold segmentLines
  apply hplaces.filterMap
  intro (segment₁, place₁) (segment₂, place₂) hlt line₁ hline₁ line₂ hline₂
  simp only [Option.ite_none_right_eq_some, Option.some.injEq] at hline₁ hline₂
  rw [← hline₁.2, ← hline₂.2]
  exact hlt

theorem segmentLines_map_toList (texts : List String) :
    segmentLines number (texts.map String.toList)
      =
    ((texts.zipIdx number).map fun (text, number) => ⟨number, Text.trim text⟩).filter
      (fun line => line.text ≠ "" ∧ line.text.toList.head? ≠ some '#') := by
  induction texts generalizing number with
  | nil => rfl
  | cons text rest ih =>
    rw [List.map_cons, segmentLines_cons, ih, List.zipIdx_cons, List.map_cons]
    cases h : isContent (Text.trim text) with
    | false =>
      rw [segmentLines_of_isContent_eq_false, List.nil_append, List.filter_cons_of_neg]
      . rw [decide_eq_true_eq, ← isContent_iff, h]
        exact Bool.false_ne_true
      . rwa [String.ofList_toList]
    | true =>
      have hone := segmentLines_of_content number (List.forall_mem_singleton.2 h)
      rw [List.map_singleton] at hone
      rw [hone, List.filter_cons_of_pos]
      . rfl
      . rw [decide_eq_true_eq, ← isContent_iff]
        exact h

theorem segmentLines_lines_go {line rest : List Char} (hline : '\n' ∉ line) :
    segmentLines number ((Text.lines.go line rest).map String.toList)
      =
    segmentLines number ((line ++ rest).splitOn '\n') := by
  fun_induction Text.lines.go line rest generalizing number with
  | case1 line hempty =>
    rw [List.isEmpty_iff.1 hempty]
    rfl
  | case2 line hempty =>
    rw [List.append_nil, List.splitOn_eq_singleton hline, List.map_singleton, String.toList_ofList]
  | case3 line rest ih =>
    rw [List.splitOn_append_cons_self_of_not_mem hline, List.map_cons, segmentLines_cons]
    rw [segmentLines_cons number line, ih List.not_mem_nil, String.toList_ofList, List.nil_append]
    rw [segmentLines_singleton_congr (Text.trim_ofList_dropReturn line)]
  | case4 line c rest hc ih =>
    rw [ih, List.append_assoc, List.singleton_append]
    rw [List.mem_append, List.mem_singleton, not_or]
    exact ⟨hline, Ne.symm hc⟩

theorem segmentLines_withReturns (source : String) :
    segmentLines number ((Text.withReturns source).toList.splitOn '\n')
      =
    segmentLines number (source.toList.splitOn '\n') := by
  unfold Text.withReturns
  rw [String.toList_ofList]
  generalize source.toList = text
  have hflat {line : List Char} (hline : '\n' ∉ line) :
      line.flatMap (fun c => if c = '\n' then ['\r', '\n'] else [c]) = line := by
    rw [List.flatMap_congr, List.flatMap_singleton']
    intro c hc
    exact if_neg (ne_of_mem_of_not_mem hc hline)
  induction text using Text.induction_on_lines generalizing number with
  | last line hline => rw [hflat hline]
  | feed line rest hline ih =>
    -- the carriage return is one more blank at the end of its line
    have hreturn : '\n' ∉ line ++ ['\r'] := by
      simp [hline]
    rw [List.flatMap_append, hflat hline, List.flatMap_cons, if_pos rfl, List.cons_append, List.append_cons]
    rw [List.singleton_append, List.splitOn_append_cons_self_of_not_mem hreturn]
    rw [List.splitOn_append_cons_self_of_not_mem hline, segmentLines_cons, ih]
    rw [segmentLines_cons number line, segmentLines_singleton_congr (Text.trim_ofList_append_return line)]

theorem sourceLines_eq_lines (source : String) :
    sourceLines source = segmentLines 1 ((Text.lines source).map String.toList) := by
  unfold Text.lines
  rw [segmentLines_lines_go List.not_mem_nil, List.nil_append, sourceLines_eq_segmentLines]

variable {source before line after : String}

theorem sourceLines_append_feed_append (source after : String) :
    sourceLines (source ++ "\n" ++ after)
      =
    sourceLines source
      ++ (sourceLines after).map (·.shift ((source ++ "\n").toList.count '\n')) := by
  have hfeed : "\n".toList = ['\n'] := rfl
  simp only [sourceLines_eq_segmentLines, String.toList_append, hfeed]
  rw [← segmentLines_add, ← List.append_cons, List.splitOn_append_cons_self, segmentLines_append]
  rw [Text.length_splitOn, List.count_append, List.count_singleton_self]

theorem sourceLines_append_feed (source : String) : sourceLines (source ++ "\n") = sourceLines source := by
  have happend := sourceLines_append_feed_append source ""
  rw [String.append_empty] at happend
  rw [happend]
  exact List.append_nil _

theorem sourceLines_append (h : before = "" ∨ ∃ source, before = source ++ "\n") :
    sourceLines (before ++ after)
      =
    sourceLines before ++ (sourceLines after).map (·.shift (before.toList.count '\n')) := by
  cases h with
  | inl hempty =>
    rw [hempty, String.empty_append]
    exact (List.map_id _).symm
  | inr hfeed =>
    obtain ⟨source, rfl⟩ := hfeed
    rw [sourceLines_append_feed_append, sourceLines_append_feed]

theorem sourceLines_of_isContent_eq_false (hfeed : '\n' ∉ line.toList)
    (hcontent : isContent (Text.trim line) = false) : sourceLines line = [] := by
  rw [sourceLines_eq_segmentLines, List.splitOn_eq_singleton hfeed]
  apply segmentLines_of_isContent_eq_false
  rwa [String.ofList_toList]

theorem number_pos_of_mem {entry : Line} (h : entry ∈ sourceLines source) : 0 < entry.number := by
  rw [sourceLines_eq_segmentLines, mem_segmentLines_iff] at h
  obtain ⟨index, _, hnumber, _⟩ := h
  omega

theorem number_le_of_mem {entry : Line} (h : entry ∈ sourceLines source) :
    entry.number ≤ source.toList.count '\n' + 1 := by
  rw [sourceLines_eq_segmentLines, mem_segmentLines_iff] at h
  obtain ⟨index, segment, hnumber, hsegment, _⟩ := h
  obtain ⟨hlt, _⟩ := List.getElem?_eq_some_iff.1 hsegment
  rw [Text.length_splitOn] at hlt
  omega

theorem number_le_of_mem_of_ends {entry : Line} (hends : before = "" ∨ ∃ source, before = source ++ "\n")
    (h : entry ∈ sourceLines before) : entry.number ≤ before.toList.count '\n' := by
  cases hends with
  | inl hempty =>
    have hnil : sourceLines "" = [] := rfl
    rw [hempty, hnil] at h
    exact absurd h List.not_mem_nil
  | inr hfeed =>
    obtain ⟨source, rfl⟩ := hfeed
    rw [sourceLines_append_feed] at h
    rw [String.toList_append, List.count_append]
    exact number_le_of_mem h

theorem sourceLines_insert (hends : before = "" ∨ ∃ source, before = source ++ "\n")
    (hfeed : '\n' ∉ line.toList) (hcontent : isContent (Text.trim line) = false) :
    sourceLines (before ++ line ++ "\n" ++ after)
      =
    (sourceLines (before ++ after)).map fun entry =>
      if entry.number ≤ before.toList.count '\n' then entry else entry.shift 1 := by
  -- what is in front of the rest holds the same lines, but is one line longer
  have hline : sourceLines (before ++ line ++ "\n") = sourceLines before := by
    rw [sourceLines_append_feed, sourceLines_append hends]
    rw [sourceLines_of_isContent_eq_false hfeed hcontent, List.map_nil, List.append_nil]
  have hcount : (before ++ line ++ "\n").toList.count '\n' = before.toList.count '\n' + 1 := by
    simp [String.toList_append, List.count_eq_zero_of_not_mem hfeed]
  have hearlier : (sourceLines before).map (fun entry =>
      if entry.number ≤ before.toList.count '\n' then entry else entry.shift 1) = sourceLines before := by
    rw [List.map_congr_left, List.map_id]
    intro entry hmem
    exact if_pos (number_le_of_mem_of_ends hends hmem)
  rw [sourceLines_append (.inr ⟨_, rfl⟩), hline, sourceLines_append hends, List.map_append, List.map_map]
  rw [hearlier, hcount, List.append_cancel_left_eq]
  apply List.map_congr_left
  intro entry hmem
  have hpos := number_pos_of_mem hmem
  rw [Function.comp_apply, if_neg]
  . rfl
  . simp only [Line.shift]
    omega

/--
The lines of a source are the segments between its line feeds that hold something when trimmed, each with its place
among all of them. The same lines come from numbering the lines of the text first, so a carriage return before
each line feed or a line feed at the end makes no difference, and a line with nothing in it adds one to the
numbers behind it and changes nothing else.
-/
theorem sourceLines_numbering (source : String) :
    (∃ segments : List String, segments ≠ [] ∧ (∀ segment ∈ segments, '\n' ∉ segment.toList)
        ∧ "\n".intercalate segments = source
        ∧ ∀ number text, ⟨number, text⟩ ∈ sourceLines source ↔
            ∃ index segment, number = index + 1 ∧ segments[index]? = some segment
              ∧ Text.trim segment = text ∧ text ≠ "" ∧ text.toList.head? ≠ some '#')
      ∧ (sourceLines source).Pairwise (fun line₁ line₂ => line₁.number < line₂.number)
      ∧ sourceLines source
          = (((Text.lines source).zipIdx 1).map fun (line, number) => ⟨number, Text.trim line⟩).filter
              (fun line => line.text ≠ "" ∧ line.text.toList.head? ≠ some '#')
      ∧ sourceLines (Text.withReturns source) = sourceLines source
      ∧ sourceLines (source ++ "\n") = sourceLines source
      ∧ ∀ line, '\n' ∉ line.toList →
          Text.trim line = "" ∨ (Text.trim line).toList.head? = some '#' →
          sourceLines (source ++ "\n" ++ line) = sourceLines source
            ∧ ∀ before after, source = before ++ after → before = "" ∨ (∃ text, before = text ++ "\n") →
                sourceLines (before ++ line ++ "\n" ++ after)
                  = (sourceLines source).map fun entry =>
                      if entry.number ≤ before.toList.count '\n' then entry else entry.shift 1 := by
  refine ⟨⟨Text.segments source, ?_, ?_, ?_, ?_⟩, ?_, ?_, ?_, ?_, ?_⟩
  . exact Text.segments_ne_nil source
  . intro segment hmem
    exact Text.not_mem_of_mem_segments hmem
  . exact Text.intercalate_segments source
  . intro number text
    exact mem_sourceLines_iff
  . exact pairwise_segmentLines
  . rw [sourceLines_eq_lines, segmentLines_map_toList]
  . exact segmentLines_withReturns source
  . exact sourceLines_append_feed source
  . intro line hfeed hempty
    rw [← isContent_eq_false_iff] at hempty
    constructor
    . rw [sourceLines_append (.inr ⟨source, rfl⟩), sourceLines_append_feed]
      rw [sourceLines_of_isContent_eq_false hfeed hempty]
      exact List.append_nil _
    . rintro before after rfl hends
      exact sourceLines_insert hends hfeed hempty

/-- A comment that ends in a carriage return, put behind the first line. -/
theorem sourceLines_numbering_comment :
    let before := "# header\n"
    let after := "0x71014802\n\n   \n  # indented comment\n  42  \n"
    let line := "  # note\r"
    ('\n' ∉ line.toList ∧ (Text.trim line).toList.head? = some '#')
      ∧ sourceLines (before ++ after) = [⟨2, "0x71014802"⟩, ⟨6, "42"⟩]
      ∧ sourceLines (before ++ line ++ "\n" ++ after) = [⟨3, "0x71014802"⟩, ⟨7, "42"⟩] := by
  intro before after line
  have hline : '\n' ∉ line.toList ∧ (Text.trim line).toList.head? = some '#' := by
    decide
  have hsource : sourceLines (before ++ after) = [⟨2, "0x71014802"⟩, ⟨6, "42"⟩] := by
    decide
  obtain ⟨_, _, _, _, _, hempty⟩ := sourceLines_numbering (before ++ after)
  have hinsert := (hempty line hline.1 (.inr hline.2)).2 before after rfl (.inr ⟨"# header", rfl⟩)
  refine ⟨hline, hsource, ?_⟩
  rw [hinsert, hsource]
  decide

end Listing

end Mips32
