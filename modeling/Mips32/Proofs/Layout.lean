import Mathlib.Algebra.GroupWithZero.Nat
import Mips32.Layout

/-!
This module contains the arithmetic of layouts. The fields of a word are the digits of a number whose
digits differ in width: `Layout.unpack` cuts a number into such digits and `Layout.pack` puts one together.
`Layout.split` and `Layout.join` are these two on words, so they undo each other. This holds for whatever
widths lay out a word, not only for those of the instruction formats.
-/

namespace Mips32

namespace Word

theorem toNat_push (word : Word) (width value : Nat) :
    (word.push width value).toNat = (word.toNat * 2 ^ width + value % 2 ^ width) % 2 ^ 32 := by
  unfold push
  have hvalue : value % 2 ^ width < 2 ^ width := Nat.mod_lt _ (Nat.two_pow_pos width)
  rw [BitVec.toNat_or, BitVec.toNat_shiftLeft, BitVec.toNat_setWidth, BitVec.toNat_ofNat]
  rw [← Nat.or_mod_two_pow]
  rw [← Nat.shiftLeft_add_eq_or_of_lt hvalue]
  rw [Nat.shiftLeft_eq]

theorem slice_eq (word : Word) (offset width : Nat) :
    word.slice offset width = word.toNat / 2 ^ offset % 2 ^ width := by
  unfold slice
  rw [BitVec.extractLsb'_toNat]
  rw [Nat.shiftRight_eq_div_pow]

end Word

namespace Layout

theorem fills_iff {room : Nat} {widths : List Nat} :
    fills room widths = true ↔ (∀ width ∈ widths, 0 < width) ∧ widths.sum = room := by
  induction widths generalizing room with
  | nil =>
    simp only [fills, beq_iff_eq, List.not_mem_nil, false_implies, implies_true, List.sum_nil,
      true_and]
    exact eq_comm
  | cons width rest ih =>
    simp only [fills, Bool.and_eq_true, decide_eq_true_eq, ih, List.mem_cons, forall_eq_or_imp,
      List.sum_cons]
    constructor
    . rintro ⟨⟨hpos, hle⟩, hrest, hsum⟩
      exact ⟨⟨hpos, hrest⟩, by omega⟩
    . rintro ⟨⟨hpos, hrest⟩, hsum⟩
      exact ⟨⟨hpos, by omega⟩, hrest, by omega⟩

/-- The digits of `n` with the given widths, the most significant digit first. -/
def unpack (n : Nat) : List Nat → List Nat
  | [] => []
  | width :: rest => n / 2 ^ rest.sum % 2 ^ width :: unpack n rest

/-- The number whose digits are given with their widths, each cut to its width. -/
def pack : List (Nat × Nat) → Nat
  | [] => 0
  | (width, value) :: rest => value % 2 ^ width * 2 ^ (rest.map Prod.fst).sum + pack rest

theorem length_unpack (n : Nat) (widths : List Nat) : (unpack n widths).length = widths.length := by
  induction widths with
  | nil => rfl
  | cons width rest ih => simp [unpack, ih]

theorem getElem?_unpack (n : Nat) {widths : List Nat} {index : Nat} (h : index < widths.length) :
    (unpack n widths)[index]? = some (n / 2 ^ (widths.drop (index + 1)).sum % 2 ^ widths[index]) := by
  induction widths generalizing index with
  | nil => contradiction
  | cons width rest ih =>
    cases index with
    | zero => rfl
    | succ index => exact ih (Nat.lt_of_succ_lt_succ h)

theorem pack_lt (digits : List (Nat × Nat)) : pack digits < 2 ^ (digits.map Prod.fst).sum := by
  induction digits with
  | nil => simp [pack]
  | cons digit rest ih =>
    obtain ⟨width, value⟩ := digit
    simp only [pack, List.map_cons, List.sum_cons]
    have hvalue : value % 2 ^ width + 1 ≤ 2 ^ width := Nat.mod_lt _ (Nat.two_pow_pos width)
    have hmul := Nat.mul_le_mul_right (2 ^ (rest.map Prod.fst).sum) hvalue
    rw [Nat.add_mul, Nat.one_mul] at hmul
    rw [Nat.pow_add]
    omega

theorem unpack_add_mul (high low : Nat) (widths : List Nat) :
    unpack (high * 2 ^ widths.sum + low) widths = unpack low widths := by
  induction widths generalizing high with
  | nil => rfl
  | cons width rest ih =>
    have hhigh : high * 2 ^ (width :: rest).sum = high * 2 ^ width * 2 ^ rest.sum := by
      rw [List.sum_cons, Nat.pow_add, Nat.mul_assoc]
    simp only [unpack]
    rw [hhigh, ih]
    congr 1
    rw [Nat.add_comm, Nat.add_mul_div_right _ _ (Nat.two_pow_pos rest.sum)]
    rw [Nat.add_mul_mod_self_right]

theorem unpack_pack (digits : List (Nat × Nat)) :
    unpack (pack digits) (digits.map Prod.fst) = digits.map fun (width, value) => value % 2 ^ width := by
  induction digits with
  | nil => rfl
  | cons digit rest ih =>
    obtain ⟨width, value⟩ := digit
    have hrest := pack_lt rest
    simp only [pack, unpack, List.map_cons]
    rw [unpack_add_mul, ih]
    congr 1
    rw [Nat.add_comm, Nat.add_mul_div_right _ _ (Nat.two_pow_pos _)]
    rw [Nat.div_eq_of_lt hrest]
    simp

theorem pack_unpack (n : Nat) (widths : List Nat) :
    pack (widths.zip (unpack n widths)) = n % 2 ^ widths.sum := by
  induction widths with
  | nil => simp [pack, Nat.mod_one]
  | cons width rest ih =>
    have hrest : (rest.zip (unpack n rest)).map Prod.fst = rest := by
      apply List.map_fst_zip
      apply Nat.le_of_eq
      rw [length_unpack]
    simp only [unpack, List.zip_cons_cons, pack, List.sum_cons]
    rw [hrest, ih]
    rw [Nat.mod_mod, Nat.add_comm width, Nat.pow_add, Nat.mod_mul]
    rw [Nat.mul_comm, Nat.add_comm]

theorem toNat_foldl_push (digits : List (Nat × Nat)) (word : Word) :
    (digits.foldl (fun word digit => word.push digit.1 digit.2) word).toNat
      =
    (word.toNat * 2 ^ (digits.map Prod.fst).sum + pack digits) % 2 ^ 32 := by
  induction digits generalizing word with
  | nil => simp [pack, Nat.mod_eq_of_lt word.isLt]
  | cons digit rest ih =>
    obtain ⟨width, value⟩ := digit
    simp only [List.foldl_cons, pack, List.map_cons, List.sum_cons]
    -- each push drops what passes 32 bits, and so does the remainder at the end
    rw [ih, Word.toNat_push]
    rw [← Nat.mod_add_mod, Nat.mod_mul_mod, Nat.mod_add_mod]
    congr 1
    rw [Nat.add_mul, Nat.pow_add]
    rw [Nat.mul_assoc, Nat.add_assoc]

theorem zipWith_slice_offsets (word : Word) (widths : List Nat) :
    List.zipWith word.slice (offsets widths.sum widths) widths = unpack word.toNat widths := by
  induction widths with
  | nil => rfl
  | cons width rest ih =>
    simp only [offsets, List.sum_cons, Nat.add_sub_cancel_left, List.zipWith_cons_cons, unpack]
    rw [ih, Word.slice_eq]

theorem sum_widths (layout : Layout) : layout.widths.sum = 32 :=
  (fills_iff.1 layout.fills_word).2

theorem split_eq_unpack (layout : Layout) (word : Word) :
    layout.split word = unpack word.toNat layout.widths := by
  have hsplit := zipWith_slice_offsets word layout.widths
  rw [sum_widths] at hsplit
  exact hsplit

theorem toNat_join (layout : Layout) {values : List Nat}
    (hlength : values.length = layout.widths.length) :
    (layout.join values).toNat = pack (layout.widths.zip values) := by
  have hwidths : (layout.widths.zip values).map Prod.fst = layout.widths := by
    apply List.map_fst_zip
    omega
  have hlt := pack_lt (layout.widths.zip values)
  rw [hwidths, sum_widths] at hlt
  unfold join
  rw [toNat_foldl_push]
  simpa using Nat.mod_eq_of_lt hlt

theorem split_join (layout : Layout) {values : List Nat}
    (hlength : values.length = layout.widths.length) :
    layout.split (layout.join values)
      =
    List.zipWith (fun width value => value % 2 ^ width) layout.widths values := by
  have hwidths : (layout.widths.zip values).map Prod.fst = layout.widths := by
    apply List.map_fst_zip
    omega
  have hdigits := unpack_pack (layout.widths.zip values)
  rw [hwidths] at hdigits
  rw [split_eq_unpack, layout.toNat_join hlength, hdigits]
  rw [List.zip, List.map_zipWith]

theorem join_split (layout : Layout) (word : Word) : layout.join (layout.split word) = word := by
  apply BitVec.eq_of_toNat_eq
  rw [layout.toNat_join (layout.length_split word)]
  rw [split_eq_unpack, pack_unpack, sum_widths]
  exact Nat.mod_eq_of_lt word.isLt

theorem exists_widths_eq_iff {widths : List Nat} :
    (∃ layout : Layout, layout.widths = widths) ↔
      (∀ width ∈ widths, 0 < width) ∧ widths.sum = 32 := by
  rw [← fills_iff]
  constructor
  . rintro ⟨layout, rfl⟩
    exact layout.fills_word
  . intro h
    exact ⟨⟨widths, h⟩, rfl⟩

theorem ofWidths_widths (layout : Layout) : ofWidths layout.widths = .ok layout := by
  unfold ofWidths
  rw [dif_pos layout.fills_word]

end Layout

namespace Word

theorem extract_widths (word : Word) (layout : Layout) :
    word.extract layout.widths = .ok (layout.split word) := by
  unfold extract
  rw [layout.ofWidths_widths]
  rfl

theorem compose_widths (layout : Layout) {values : List Nat}
    (hlength : values.length = layout.widths.length) :
    compose values layout.widths = .ok (layout.join values) := by
  have hjoin : layout.join? values = .ok (layout.join values) := by
    unfold Layout.join?
    rw [if_pos hlength]
  unfold compose
  rw [layout.ofWidths_widths]
  exact hjoin

/--
Taking a word apart and putting one together undo each other, for whatever widths lay out a word. Each field
is the stretch of bits above those of the later fields, and a value that is too wide for its field leaves
the others as they are.
-/
theorem extract_compose {widths : List Nat} (hpos : ∀ width ∈ widths, 0 < width)
    (hsum : widths.sum = 32) :
    (∀ word : Word, ∃ values, word.extract widths = .ok values
        ∧ values.length = widths.length
        ∧ (∀ (index : Nat) (h : index < widths.length), ∃ value, values[index]? = some value
            ∧ value < 2 ^ widths[index]
            ∧ value = word.toNat / 2 ^ (widths.drop (index + 1)).sum % 2 ^ widths[index])
        ∧ compose values widths = .ok word)
      ∧ ∀ values : List Nat, values.length = widths.length →
          ∃ word, compose values widths = .ok word
            ∧ word.extract widths
              = .ok (List.zipWith (fun width value => value % 2 ^ width) widths values) := by
  obtain ⟨layout, rfl⟩ := Layout.exists_widths_eq_iff.2 ⟨hpos, hsum⟩
  constructor
  . intro word
    refine ⟨_, word.extract_widths layout, layout.length_split word, ?_, ?_⟩
    . intro index h
      rw [layout.split_eq_unpack, Layout.getElem?_unpack word.toNat h]
      exact ⟨_, rfl, Nat.mod_lt _ (Nat.two_pow_pos _), rfl⟩
    . rw [compose_widths layout (layout.length_split word), layout.join_split]
  . intro values hlength
    refine ⟨_, compose_widths layout hlength, ?_⟩
    rw [extract_widths, layout.split_join hlength]

/-- The middle of three fields keeps its value, though both values beside it are too wide. -/
theorem extract_compose_oversized :
    (∀ width ∈ [1, 30, 1], 0 < width) ∧ [1, 30, 1].sum = 32
      ∧ ∃ word, compose [2, 0x3ffffffe, 0xffffffff] [1, 30, 1] = .ok word
        ∧ word.extract [1, 30, 1] = .ok [0, 0x3ffffffe, 1] := by
  have hpos : ∀ width ∈ [1, 30, 1], 0 < width := by decide
  have hsum : [1, 30, 1].sum = 32 := by decide
  obtain ⟨_, hvalues⟩ := extract_compose hpos hsum
  exact ⟨hpos, hsum, hvalues [2, 0x3ffffffe, 0xffffffff] rfl⟩

end Word

end Mips32
