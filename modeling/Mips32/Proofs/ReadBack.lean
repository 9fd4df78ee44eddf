import Mips32.Proofs.Fields
import Mips32.Proofs.Mnemonic
import Mips32.Proofs.Reading

/-!
This module contains the verification that the numbers shown for a word can be read as words again. The lists of
field values give back the values and with them the word. An operand gives back the value of its field, or
the low halfword of it with the sign if it is shown as a signed halfword.
-/

namespace Mips32

namespace Text

def isMark (c : Char) : Bool :=
  c == '[' || c == ']' || c == ' '

def pieces (text : List Char) : List (List Char) :=
  (text.splitOnP isMark).filter (· ≠ [])

/-- The words that the brackets and blanks of a text keep apart. -/
def tokens (text : String) : List String :=
  (pieces text.toList).map String.ofList

variable {c : Char} {piece : List Char} {pieceList : List (List Char)}

theorem isMark_eq_false_of_isAlphanum (h : c.isAlphanum = true) : isMark c = false := by
  unfold isMark
  rw [Bool.or_eq_false_iff, Bool.or_eq_false_iff]
  refine ⟨⟨?_, ?_⟩, ?_⟩
  all_goals
    rw [beq_eq_false_iff_ne]
    rintro rfl
    contradiction

theorem pieces_append_cons (hmark : isMark c = true) (left right : List Char) :
    pieces (left ++ c :: right) = pieces left ++ pieces right := by
  unfold pieces
  rw [List.splitOnP_append_cons left right hmark, List.filter_append]

theorem pieces_of_forall_not_mark (hne : piece ≠ []) (h : ∀ c ∈ piece, isMark c = false) :
    pieces piece = [piece] := by
  unfold pieces
  rw [List.splitOnP_eq_singleton h]
  simp [hne]

theorem pieces_intercalate_append (hne : ∀ piece ∈ pieceList, piece ≠ [])
    (h : ∀ piece ∈ pieceList, ∀ c ∈ piece, isMark c = false) :
    pieces ([' '].intercalate pieceList ++ [']']) = pieceList := by
  induction pieceList with
  | nil => rfl
  | cons piece rest ih =>
    rw [List.forall_mem_cons] at hne h
    have hpiece := pieces_of_forall_not_mark hne.1 h.1
    cases rest with
    | nil =>
      rw [List.intercalate_singleton, pieces_append_cons rfl, hpiece]
      rfl
    | cons next rest =>
      rw [List.intercalate_cons_cons, List.append_assoc, List.append_assoc, List.singleton_append]
      rw [pieces_append_cons rfl, hpiece, ih hne.2 h.2]
      rfl

end Text

namespace Word

open Numeral

theorem literal_decimal (n : Nat) : Literal (decimal n).toList n := by
  rw [toList_decimal]
  exact .decimal (.bare (spells_toDigits (by omega) (by omega) n))

theorem literal_hex (n : Nat) : Literal (hex n).toList n := by
  rw [toList_hex]
  exact .hex (.inl rfl) (.bare (spells_toDigits (by omega) (by omega) n))

theorem literal_signed (i : Int) : Literal (signed i).toList i := by
  cases i with
  | ofNat n => exact literal_decimal n
  | negSucc n =>
    rw [toList_signed_negSucc, toList_decimal]
    exact .negative (spells_toDigits (by omega) (by omega) (n + 1))

variable {text : String} {value : Int} {n : Nat}

theorem read_of_literal (hliteral : Literal text.toList value) (hfits : Fits value) :
    read text = .ok (BitVec.ofInt 32 value) := by
  have hblank : Text.AllBlank "" := by
    decide
  have hread := read_surrounded hblank hblank hliteral hfits
  rwa [String.empty_append, String.append_empty] at hread

theorem read_of_literal_natCast (hliteral : Literal text.toList n) (hlt : n < 2 ^ 32) :
    read text = .ok (BitVec.ofNat 32 n) := by
  rw [read_of_literal hliteral (fits_natCast_iff.2 (by omega)), BitVec.ofInt_natCast]

theorem read_signedHalfword (value : Nat) :
    read (signed (signedHalfword value)) = .ok ((BitVec.ofNat 16 value).signExtend 32) := by
  have hge := (BitVec.ofNat 16 value).le_toInt
  have hlt := (BitVec.ofNat 16 value).toInt_lt
  apply read_of_literal (literal_signed _)
  unfold signedHalfword Fits
  omega

theorem getLsbD_signExtend_low {value index : Nat} (h : index < 16) :
    ((BitVec.ofNat 16 value).signExtend 32).getLsbD index = value.testBit index := by
  have hlt : index < 32 := by omega
  rw [BitVec.getLsbD_signExtend, if_pos h, BitVec.getLsbD_ofNat]
  simp [h, hlt]

theorem getLsbD_signExtend_high {value index : Nat} (hge : 16 ≤ index) (hlt : index < 32) :
    ((BitVec.ofNat 16 value).signExtend 32).getLsbD index = value.testBit 15 := by
  rw [BitVec.getLsbD_signExtend, if_neg (by omega), BitVec.msb_eq_getLsbD_last, BitVec.getLsbD_ofNat]
  simp [hlt]

theorem mapM_read_map {numeral : Nat → String} (hliteral : ∀ n, Literal (numeral n).toList n)
    {values : List Nat} (hlt : ∀ value ∈ values, value < 2 ^ 32) :
    (values.map numeral).mapM read = .ok (values.map (BitVec.ofNat 32)) := by
  induction values with
  | nil => rfl
  | cons value rest ih =>
    rw [List.forall_mem_cons] at hlt
    rw [List.map_cons, List.mapM_cons, read_of_literal_natCast (hliteral value) hlt.1, ih hlt.2]
    rfl

theorem map_toNat_map_ofNat {values : List Nat} (hlt : ∀ value ∈ values, value < 2 ^ 32) :
    (values.map (BitVec.ofNat 32)).map BitVec.toNat = values := by
  rw [List.map_map, List.map_congr_left, List.map_id]
  intro value hmem
  rw [Function.comp_apply, BitVec.toNat_ofNat, Nat.mod_eq_of_lt (hlt value hmem)]
  rfl

theorem slice_lt (word : Word) (offset width : Nat) : word.slice offset width < 2 ^ 32 := by
  have hle : word.toNat / 2 ^ offset % 2 ^ width ≤ word.toNat :=
    Nat.le_trans (Nat.mod_le _ _) (Nat.div_le_self _ _)
  have hlt := word.isLt
  rw [slice_eq]
  omega

end Word

namespace Operand

theorem render_eq (operand : Operand) (fields : Fields) :
    operand.render fields = operand.kind.text (fields.value operand.field) :=
  rfl

namespace Kind

variable {kind kind₁ kind₂ : Kind} {value value₁ value₂ : Nat}

theorem read_text_of_unsigned (hkind : kind ∈ [amount, target]) (hlt : value < 2 ^ 32) :
    ∃ word, Word.read (kind.text value) = .ok word ∧ word.toNat = value := by
  have hliteral : Word.Literal (kind.text value).toList value := by
    simp only [List.mem_cons, List.not_mem_nil, or_false] at hkind
    cases hkind with
    | inl hamount =>
      rw [hamount]
      exact Word.literal_decimal value
    | inr htarget =>
      rw [htarget]
      exact Word.literal_hex value
  refine ⟨_, Word.read_of_literal_natCast hliteral hlt, ?_⟩
  rw [BitVec.toNat_ofNat, Nat.mod_eq_of_lt hlt]

theorem text_of_signed (hkind : kind ∈ [immediate, label]) (value : Nat) :
    kind.text value = Numeral.signed (signedHalfword value) := by
  simp only [List.mem_cons, List.not_mem_nil, or_false] at hkind
  cases hkind with
  | inl himmediate => rw [himmediate, text]
  | inr hlabel => rw [hlabel, text]

theorem read_text_of_signed (hkind : kind ∈ [immediate, label]) (value : Nat) :
    ∃ word, Word.read (kind.text value) = .ok word
      ∧ (∀ index < 16, word.getLsbD index = value.testBit index)
      ∧ ∀ index, 16 ≤ index → index < 32 → word.getLsbD index = value.testBit 15 := by
  rw [text_of_signed hkind, Word.read_signedHalfword]
  exact ⟨_, rfl, fun _ => Word.getLsbD_signExtend_low, fun _ => Word.getLsbD_signExtend_high⟩

theorem text_eq_iff_of_signed (hkind₁ : kind₁ ∈ [immediate, label]) (hkind₂ : kind₂ ∈ [immediate, label]) :
    kind₁.text value₁ = kind₂.text value₂ ↔ value₁ % 2 ^ 16 = value₂ % 2 ^ 16 := by
  rw [text_of_signed hkind₁, text_of_signed hkind₂, ← signedHalfword_eq_iff]
  constructor
  . exact Numeral.signed_injective
  . intro h
    rw [h]

end Kind

end Operand

namespace Fields

variable {fields : Fields} {value : Nat}

theorem lt_of_mem_values (hmem : value ∈ fields.values) : value < 2 ^ 32 := by
  unfold values Layout.split at hmem
  rw [List.mem_iff_getElem] at hmem
  obtain ⟨index, hindex, rfl⟩ := hmem
  rw [List.getElem_zipWith]
  exact Word.slice_lt _ _ _

theorem lt_of_get?_eq_some {field : Field} (h : fields.get? field = some value) : value < 2 ^ 32 := by
  unfold get? at h
  rw [Option.bind_eq_bind, Option.bind_eq_some_iff] at h
  obtain ⟨index, _, hvalue⟩ := h
  exact lt_of_mem_values (List.mem_of_getElem? hvalue)

theorem literal_hexNumeral (n : Nat) : Word.Literal (hexNumeral n).toList n := by
  unfold hexNumeral
  split
  . exact Word.literal_decimal n
  . exact Word.literal_hex n

theorem isAlphanum_of_mem_hexNumeral {n : Nat} {c : Char} (hmem : c ∈ (hexNumeral n).toList) :
    c.isAlphanum = true := by
  unfold hexNumeral at hmem
  split at hmem
  . exact Numeral.isAlphanum_of_mem_decimal hmem
  . exact Numeral.isAlphanum_of_mem_hex hmem

theorem tokens_bracketed {numeral : Nat → String} (hne : ∀ n, (numeral n).toList ≠ [])
    (halphanum : ∀ n, ∀ c ∈ (numeral n).toList, c.isAlphanum = true) (values : List Nat) :
    Text.tokens (bracketed numeral values) = values.map numeral := by
  -- the bracket in front is a mark like the others, with nothing before it
  have hlist : (bracketed numeral values).toList
      = [] ++ '[' :: ([' '].intercalate ((values.map numeral).map String.toList) ++ [']']) := by
    unfold bracketed
    rw [String.toList_append, String.toList_append, String.toList_intercalate]
    rfl
  unfold Text.tokens
  rw [hlist, Text.pieces_append_cons rfl, Text.pieces_intercalate_append]
  . have hid : String.ofList ∘ String.toList = id := funext fun _ => String.ofList_toList
    rw [List.map_append, List.map_map, hid, List.map_id]
    rfl
  . rw [List.forall_mem_map, List.forall_mem_map]
    intro n _
    exact hne n
  . rw [List.forall_mem_map, List.forall_mem_map]
    intro n _ c hmem
    exact Text.isMark_eq_false_of_isAlphanum (halphanum n c hmem)

theorem read_tokens_bracketed {numeral : Nat → String}
    (hliteral : ∀ n, Word.Literal (numeral n).toList n)
    (halphanum : ∀ n, ∀ c ∈ (numeral n).toList, c.isAlphanum = true) (fields : Fields) :
    ∃ words, (Text.tokens (bracketed numeral fields.values)).mapM Word.read = .ok words
      ∧ words.map BitVec.toNat = fields.values
      ∧ Word.compose (words.map BitVec.toNat) fields.format.widths = .ok fields.word := by
  have hlt : ∀ value ∈ fields.values, value < 2 ^ 32 := fun _ hmem => lt_of_mem_values hmem
  have hcompose := Word.compose_widths fields.format.layout (fields.format.layout.length_split fields.word)
  rw [fields.format.layout.join_split] at hcompose
  rw [tokens_bracketed (fun n => (hliteral n).ne_nil) halphanum, Word.mapM_read_map hliteral hlt]
  refine ⟨_, rfl, Word.map_toNat_map_ofNat hlt, ?_⟩
  rw [Word.map_toNat_map_ofNat hlt]
  exact hcompose

/--
The numbers in both lists of a word are read as the values of its fields, under its own format or another one, and
so make up the word again. As an amount or a target a value is read as it is. As a signed halfword it is read as
its low half, filled up with the sign, so that only values with the same low half have the same text.
-/
theorem read_back (word : Word) (format : Format) :
    let fields : Fields := ⟨word, format⟩
    (∀ text ∈ [fields.decimalText, fields.hexText], ∃ words,
        (Text.tokens text).mapM Word.read = .ok words ∧ words.map BitVec.toNat = fields.values
          ∧ Word.compose (words.map BitVec.toNat) format.widths = .ok word)
      ∧ (∀ field ∈ format.fields, ∃ value, fields.get? field = some value
          ∧ (∀ kind ∈ [.amount, .target], ∃ word,
              Word.read (Operand.render ⟨kind, field⟩ fields) = .ok word ∧ word.toNat = value)
          ∧ ∀ kind ∈ [.immediate, .label], ∃ word,
              Word.read (Operand.render ⟨kind, field⟩ fields) = .ok word
                ∧ (∀ index < 16, word.getLsbD index = value.testBit index)
                ∧ ∀ index, 16 ≤ index → index < 32 → word.getLsbD index = value.testBit 15)
      ∧ ∀ kind₁ ∈ [Operand.Kind.immediate, .label], ∀ kind₂ ∈ [Operand.Kind.immediate, .label],
          ∀ value₁ value₂, kind₁.text value₁ = kind₂.text value₂ ↔ value₁ % 2 ^ 16 = value₂ % 2 ^ 16 := by
  intro fields
  refine ⟨?_, ?_, ?_⟩
  . simp only [List.forall_mem_cons, List.not_mem_nil, false_implies, implies_true, and_true]
    constructor
    . exact fields.read_tokens_bracketed Word.literal_decimal fun _ _ => Numeral.isAlphanum_of_mem_decimal
    . exact fields.read_tokens_bracketed literal_hexNumeral fun _ _ => isAlphanum_of_mem_hexNumeral
  . intro field hmem
    have hget : fields.get? field = some (fields.value field) := get?_eq_value hmem
    refine ⟨_, hget, ?_, ?_⟩
    . intro kind hkind
      rw [Operand.render_eq]
      exact Operand.Kind.read_text_of_unsigned hkind (lt_of_get?_eq_some hget)
    . intro kind hkind
      rw [Operand.render_eq]
      exact Operand.Kind.read_text_of_signed hkind _
  . intro kind₁ hkind₁ kind₂ hkind₂ value₁ value₂
    exact Operand.Kind.text_eq_iff_of_signed hkind₁ hkind₂

/-- A negative displacement is listed as a halfword and shown as a signed number. -/
theorem read_back_negative :
    let fields : Fields := ⟨0x2129fffb, .immediate⟩
    fields.hexText = "[8 9 9 0xfffb]" ∧ Operand.render ⟨.immediate, .imm⟩ fields = "-5"
      ∧ (∃ words, (Text.tokens "[8 9 9 0xfffb]").mapM Word.read = .ok words
          ∧ words.map BitVec.toNat = [8, 9, 9, 0xfffb])
      ∧ ∃ word, Word.read "-5" = .ok word ∧ ∀ index, 16 ≤ index → index < 32 → word.getLsbD index = true := by
  intro fields
  have htext : fields.hexText = "[8 9 9 0xfffb]" := by
    decide
  have hrender : Operand.render ⟨.immediate, .imm⟩ fields = "-5" := by
    decide
  obtain ⟨hlists, hoperands, _⟩ := read_back 0x2129fffb .immediate
  obtain ⟨words, hread, hvalues, _⟩ := hlists fields.hexText (by simp [fields])
  obtain ⟨value, hget, _, hsigned⟩ := hoperands .imm (by decide)
  obtain ⟨word, hword, _, hhigh⟩ := hsigned .immediate (by decide)
  refine ⟨htext, hrender, ⟨words, ?_, hvalues⟩, word, ?_, ?_⟩
  . rw [← htext]
    exact hread
  . rw [← hrender]
    exact hword
  . intro index hge hlt
    have hvalue : some 0xfffb = some value := hget
    rw [hhigh index hge hlt, ← Option.some.inj hvalue]
    decide

end Fields

end Mips32
