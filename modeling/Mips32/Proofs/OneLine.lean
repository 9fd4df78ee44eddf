import Mips32.InstructionSet.Release2
import Mips32.Listing.Style
import Mips32.Proofs.Decoding
import Mips32.Proofs.Listing
import Mips32.Proofs.Mnemonic
import Mips32.Proofs.Quoted

/-!
This module contains the verification that whatever is said about a line of input fits in one line. Numerals,
names and marks never break a line, and quotations do not either, because they escape what would.
-/

namespace Mips32

namespace Text

def OneLine (text : String) : Prop :=
  ∀ c ∈ text.toList, c ≠ '\n' ∧ c ≠ '\r'

instance (text : String) : Decidable (OneLine text) :=
  List.decidableBAll (fun c => c ≠ '\n' ∧ c ≠ '\r') text.toList

variable {text : String}

theorem OneLine.not_mem_feed (h : OneLine text) : '\n' ∉ text.toList := by
  intro hmem
  exact (h _ hmem).1 rfl

@[simp]
theorem oneLine_append {text₁ text₂ : String} :
    OneLine (text₁ ++ text₂) ↔ OneLine text₁ ∧ OneLine text₂ := by
  unfold OneLine
  rw [String.toList_append, List.forall_mem_append]

theorem oneLine_intercalate {mark : String} {texts : List String} (hmark : OneLine mark)
    (htexts : ∀ text ∈ texts, OneLine text) : OneLine (mark.intercalate texts) := by
  induction texts with
  | nil =>
    rw [String.intercalate_nil]
    decide
  | cons text rest ih =>
    rw [List.forall_mem_cons] at htexts
    cases rest with
    | nil => simpa using htexts.1
    | cons next rest =>
      rw [String.intercalate_cons_cons, oneLine_append, oneLine_append]
      exact ⟨⟨htexts.1, hmark⟩, ih htexts.2⟩

theorem ne_break_of_isAlphanum {c : Char} (h : c.isAlphanum = true) : c ≠ '\n' ∧ c ≠ '\r' := by
  constructor
  all_goals
    rintro rfl
    contradiction

theorem oneLine_of_isAlphanum (h : ∀ c ∈ text.toList, c.isAlphanum = true) : OneLine text := by
  intro c hmem
  exact ne_break_of_isAlphanum (h c hmem)

theorem ne_break_of_mem_escape (c : Char) : ∀ d ∈ escape c, d ≠ '\n' ∧ d ≠ '\r' := by
  unfold escape
  split
  . simp
  split
  . simp
  split
  . simp
  . next hfeed =>
    split
    . simp
    . next hreturn =>
      split
      . simp
      split
      . simp
      split
      . rw [List.forall_mem_append, List.forall_mem_append]
        refine ⟨⟨by simp, ?_⟩, by simp⟩
        intro d hmem
        exact ne_break_of_isAlphanum (Numeral.isAlphanum_of_mem_toDigits (by omega) (by omega) hmem)
      . simp [hfeed, hreturn]

@[simp]
theorem oneLine_quote (text : String) : OneLine (quote text) := by
  unfold OneLine
  rw [toList_quote, List.forall_mem_cons, List.forall_mem_append]
  refine ⟨by decide, ?_, by simp⟩
  intro d hmem
  obtain ⟨c, _, hescape⟩ := List.mem_flatMap.1 hmem
  exact ne_break_of_mem_escape c d hescape

end Text

namespace Numeral

@[simp]
theorem oneLine_decimal (n : Nat) : Text.OneLine (decimal n) :=
  Text.oneLine_of_isAlphanum fun _ => isAlphanum_of_mem_decimal

@[simp]
theorem oneLine_hex (n : Nat) : Text.OneLine (hex n) :=
  Text.oneLine_of_isAlphanum fun _ => isAlphanum_of_mem_hex

@[simp]
theorem oneLine_hex8 (n : Nat) : Text.OneLine (hex8 n) :=
  Text.oneLine_of_isAlphanum fun _ => isAlphanum_of_mem_hex8

end Numeral

@[simp]
theorem Field.oneLine_name (field : Field) : Text.OneLine field.name := by
  cases field <;> decide

@[simp]
theorem Word.ReadError.oneLine_message (e : Word.ReadError) : Text.OneLine e.message := by
  have hempty : Text.OneLine "empty instruction word" := by decide
  have hmalformed : Text.OneLine "not a decimal or 0x-prefixed hexadecimal number: " := by decide
  have houtOfRange : Text.OneLine "does not fit in 32 bits: " := by decide
  unfold message
  split
  . exact hempty
  . exact Text.oneLine_append.2 ⟨hmalformed, Text.oneLine_quote _⟩
  . exact Text.oneLine_append.2 ⟨houtOfRange, Text.oneLine_quote _⟩

namespace Key

theorem oneLine_text (key : Key) : Text.OneLine key.text := by
  unfold text
  apply Text.oneLine_intercalate (by decide)
  rw [List.forall_mem_map]
  intro part _
  have hmark : Text.OneLine "=" := by decide
  simp [partText, hmark]

end Key

namespace Violation

theorem oneLine_listText (violations : List Violation) : Text.OneLine (listText violations) := by
  unfold listText
  apply Text.oneLine_intercalate (by decide)
  rw [List.forall_mem_map]
  intro violation _
  have hequals : Text.OneLine " == " := by decide
  have hfound : Text.OneLine " (found " := by decide
  have hclose : Text.OneLine ")" := by decide
  simp [text, Constraint.text, hequals, hfound, hclose]

end Violation

namespace Fields

theorem oneLine_bracketed {numeral : Nat → String} (h : ∀ n, Text.OneLine (numeral n))
    (values : List Nat) : Text.OneLine (bracketed numeral values) := by
  have hopening : Text.OneLine "[" := by decide
  have hclosing : Text.OneLine "]" := by decide
  have hvalues : Text.OneLine (" ".intercalate (values.map numeral)) := by
    apply Text.oneLine_intercalate (by decide)
    rw [List.forall_mem_map]
    intro n _
    exact h n
  simp [bracketed, hopening, hclosing, hvalues]

theorem oneLine_hexNumeral (n : Nat) : Text.OneLine (hexNumeral n) := by
  unfold hexNumeral
  split
  . exact Numeral.oneLine_decimal n
  . exact Numeral.oneLine_hex n

end Fields

theorem Format.oneLine_letter (format : Format) : Text.OneLine format.letter := by
  cases format <;> decide

theorem Operand.Kind.oneLine_text (kind : Operand.Kind) (value : Nat) :
    Text.OneLine (kind.text value) := by
  intro c hmem
  have hadmits := admits_of_mem_text hmem
  constructor
  all_goals
    rintro rfl
    contradiction

theorem Pattern.oneLine_operands (pattern : Pattern) (fields : Fields) :
    ∀ operand ∈ pattern.operands fields, Text.OneLine operand := by
  have hopening : Text.OneLine "(" := by decide
  have hclosing : Text.OneLine ")" := by decide
  cases pattern with
  | bare => simp [operands]
  | list operands => simp [Pattern.operands, Operand.render, Operand.Kind.oneLine_text]
  | address register offset base =>
    simp [operands, Operand.render, Operand.Kind.oneLine_text, hopening, hclosing]

theorem Mnemonic.oneLine_text {mnemonic : Mnemonic} (hname : Text.OneLine mnemonic.name)
    (hoperands : ∀ operand ∈ mnemonic.operands, Text.OneLine operand) :
    Text.OneLine mnemonic.text := by
  unfold text
  split
  . exact hname
  . have hblank : Text.OneLine " " := by decide
    have hcomma : Text.OneLine ", " := by decide
    simp [hname, hblank, Text.oneLine_intercalate hcomma hoperands]

theorem Disassembly.oneLine_text {disassembly : Disassembly}
    (h : Text.OneLine disassembly.mnemonic.text) : Text.OneLine disassembly.text := by
  unfold text
  apply Text.oneLine_intercalate (by decide)
  simp only [List.forall_mem_cons]
  refine ⟨Numeral.oneLine_hex8 _, Format.oneLine_letter _, ?_, ?_, h, by simp⟩
  . exact Fields.oneLine_bracketed Numeral.oneLine_decimal _
  . exact Fields.oneLine_bracketed Fields.oneLine_hexNumeral _

theorem Unknown.oneLine_text (unknown : Unknown) : Text.OneLine unknown.text := by
  have hunknown : Text.OneLine "unknown instruction: " := by decide
  have hformat : Text.OneLine "no format matches opcode=" := by decide
  have hinstruction : Text.OneLine "no instruction matches " := by decide
  unfold text reason
  split
  . simp [hunknown, hformat]
  . simp [hunknown, hinstruction, Key.oneLine_text]

namespace InstructionSet

/-- No instruction of the set has a name that breaks the line, and neither has an alias. -/
def NamesOneLine (set : InstructionSet) : Prop :=
  ∀ instruction ∈ set.instructions, Text.OneLine instruction.name
    ∧ ∀ shown ∈ instruction.aliases, Text.OneLine shown.name

theorem namesOneLine_release2 : release2.NamesOneLine := by
  unfold NamesOneLine
  decide +kernel

variable {set : InstructionSet}

theorem NamesOneLine.canonical (hnames : set.NamesOneLine) {instruction : Instruction}
    (hmem : instruction ∈ set.instructions) (fields : Fields) :
    Text.OneLine (instruction.canonical fields).text := by
  apply Mnemonic.oneLine_text
  . exact (hnames instruction hmem).1
  . exact instruction.pattern.oneLine_operands fields

theorem NamesOneLine.render (hnames : set.NamesOneLine) {instruction : Instruction}
    (hmem : instruction ∈ set.instructions) (fields : Fields) :
    Text.OneLine (instruction.render fields).text := by
  unfold Instruction.render
  split
  . next shown hfind =>
    apply Mnemonic.oneLine_text
    . exact (hnames instruction hmem).2 shown (List.mem_of_find?_eq_some hfind)
    . exact shown.pattern.oneLine_operands fields
  . exact hnames.canonical hmem fields

theorem NamesOneLine.decode (hnames : set.NamesOneLine) (word : Word) :
    Text.OneLine (set.decode word).text := by
  have hviolations : Text.OneLine " violations: " := by decide
  obtain ⟨_, _, h⟩ | ⟨_, _, _, h⟩ | ⟨_, hidentify, _, h⟩ | ⟨_, hidentify, _, h⟩ :=
    set.decode_cases word
  all_goals
    rw [h]
    unfold Decoding.text
  . exact Unknown.oneLine_text _
  . exact Unknown.oneLine_text _
  . exact Disassembly.oneLine_text (hnames.render (mem_of_identify? hidentify) _)
  . rw [Text.oneLine_append, Text.oneLine_append]
    refine ⟨⟨?_, hviolations⟩, Violation.oneLine_listText _⟩
    exact Disassembly.oneLine_text (hnames.canonical (mem_of_identify? hidentify) _)

end InstructionSet

theorem Line.oneLine_row_entry {set : InstructionSet} (hnames : set.NamesOneLine) (line : Line) :
    Text.OneLine (line.entry set).row := by
  have hblank : Text.OneLine " " := by decide
  have hinvalid : Text.OneLine "invalid input: " := by decide
  unfold Entry.row entry
  cases Word.read line.text with
  | error e => simp [Except.map, hblank, hinvalid]
  | ok word =>
    have hdecode := hnames.decode word
    dsimp only [Except.map]
    split
    . simp [hblank, Unknown.oneLine_text]
    . next h =>
      rw [Except.ok.injEq] at h
      rw [h] at hdecode
      simp [hblank, hdecode]
    . next h => contradiction

end Mips32
