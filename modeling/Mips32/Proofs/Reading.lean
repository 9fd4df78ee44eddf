import Mips32.Proofs.Literal

/-!
This module contains the verification that words are read from text. What is accepted, and as which word, follows
the grammar exactly, whatever blanks are around it. What is refused is not always called by its right name, for
reading stops as soon as the digits in front are too large for a word.
-/

namespace Mips32

namespace Word

variable {value : Int} {word : Word}

section

variable {text input : String} {e : ReadError}

theorem read_eq_ok_iff_readNumber :
    read text = .ok word ↔ readNumber (Text.trim text).toList = .ok word := by
  have hempty : readNumber [] = .error .malformed := rfl
  unfold read
  dsimp only
  split
  . next htrim => simp [htrim, hempty]
  . cases readNumber (Text.trim text).toList with
    | ok word => simp [Except.mapError]
    | error fault => simp [Except.mapError]

theorem read_eq_error_iff_readNumber :
    read text = .error e ↔
      Text.trim text = "" ∧ e = .empty
        ∨ Text.trim text ≠ "" ∧ ∃ fault, readNumber (Text.trim text).toList = .error fault
            ∧ e = .ofFault (Text.trim text) fault := by
  unfold read
  dsimp only
  split
  . next htrim => simp [htrim, eq_comm]
  . next htrim =>
    cases readNumber (Text.trim text).toList with
    | ok word => simp [Except.mapError, htrim]
    | error fault => simp [Except.mapError, htrim, eq_comm]

theorem read_eq_ok_iff_literal :
    read text = .ok word ↔
      ∃ value, Literal (Text.trim text).toList value ∧ Fits value ∧ word = BitVec.ofInt 32 value := by
  rw [read_eq_ok_iff_readNumber, readNumber_eq_ok_iff]

theorem read_eq_empty_iff : read text = .error .empty ↔ Text.trim text = "" := by
  rw [read_eq_error_iff_readNumber]
  constructor
  . rintro (⟨htrim, _⟩ | ⟨_, fault, _, hfault⟩)
    . exact htrim
    . cases fault with
      | malformed => cases hfault
      | tooLarge => cases hfault
  . intro htrim
    exact .inl ⟨htrim, rfl⟩

theorem read_eq_outOfRange_iff :
    read text = .error (.outOfRange input) ↔
      input = Text.trim text ∧ Overflows (Text.trim text).toList := by
  rw [read_eq_error_iff_readNumber, ← readNumber_eq_tooLarge_iff]
  constructor
  . rintro (⟨_, hempty⟩ | ⟨_, fault, hread, hfault⟩)
    . cases hempty
    . cases fault with
      | malformed => cases hfault
      | tooLarge =>
        rw [ReadError.ofFault, ReadError.outOfRange.injEq] at hfault
        exact ⟨hfault, hread⟩
  . rintro ⟨rfl, hread⟩
    refine .inr ⟨?_, _, hread, rfl⟩
    intro htrim
    rw [htrim] at hread
    cases hread

theorem read_eq_malformed_iff :
    read text = .error (.malformed input) ↔
      input = Text.trim text ∧ Text.trim text ≠ ""
        ∧ (∀ value, ¬Literal (Text.trim text).toList value)
        ∧ ¬Overflows (Text.trim text).toList := by
  rw [read_eq_error_iff_readNumber, ← readNumber_eq_malformed_iff]
  constructor
  . rintro (⟨_, hempty⟩ | ⟨htrim, fault, hread, hfault⟩)
    . cases hempty
    . cases fault with
      | malformed =>
        rw [ReadError.ofFault, ReadError.malformed.injEq] at hfault
        exact ⟨hfault, htrim, hread⟩
      | tooLarge => cases hfault
  . rintro ⟨rfl, htrim, hread⟩
    exact .inr ⟨htrim, _, hread, rfl⟩

theorem eq_of_read_eq_error (h : read text = .error e) :
    e = .empty ∨ e = .malformed (Text.trim text) ∨ e = .outOfRange (Text.trim text) := by
  obtain ⟨_, rfl⟩ | ⟨_, fault, _, rfl⟩ := read_eq_error_iff_readNumber.1 h
  . exact .inl rfl
  . cases fault with
    | malformed => exact .inr (.inl rfl)
    | tooLarge => exact .inr (.inr rfl)

end

section

variable {text before after spelling : String}

theorem read_surrounded (hbefore : Text.AllBlank before) (hafter : Text.AllBlank after)
    (hliteral : Literal text.toList value) (hfits : Fits value) :
    read (before ++ text ++ after) = .ok (BitVec.ofInt 32 value) := by
  have htrimmed : Text.Trimmed text := Text.trimmed_of_forall_not_blank fun c hmem =>
    hliteral.isBlank_eq_false_of_mem hmem
  rw [read_eq_ok_iff_literal, Text.trim_surrounded hbefore hafter htrimmed]
  exact ⟨value, hliteral, hfits, rfl⟩

/--
A text is read as a word exactly if it is a literal, with blanks around it, of a number that fits, and then the
word is that number modulo its size. Of the others, the empty text has an error of its own, and the rest are
named in their error. Whatever way a word is written, it is read back.
-/
theorem read_literals :
    (∀ text word, read text = .ok word ↔
        ∃ value, Literal (Text.trim text).toList value ∧ Fits value
          ∧ (word.toNat : Int) = value % 2 ^ 32)
      ∧ (∀ text, read text = .error .empty ↔ Text.trim text = "")
      ∧ (∀ text e, read text = .error e →
          e = .empty ∨ e = .malformed (Text.trim text) ∨ e = .outOfRange (Text.trim text))
      ∧ ∀ (word : Word) (zeros : Nat) (before after : String),
          Text.AllBlank before → Text.AllBlank after →
            ∀ spelling ∈ word.spellings zeros, read (before ++ spelling ++ after) = .ok word := by
  refine ⟨?_, fun _ => read_eq_empty_iff, fun _ _ => eq_of_read_eq_error, ?_⟩
  . intro text word
    simp only [read_eq_ok_iff_literal, eq_ofInt_iff]
  . intro word zeros before after hbefore hafter spelling hmem
    obtain ⟨value, hliteral, hfits, hword⟩ := literal_of_mem_spellings hmem
    rw [read_surrounded hbefore hafter hliteral hfits, ← hword]

/-- The least signed word, with blanks around it and zeros in front of its digits. -/
theorem read_literals_least :
    Text.AllBlank "\u2003" ∧ Text.AllBlank "\r\n"
      ∧ "-002147483648" ∈ spellings 0x80000000 2
      ∧ read ("\u2003" ++ "-002147483648" ++ "\r\n") = .ok 0x80000000 := by
  have hbefore : Text.AllBlank "\u2003" := by decide
  have hafter : Text.AllBlank "\r\n" := by decide
  have hmem : "-002147483648" ∈ spellings 0x80000000 2 := by decide
  obtain ⟨_, _, _, hread⟩ := read_literals
  exact ⟨hbefore, hafter, hmem, hread _ _ _ _ hbefore hafter _ hmem⟩

end

/-- The kind of an error tells what is wrong with a text: whether it is a number, or just one that does not fit. -/
structure ReadError.Tells (e : ReadError) (text : List Char) : Prop where
  outOfRange_iff : (∃ input, e = .outOfRange input) ↔ ∃ value, Literal text value ∧ ¬Fits value
  malformed_iff : (∃ input, e = .malformed input) ↔ ∀ value, ¬Literal text value

theorem ReadError.tells_outOfRange_iff {input : String} :
    Tells (.outOfRange input) text ↔ ∃ value, Literal text value ∧ ¬Fits value := by
  constructor
  . intro h
    exact h.outOfRange_iff.1 ⟨input, rfl⟩
  . rintro ⟨value, hliteral, hfits⟩
    constructor
    . exact ⟨fun _ => ⟨value, hliteral, hfits⟩, fun _ => ⟨input, rfl⟩⟩
    . constructor
      . rintro ⟨_, h⟩
        contradiction
      . intro h
        exact absurd hliteral (h value)

theorem ReadError.tells_malformed_iff {input : String} :
    Tells (.malformed input) text ↔ ∀ value, ¬Literal text value := by
  constructor
  . intro h
    exact h.malformed_iff.1 ⟨input, rfl⟩
  . intro hliteral
    constructor
    . constructor
      . rintro ⟨_, h⟩
        contradiction
      . rintro ⟨value, h, _⟩
        exact absurd h (hliteral value)
    . exact ⟨fun _ => hliteral, fun _ => ⟨input, rfl⟩⟩

section

variable {text : String} {e : ReadError}

theorem not_fits_of_read_eq_error (h : read text = .error e)
    (hliteral : Literal (Text.trim text).toList value) : ¬Fits value := by
  intro hfits
  have hok := read_eq_ok_iff_literal.2 ⟨value, hliteral, hfits, rfl⟩
  rw [h] at hok
  cases hok

theorem tells_iff_of_read_eq_error (hne : Text.trim text ≠ "") (h : read text = .error e) :
    e.Tells (Text.trim text).toList ↔
      (Overflows (Text.trim text).toList → ∃ value, Literal (Text.trim text).toList value) := by
  obtain rfl | rfl | rfl := eq_of_read_eq_error h
  . exact absurd (read_eq_empty_iff.1 h) hne
  . obtain ⟨_, _, hliteral, hoverflows⟩ := read_eq_malformed_iff.1 h
    rw [ReadError.tells_malformed_iff]
    exact ⟨fun _ hoverflow => absurd hoverflow hoverflows, fun _ => hliteral⟩
  . obtain ⟨_, hoverflow⟩ := read_eq_outOfRange_iff.1 h
    rw [ReadError.tells_outOfRange_iff]
    constructor
    . rintro ⟨value, hliteral, _⟩ _
      exact ⟨value, hliteral⟩
    . intro hexists
      obtain ⟨value, hliteral⟩ := hexists hoverflow
      exact ⟨value, hliteral, not_fits_of_read_eq_error h hliteral⟩

/--
A text is called too large if some initial part of it is, and malformed if it is no number and no initial part of
it is too large. So the error is wrong about the texts that are no number but start with one that is too large,
and about no others.
-/
theorem read_misleads_iff (text : String) :
    (∀ input, read text = .error (.outOfRange input) ↔
        input = Text.trim text ∧ Overflows (Text.trim text).toList)
      ∧ (∀ input, read text = .error (.malformed input) ↔
          input = Text.trim text ∧ Text.trim text ≠ ""
            ∧ (∀ value, ¬Literal (Text.trim text).toList value)
            ∧ ¬Overflows (Text.trim text).toList)
      ∧ ((∃ e, read text = .error e ∧ Text.trim text ≠ "" ∧ ¬e.Tells (Text.trim text).toList) ↔
          Overflows (Text.trim text).toList ∧ ∀ value, ¬Literal (Text.trim text).toList value) := by
  refine ⟨fun _ => read_eq_outOfRange_iff, fun _ => read_eq_malformed_iff, ?_⟩
  constructor
  . rintro ⟨e, h, hne, htells⟩
    rwa [tells_iff_of_read_eq_error hne h, Classical.not_imp, not_exists] at htells
  . intro hmisleads
    have h : read text = .error (.outOfRange (Text.trim text)) :=
      read_eq_outOfRange_iff.2 ⟨rfl, hmisleads.1⟩
    have hne : Text.trim text ≠ "" := by
      intro hempty
      rw [read_eq_empty_iff.2 hempty] at h
      cases h
    refine ⟨_, h, hne, ?_⟩
    rwa [tells_iff_of_read_eq_error hne h, Classical.not_imp, not_exists]

end

/-- The letter at the end goes unseen, because the digits in front of it are too large. -/
theorem read_misleads_trailing_letter :
    Text.trim "42949672959x" = "42949672959x"
      ∧ read "42949672959x" = .error (.outOfRange "42949672959x")
      ∧ (∀ value, ¬Literal "42949672959x".toList value)
      ∧ ¬(ReadError.outOfRange "42949672959x").Tells "42949672959x".toList := by
  have hunmarked : Unmarked "42949672959x".toList := ⟨by simp, by simp⟩
  have hmem : 'x' ∈ "42949672959x".toList := by decide
  have hliteral : ∀ value, ¬Literal "42949672959x".toList value := fun _ =>
    hunmarked.not_literal hmem (by decide) (by decide)
  refine ⟨by decide, rfl, hliteral, ?_⟩
  rw [ReadError.tells_outOfRange_iff]
  rintro ⟨value, h, _⟩
  exact hliteral value h

end Word

end Mips32
