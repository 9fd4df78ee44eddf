import Mips32.Proofs.Numeral
import Mips32.Text

/-!
This module contains the verification of quoted texts. `Text.unescape?` reads one character off the front
of what stands between quotation marks. It gets back every character that was written there, so different
texts have different quotations.
-/

namespace Mips32

namespace Text

def escaped? : List Char → Option (Char × List Char)
  | [] => none
  | 'n' :: rest => some ('\n', rest)
  | 'r' :: rest => some ('\r', rest)
  | 't' :: rest => some ('\t', rest)
  | '0' :: rest => some ('\x00', rest)
  | 'u' :: '\x7b' :: rest =>
    match Numeral.read 16 0x10ffff (rest.takeWhile (· ≠ '\x7d')) with
    | .ok n => some (Char.ofNat n, (rest.dropWhile (· ≠ '\x7d')).drop 1)
    | .error _ => none
  | c :: rest => some (c, rest)

def unescape? : List Char → Option (Char × List Char)
  | [] => none
  | c :: rest => if c = '\\' then escaped? rest else some (c, rest)

theorem toNat_le (c : Char) : c.toNat ≤ 0x10ffff := by
  have hvalid := c.valid
  unfold UInt32.isValidChar Nat.isValidChar at hvalid
  unfold Char.toNat
  omega

theorem escaped?_digits (c : Char) (rest : List Char) :
    escaped? (['u', '\x7b'] ++ Nat.toDigits 16 c.toNat ++ ['\x7d'] ++ rest) = some (c, rest) := by
  have hdigits : ∀ digit ∈ Nat.toDigits 16 c.toNat, decide (digit ≠ '\x7d') = true := by
    intro digit hmem
    have halphanum := Numeral.isAlphanum_of_mem_toDigits (by omega) (by omega) hmem
    rw [decide_eq_true_eq]
    rintro rfl
    contradiction
  have hread : Numeral.read 16 0x10ffff (Nat.toDigits 16 c.toNat) = .ok c.toNat :=
    Numeral.read_toDigits (by omega) (by omega) (toNat_le c)
  simp only [List.cons_append, List.nil_append, List.append_assoc, escaped?]
  rw [List.takeWhile_append_of_pos hdigits, List.dropWhile_append_of_pos hdigits]
  simp [hread]

theorem unescape?_escape (c : Char) (rest : List Char) :
    unescape? (escape c ++ rest) = some (c, rest) := by
  by_cases hquote : c = '"'
  . subst hquote
    rfl
  by_cases hbackslash : c = '\\'
  . subst hbackslash
    rfl
  by_cases hfeed : c = '\n'
  . subst hfeed
    rfl
  by_cases hreturn : c = '\r'
  . subst hreturn
    rfl
  by_cases htab : c = '\t'
  . subst htab
    rfl
  by_cases hnull : c = '\x00'
  . subst hnull
    rfl
  unfold escape
  rw [if_neg hquote, if_neg hbackslash, if_neg hfeed, if_neg hreturn, if_neg htab, if_neg hnull]
  split
  . exact escaped?_digits c rest
  . exact if_neg hbackslash

theorem flatMap_escape_injective {text₁ text₂ : List Char}
    (h : text₁.flatMap escape = text₂.flatMap escape) : text₁ = text₂ := by
  induction text₁ generalizing text₂ with
  | nil =>
    cases text₂ with
    | nil => rfl
    | cons c rest₂ =>
      have hread := unescape?_escape c (rest₂.flatMap escape)
      rw [← List.flatMap_cons, ← h] at hread
      contradiction
  | cons c₁ rest₁ ih =>
    have hread₁ := unescape?_escape c₁ (rest₁.flatMap escape)
    rw [← List.flatMap_cons, h] at hread₁
    cases text₂ with
    | nil => contradiction
    | cons c₂ rest₂ =>
      have hread₂ := unescape?_escape c₂ (rest₂.flatMap escape)
      rw [← List.flatMap_cons, hread₁, Option.some.injEq, Prod.mk.injEq] at hread₂
      rw [hread₂.1, ih hread₂.2]

theorem toList_quote (text : String) :
    (quote text).toList = '"' :: (text.toList.flatMap escape ++ ['"']) := by
  unfold quote
  simp only [String.toList_append, String.toList_ofList]
  rfl

theorem quote_injective {text₁ text₂ : String} (h : quote text₁ = quote text₂) : text₁ = text₂ := by
  have hlist := congrArg String.toList h
  rw [toList_quote, toList_quote, List.cons.injEq, List.append_cancel_right_eq] at hlist
  exact String.toList_injective (flatMap_escape_injective hlist.2)

end Text

end Mips32
