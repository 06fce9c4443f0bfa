import Mathlib.Data.List.Basic
import TickScript.Json.Draft
import TickScript.Json.Printer

/-!
# Texts and numbers that are read as they were written

Between quotes every character is read as it was written, escaped or not (`scanChars_quoted`). A
number that is written as an integer of 64 bits is read as this integer, as long as nothing follows
that could belong to it (`scanNumber_render`).
-/

namespace TickScript.Json

open TickScript.Text (escapeChar hexDigit)

/-! ## Texts -/

/-- A text that was read without a fault. -/
def Scan.ofText (text : String) : Scan := ⟨.ok text, .ok ()⟩

/-- A character that needs no escape stands for itself. -/
theorem scanChars_of_plain {c : Char} (hquote : c ≠ '"') (hslash : c ≠ '\\')
    (hcontrol : 32 ≤ c.toNat) (seen rest : List Char) :
    scanChars {} seen (c :: rest) = scanChars {} (c :: seen) rest := by
  rw [scanChars]
  · rw [if_neg (Nat.not_lt.2 hcontrol)]
    rfl
  all_goals simp_all

/-- A control character is read from its number. -/
theorem scanChars_of_control {c : Char} (hcontrol : c.toNat < 32) (seen rest : List Char) :
    scanChars {} seen ('\\' :: 'u' :: '0' :: '0' :: hexDigit (c.toNat / 16) ::
      hexDigit (c.toNat % 16) :: rest) = scanChars {} (c :: seen) rest := by
  have hquad : ∀ n < 32,
      hexQuad? '0' '0' (hexDigit (n / 16)) (hexDigit (n % 16)) = some n := by decide
  have hunit : ({} : Pending).addUnit c.toNat = ([c], {}) := by
    unfold Pending.addUnit
    dsimp only
    rw [if_neg (by omega), if_neg (by omega), Char.ofNat_toNat]
  rw [scanChars, hquad _ hcontrol]
  simp only [hunit, List.singleton_append]

/-- A character is read from what is written for it. -/
theorem scanChars_escapeChar (c : Char) (seen rest : List Char) :
    scanChars {} seen (escapeChar c ++ rest) = scanChars {} (c :: seen) rest := by
  have hbackspace : c.toNat = 8 → Char.ofNat 8 = c := fun h => by rw [← h, Char.ofNat_toNat]
  have hfeed : c.toNat = 12 → Char.ofNat 12 = c := fun h => by rw [← h, Char.ofNat_toNat]
  unfold escapeChar
  split_ifs with hquote hslash hline hreturn htab hbs hff hcontrol
  · subst hquote; rfl
  · subst hslash; rfl
  · subst hline; rfl
  · subst hreturn; rfl
  · subst htab; rfl
  · rw [← hbackspace hbs]; rfl
  · rw [← hfeed hff]; rfl
  · exact scanChars_of_control hcontrol seen rest
  · exact scanChars_of_plain hquote hslash (Nat.not_lt.1 hcontrol) seen rest

/-- The text between quotes is read as it was written. -/
theorem scanChars_quoted (text seen rest : List Char) :
    scanChars {} seen (text.flatMap escapeChar ++ '"' :: rest) =
      (.ofText (String.ofList (seen.reverse ++ text)), some rest) := by
  induction text generalizing seen with
  | nil =>
      rw [List.append_nil]
      rfl
  | cons c text ih =>
      rw [List.flatMap_cons, List.append_assoc, scanChars_escapeChar, ih]
      simp

/-! ## Numbers -/

/-- What follows a value of a text is nothing, a comma or the end of a line. -/
def Follows (rest : List Char) : Prop := ∀ c ∈ rest.head?, c = ',' ∨ c = '\n'

theorem Follows.takeWhile_isDigit {rest : List Char} (h : Follows rest) :
    rest.takeWhile Char.isDigit = [] := by
  cases rest with
  | nil => rfl
  | cons c rest => rcases h c rfl with rfl | rfl <;> rfl

theorem Follows.dropWhile_isDigit {rest : List Char} (h : Follows rest) :
    rest.dropWhile Char.isDigit = rest := by
  cases rest with
  | nil => rfl
  | cons c rest => rcases h c rfl with rfl | rfl <;> rfl

/-- A number that is written as an integer of 64 bits, with or without a sign. A zero with a sign is
one, too. -/
def Number.isWhole : Number → Bool
  | .integer value => -9223372036854775808 ≤ value && value ≤ 18446744073709551615
  | .float value => value == Binary64.zero.neg

namespace Numeral

theorem digitsValue_toDigits (n : Nat) : digitsValue (Nat.toDigits 10 n) = n := by
  have h := @Nat.ofDigitChars_ten_toDigits n
  simpa [digitsValue, digitValue, Nat.ofDigitChars, Nat.mul_comm] using h

/-- Only the digits of zero begin with a zero. -/
theorem head?_toDigits {n : Nat} (h : 0 < n) : (Nat.toDigits 10 n).head? ≠ some '0' := by
  induction n using Nat.strongRecOn with
  | ind n ih =>
      rw [Nat.toDigits_eq_if (by decide)]
      split
      · next hn =>
        have hdigit : ∀ n < 10, 0 < n → [n.digitChar].head? ≠ some '0' := by decide
        exact hdigit n hn h
      · rw [List.head?_append_of_ne_nil _ Nat.toDigits_ne_nil]
        exact ih (n / 10) (by omega) (by omega)

/-- A numeral ends where nothing follows that could belong to it. -/
theorem scanExponent_of_follows {rest : List Char} (h : Follows rest) (numeral : Numeral) :
    scanExponent numeral rest = .ok (numeral, rest) := by
  cases rest with
  | nil => rfl
  | cons c rest =>
      have hc : ¬ (c = 'e' ∨ c = 'E') := by
        rcases h c rfl with rfl | rfl <;> decide
      exact if_neg hc

theorem scanFraction_of_follows {rest : List Char} (h : Follows rest) (numeral : Numeral) :
    scanFraction numeral rest = .ok (numeral, rest) := by
  unfold scanFraction
  split
  · next rest =>
    rcases h '.' rfl with hpoint | hpoint
    · exact absurd hpoint (by decide)
    · exact absurd hpoint (by decide)
  · exact scanExponent_of_follows h numeral

/-- The digits of a number are read as they were written. -/
theorem scanWhole_toDigits {rest : List Char} (h : Follows rest) (negative : Bool) (n : Nat) :
    scanWhole negative (Nat.toDigits 10 n ++ rest) =
      .ok (⟨negative, Nat.toDigits 10 n, [], none⟩, rest) := by
  have hdigits : ∀ c ∈ Nat.toDigits 10 n, c.isDigit = true := fun c =>
    Nat.isDigit_of_mem_toDigits (by decide) (by decide)
  unfold scanWhole
  rw [List.takeWhile_append_of_pos hdigits, List.dropWhile_append_of_pos hdigits,
    h.takeWhile_isDigit, h.dropWhile_isDigit, List.append_nil]
  split
  · next hnil => exact absurd hnil Nat.toDigits_ne_nil
  · next hzero =>
    -- A zero in front of further digits would be the digits of zero, of which there is one.
    have hn : n = 0 := by
      by_contra hn
      exact head?_toDigits (Nat.pos_of_ne_zero hn) (by rw [hzero]; rfl)
    subst hn
    cases hzero
  · exact scanFraction_of_follows h _

/-- A numeral without a sign begins with a digit. -/
theorem scan_toDigits (n : Nat) (rest : List Char) :
    scan (Nat.toDigits 10 n ++ rest) = scanWhole false (Nat.toDigits 10 n ++ rest) := by
  unfold scan
  split
  · next tail hsign =>
    have hmem : '-' ∈ Nat.toDigits 10 n := by
      obtain ⟨hnil, -⟩ | ⟨digits, hdigits, -⟩ := List.append_eq_cons_iff.1 hsign
      · exact absurd hnil Nat.toDigits_ne_nil
      · simp [hdigits]
    exact absurd (Nat.isDigit_of_mem_toDigits (by decide) (by decide) hmem) (by decide)
  · rfl

theorem value_integer {n : Nat} (h : n < 18446744073709551616) :
    value ⟨false, Nat.toDigits 10 n, [], none⟩ = .ok (.integer n) := by
  simp only [value, digitsValue_toDigits]
  exact if_pos (by simpa using h)

theorem value_negative {n : Nat} (hpos : 0 < n) (h : n ≤ 9223372036854775808) :
    value ⟨true, Nat.toDigits 10 n, [], none⟩ = .ok (.integer (-n)) := by
  simp only [value, digitsValue_toDigits]
  rw [if_neg (by simp), if_pos (by simpa [hpos] using h)]

/-- A zero with a sign is written with a fraction, which tells it from the integer. -/
theorem scan_negativeZero {rest : List Char} (h : Follows rest) :
    scan ('-' :: '0' :: '.' :: '0' :: rest) = .ok (⟨true, ['0'], ['0'], none⟩, rest) := by
  simp [scan, scanWhole, scanFraction, h.takeWhile_isDigit, h.dropWhile_isDigit,
    scanExponent_of_follows h]

theorem value_negativeZero : value ⟨true, ['0'], ['0'], none⟩ = .ok (.float Binary64.zero.neg) := by
  have h : (value ⟨true, ['0'], ['0'], none⟩).toOption = some (.float Binary64.zero.neg) := by
    decide +kernel
  cases hvalue : value ⟨true, ['0'], ['0'], none⟩ with
  | ok number =>
      rw [hvalue] at h
      exact congrArg Except.ok (Option.some.inj h)
  | error overflow =>
      rw [hvalue] at h
      cases h

end Numeral

theorem scanNumber_of_scan {chars rest : List Char} {numeral : Numeral} {number : Number}
    (hscan : Numeral.scan chars = .ok (numeral, rest)) (hvalue : numeral.value = .ok number) :
    scanNumber chars = (.number (.ok number), some rest) := by
  rw [scanNumber, hscan]
  dsimp only
  rw [hvalue]
  rfl

/-- A whole number is read as it was written. -/
theorem scanNumber_render {number : Number} (hnumber : number.isWhole = true) {rest : List Char}
    (hrest : Follows rest) :
    scanNumber (number.render.toList ++ rest) = (.number (.ok number), some rest) := by
  cases number with
  | float value =>
      obtain rfl : value = Binary64.zero.neg := by simpa [Number.isWhole] using hnumber
      have htext : (Number.float Binary64.zero.neg).render.toList = ['-', '0', '.', '0'] := by
        decide +kernel
      rw [htext]
      exact scanNumber_of_scan (Numeral.scan_negativeZero hrest) Numeral.value_negativeZero
  | integer value =>
      simp only [Number.isWhole, Bool.and_eq_true, decide_eq_true_eq] at hnumber
      rw [Number.render, String.toList_append, Nat.toList_repr]
      by_cases hsign : value < 0
      · have hvalue : value = -(value.natAbs : Int) := by omega
        rw [if_pos hsign]
        refine scanNumber_of_scan (Numeral.scanWhole_toDigits hrest true value.natAbs) ?_
        rw [Numeral.value_negative (by omega) (by omega), ← hvalue]
      · have hvalue : value = (value.natAbs : Int) := by omega
        have hscan := Numeral.scanWhole_toDigits hrest false value.natAbs
        rw [← Numeral.scan_toDigits] at hscan
        rw [if_neg hsign]
        refine scanNumber_of_scan hscan ?_
        rw [Numeral.value_integer (by omega), ← hvalue]

end TickScript.Json
