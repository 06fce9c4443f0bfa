import Mathlib.Tactic.SplitIfs
import TickScript.Text.Utf8

/-!
# Texts from their bytes

A character has one to four bytes, and the first of them tells how many. `Spells` says that bytes are
those of a character, whatever comes behind them; `encodeChar_spells` proves it of the bytes that are
written. So `decodeText_encodeText` reads a text back character by character.
-/

namespace TickScript.Text

/-! ## Bytes of a character -/

theorem toNat_byte {n : Nat} (h : n < 256) : (byte n).toNat = n := by
  unfold byte
  rw [UInt8.toNat_ofNat']
  omega

theorem isContinuation_byte {n : Nat} (h : n < 64) : isContinuation (byte (0x80 + n)) = true := by
  unfold isContinuation
  rw [toNat_byte (by omega)]
  simp
  omega

theorem continuationBits_byte {n : Nat} (h : n < 64) : continuationBits (byte (0x80 + n)) = n := by
  unfold continuationBits
  rw [toNat_byte (by omega)]
  omega

/-- A second byte is in the range that the first one sets. -/
def Admits (first second : Nat) : Prop :=
  (secondByteRange first).1 ≤ second ∧ second ≤ (secondByteRange first).2

section Tail

variable {first : Nat} {second third fourth : UInt8} {more : List UInt8}

theorem checkTail_one (hwidth : charWidth first = 1) : checkTail first more = .ok () := by
  cases more <;> simp [checkTail, hwidth]

theorem checkTail_two (hwidth : charWidth first = 2) (hsecond : Admits first second.toNat) :
    checkTail first (second :: more) = .ok () := by
  obtain ⟨hlow, hhigh⟩ := hsecond
  simp [checkTail, hwidth, Nat.not_lt.2 hlow, Nat.not_lt.2 hhigh]

theorem checkTail_three (hwidth : charWidth first = 3) (hsecond : Admits first second.toNat)
    (hthird : isContinuation third = true) :
    checkTail first (second :: third :: more) = .ok () := by
  obtain ⟨hlow, hhigh⟩ := hsecond
  simp [checkTail, hwidth, Nat.not_lt.2 hlow, Nat.not_lt.2 hhigh, hthird]

theorem checkTail_four (hwidth : charWidth first = 4) (hsecond : Admits first second.toNat)
    (hthird : isContinuation third = true) (hfourth : isContinuation fourth = true) :
    checkTail first (second :: third :: fourth :: more) = .ok () := by
  obtain ⟨hlow, hhigh⟩ := hsecond
  simp [checkTail, hwidth, Nat.not_lt.2 hlow, Nat.not_lt.2 hhigh, hthird, hfourth]

end Tail

/-- Bytes are those of a character: the first one tells how many they are, the others pass the check
whatever comes behind them, and together they give the character. -/
structure Spells (bytes : List UInt8) (c : Char) : Prop where
  checked : ∃ first tail, bytes = first :: tail ∧ charWidth first.toNat = bytes.length ∧
    ∀ rest, checkTail first.toNat (tail ++ rest) = .ok ()
  joined : joinBytes bytes = c

section Widths

variable {code : Nat}

theorem spells_one (h : code < 0x80) : Spells [byte code] (Char.ofNat code) := by
  have hfirst : (byte code).toNat = code := toNat_byte (by omega)
  have hwidth : charWidth code = 1 := if_pos h
  refine ⟨⟨_, [], rfl, by rw [hfirst, hwidth]; rfl, fun rest => ?_⟩, ?_⟩
  · rw [hfirst]
    exact checkTail_one hwidth
  · rw [joinBytes, hfirst]

theorem spells_two (hlow : 0x80 ≤ code) (hhigh : code < 0x800) :
    Spells [byte (0xC0 + code / 64), byte (0x80 + code % 64)] (Char.ofNat code) := by
  have hfirst : (byte (0xC0 + code / 64)).toNat = 0xC0 + code / 64 := toNat_byte (by omega)
  have hsecond : (byte (0x80 + code % 64)).toNat = 0x80 + code % 64 := toNat_byte (by omega)
  have hwidth : charWidth (0xC0 + code / 64) = 2 := by
    rw [charWidth, if_neg (by omega), if_pos (by omega)]
  refine ⟨⟨_, _, rfl, by rw [hfirst, hwidth]; rfl, fun rest => ?_⟩, ?_⟩
  · rw [hfirst]
    refine checkTail_two hwidth ?_
    rw [hsecond]
    unfold Admits secondByteRange
    split_ifs <;> dsimp only <;> omega
  · rw [joinBytes, hfirst, continuationBits_byte (by omega)]
    congr 1
    omega

theorem spells_three (hlow : 0x800 ≤ code) (hhigh : code < 0x10000)
    (hvalid : code < 0xD800 ∨ 0xDFFF < code) :
    Spells [byte (0xE0 + code / 4096), byte (0x80 + code / 64 % 64), byte (0x80 + code % 64)]
      (Char.ofNat code) := by
  have hfirst : (byte (0xE0 + code / 4096)).toNat = 0xE0 + code / 4096 := toNat_byte (by omega)
  have hsecond : (byte (0x80 + code / 64 % 64)).toNat = 0x80 + code / 64 % 64 :=
    toNat_byte (by omega)
  have hwidth : charWidth (0xE0 + code / 4096) = 3 := by
    rw [charWidth, if_neg (by omega), if_neg (by omega), if_pos (by omega)]
  refine ⟨⟨_, _, rfl, by rw [hfirst, hwidth]; rfl, fun rest => ?_⟩, ?_⟩
  · rw [hfirst]
    refine checkTail_three hwidth ?_ (isContinuation_byte (by omega))
    rw [hsecond]
    -- Behind 0xE0 smaller codes would do with two bytes, and behind 0xED larger ones are surrogates.
    unfold Admits secondByteRange
    split_ifs <;> dsimp only <;> omega
  · rw [joinBytes, hfirst, continuationBits_byte (by omega), continuationBits_byte (by omega)]
    congr 1
    omega

theorem spells_four (hlow : 0x10000 ≤ code) (hhigh : code < 0x110000) :
    Spells [byte (0xF0 + code / 262144), byte (0x80 + code / 4096 % 64),
      byte (0x80 + code / 64 % 64), byte (0x80 + code % 64)] (Char.ofNat code) := by
  have hfirst : (byte (0xF0 + code / 262144)).toNat = 0xF0 + code / 262144 :=
    toNat_byte (by omega)
  have hsecond : (byte (0x80 + code / 4096 % 64)).toNat = 0x80 + code / 4096 % 64 :=
    toNat_byte (by omega)
  have hwidth : charWidth (0xF0 + code / 262144) = 4 := by
    rw [charWidth, if_neg (by omega), if_neg (by omega), if_neg (by omega), if_pos (by omega)]
  refine ⟨⟨_, _, rfl, by rw [hfirst, hwidth]; rfl, fun rest => ?_⟩, ?_⟩
  · rw [hfirst]
    refine checkTail_four hwidth ?_ (isContinuation_byte (by omega)) (isContinuation_byte (by omega))
    rw [hsecond]
    unfold Admits secondByteRange
    split_ifs <;> dsimp only <;> omega
  · rw [joinBytes, hfirst, continuationBits_byte (by omega), continuationBits_byte (by omega),
      continuationBits_byte (by omega)]
    congr 1
    omega

end Widths

/-- The bytes that are written for a character are those of the character. -/
theorem encodeChar_spells (c : Char) : Spells (encodeChar c) c := by
  have hvalid : c.toNat < 0xD800 ∨ 0xDFFF < c.toNat ∧ c.toNat < 0x110000 := c.valid
  have hchar : Char.ofNat c.toNat = c := Char.ofNat_toNat c
  unfold encodeChar
  dsimp only
  generalize c.toNat = code at hvalid hchar
  subst hchar
  split_ifs with hone htwo hthree
  · exact spells_one hone
  · exact spells_two (by omega) htwo
  · exact spells_three (by omega) hthree (by omega)
  · exact spells_four (by omega) (by omega)

/-! ## Bytes of a text -/

/-- The first character is read from its bytes. -/
theorem decodeChars_append {bytes rest : List UInt8} {c : Char} (h : Spells bytes c)
    (budget offset : Nat) : decodeChars (budget + 1) offset (bytes ++ rest) =
      (do return c :: (← decodeChars budget (offset + bytes.length) rest)) := by
  obtain ⟨first, tail, rfl, hwidth, hcheck⟩ := h.checked
  rw [List.cons_append, decodeChars, hcheck]
  dsimp only
  rw [hwidth, ← List.cons_append, List.drop_left, List.take_left, h.joined]

/-- Characters are read back from their bytes if the budget is not below the number of bytes. -/
theorem decodeChars_flatMap (chars : List Char) (budget offset : Nat)
    (hbudget : (chars.flatMap encodeChar).length ≤ budget) :
    decodeChars budget offset (chars.flatMap encodeChar) = .ok chars := by
  induction chars generalizing budget offset with
  | nil => cases budget <;> rfl
  | cons c chars ih =>
      obtain ⟨first, tail, hbytes, -⟩ := (encodeChar_spells c).checked
      rw [List.flatMap_cons, List.length_append] at hbudget
      have hone : 0 < (encodeChar c).length := by simp [hbytes]
      obtain ⟨budget, rfl⟩ := Nat.exists_eq_add_one.2 (show 0 < budget by omega)
      rw [List.flatMap_cons, decodeChars_append (encodeChar_spells c), ih _ _ (by omega)]
      rfl

/-- A text is read back from its bytes. -/
theorem decodeText_encodeText (text : String) : decodeText (encodeText text) = .ok text := by
  unfold decodeText encodeText
  rw [decodeChars_flatMap _ _ _ (Nat.le_refl _)]
  show Except.ok (String.ofList text.toList) = Except.ok text
  rw [String.ofList_toList]

end TickScript.Text
