import Mathlib.Order.Monotone.Basic
import TickScript.Number.Shortest
import TickScript.Proofs.Text.Identifier

/-!
# Numbers as scripts show them

Magnitudes increase with their ranks, so a number is the only one with its integer, but for the sign
of zero. Integers below `10 ^ 15` are shown by their digits, so `scriptText_inj` can tell them apart
by their texts. Whatever a number is, `isNumeral_scriptText` says which characters it is shown with.
-/

namespace TickScript

/-! ## Numerals -/

namespace Text

/-- A letter, a digit, a sign or a point. -/
def isNumeralPart (c : Char) : Bool := c.isAlphanum || c == '-' || c == '.'

/-- A text has no characters but those that numbers are shown with. -/
def isNumeral (text : String) : Bool := text.toList.all isNumeralPart

theorem isNumeral_iff {text : String} :
    isNumeral text = true ↔ ∀ c ∈ text.toList, isNumeralPart c = true :=
  List.all_eq_true

theorem isNumeral_ofList {chars : List Char} (h : ∀ c ∈ chars, isNumeralPart c = true) :
    isNumeral (String.ofList chars) = true :=
  isNumeral_iff.2 (by rwa [String.toList_ofList])

theorem isNumeral_append {text other : String} (htext : isNumeral text = true)
    (hother : isNumeral other = true) : isNumeral (text ++ other) = true := by
  rw [isNumeral, String.toList_append, List.all_append, Bool.and_eq_true]
  exact ⟨htext, hother⟩

theorem isNumeral_repr (number : Nat) : isNumeral (Nat.repr number) = true := by
  refine isNumeral_iff.2 fun c hc => ?_
  rw [Nat.toList_repr] at hc
  have hdigit : c.isDigit = true := Nat.isDigit_of_mem_toDigits (by decide) (by decide) hc
  simp [isNumeralPart, Char.isAlphanum, hdigit]

theorem isNumeral_int (number : Int) : isNumeral (toString number) = true := by
  cases number with
  | ofNat number => exact isNumeral_repr number
  | negSucc number =>
      exact isNumeral_append (by decide : isNumeral "-" = true) (isNumeral_repr (number + 1))

end Text

open TickScript.Text

/-- Both parts of a decimal in positional form are made of digits. -/
theorem Decimal.isNumeral_positional (number : Decimal) :
    isNumeral number.positional.1 = true ∧ isNumeral number.positional.2 = true := by
  have hdigits := isNumeral_iff.1 (isNumeral_repr number.digits)
  have hzeros (count : Nat) : ∀ c ∈ List.replicate count '0', isNumeralPart c = true := fun c hc => by
    rw [List.eq_of_mem_replicate hc]
    decide
  have hboth {first second : List Char} (hfirst : ∀ c ∈ first, isNumeralPart c = true)
      (hsecond : ∀ c ∈ second, isNumeralPart c = true) :
      ∀ c ∈ first ++ second, isNumeralPart c = true :=
    List.forall_mem_append.2 ⟨hfirst, hsecond⟩
  unfold positional
  dsimp only
  split
  · exact ⟨isNumeral_ofList (hboth hdigits (hzeros _)), (by decide : isNumeral "" = true)⟩
  · have hpadded := hboth (hzeros ((-number.exponent).toNat + 1 -
      (Nat.repr number.digits).toList.length)) hdigits
    exact ⟨isNumeral_ofList fun c hc => hpadded c (List.mem_of_mem_take hc),
      isNumeral_ofList fun c hc => hpadded c (List.mem_of_mem_drop hc)⟩

theorem Layout.isNumeral_magnitude (rank : Nat) : isNumeral (script.magnitude rank) = true := by
  have hpositional (exponent : Int) : script.isPositional exponent = true := rfl
  unfold magnitude
  split
  · decide
  · obtain ⟨hwhole, hfraction⟩ := (Binary64.shortest script.tie rank).isNumeral_positional
    dsimp only
    rw [if_pos (hpositional _)]
    split
    · next whole heq =>
      rw [heq] at hwhole
      exact isNumeral_append hwhole (by decide)
    · next whole fraction _ heq =>
      rw [heq] at hwhole hfraction
      exact isNumeral_append (isNumeral_append hwhole (by decide)) hfraction

namespace Binary64

theorem isNumeral_finiteText (whole : Option Int) (negative : Bool) (rank : Nat) :
    isNumeral (finiteText whole negative rank) = true := by
  have hsign (negative : Prop) [Decidable negative] :
      isNumeral (if negative then "-" else "") = true := by
    split <;> decide
  unfold finiteText
  split
  · split
    · exact isNumeral_append (hsign _) (isNumeral_repr _)
    · exact isNumeral_append (hsign _) (Layout.isNumeral_magnitude rank)
  · exact isNumeral_append (hsign _) (Layout.isNumeral_magnitude rank)

/-- A script shows every number as a numeral. -/
theorem isNumeral_scriptText (number : Binary64) : isNumeral number.scriptText = true := by
  cases number with
  | nan => decide
  | infinite negative => cases negative <;> decide
  | finite negative rank => exact isNumeral_finiteText _ negative rank

/-! ## Ranks -/

theorem units_lt_units_succ (rank : Nat) : units rank < units (rank + 1) := by
  have hpos : 0 < Nat.pow 2 52 := by decide
  unfold units
  dsimp only
  generalize Nat.pow 2 52 = size at hpos ⊢
  have hsplit := Nat.div_add_mod rank size
  have hpower (binade : Nat) : 0 < Nat.pow 2 binade := Nat.pow_pos (by decide)
  rcases Nat.lt_or_ge (rank % size + 1) size with hsame | hnext
  · have hbinade : (rank + 1) / size = rank / size := by
      rw [← hsplit, Nat.add_assoc, Nat.mul_add_div hpos, Nat.div_eq_of_lt hsame, hsplit]
      rfl
    have hbelow : (rank / size - 1) * size ≤ rank :=
      (Nat.mul_le_mul_right size (Nat.sub_le _ 1)).trans (Nat.div_mul_le_self rank size)
    rw [hbinade]
    exact Nat.mul_lt_mul_of_pos_right (by omega) (hpower _)
  · -- The next magnitude is the first one of its binade.
    have hlast : rank % size + 1 = size := Nat.le_antisymm (Nat.mod_lt rank hpos) hnext
    have hbinade : (rank + 1) / size = rank / size + 1 := by
      rw [← hsplit, Nat.add_assoc, hlast, Nat.mul_add_div hpos, Nat.div_self hpos, hsplit]
    rw [hbinade, Nat.add_sub_cancel]
    generalize rank / size = binade at hsplit
    cases binade with
    | zero => exact Nat.mul_lt_mul_of_pos_right (by omega) (hpower _)
    | succ binade =>
        have hrank : rank = binade * size + (2 * size - 1) := by
          rw [Nat.mul_comm, Nat.add_mul, Nat.one_mul] at hsplit
          omega
        have hhigh : rank + 1 - (binade + 1) * size = size := by
          rw [Nat.add_mul, Nat.one_mul]
          omega
        have hdouble : Nat.pow 2 (binade + 1) = 2 * Nat.pow 2 binade := Nat.pow_succ'
        rw [Nat.add_sub_cancel, hhigh, hdouble, ← Nat.mul_assoc, Nat.mul_comm size 2]
        exact Nat.mul_lt_mul_of_pos_right (by omega) (hpower _)

theorem units_injective : Function.Injective units :=
  (strictMono_nat_of_lt_succ units_lt_units_succ).injective

/-! ## Integers -/

/-- The number, with the zero without a sign in place of that with one. -/
def unsignedZero : Binary64 → Binary64
  | .finite negative rank => if rank.val = 0 then zero else .finite negative rank
  | .infinite negative => .infinite negative
  | .nan => .nan

theorem toInt?_finite_eq_some {negative : Bool} {rank : Fin finiteCount} {whole : Int} :
    (finite negative rank).toInt? = some whole ↔ units rank % unitsInOne = 0 ∧
      (if negative then -((units rank / unitsInOne : Nat) : Int)
        else (units rank / unitsInOne : Nat)) = whole := by
  simp only [toInt?]
  split
  · next h => simp only [h, true_and, Option.some.injEq]
  · next h => simp only [h, false_and, reduceCtorEq]

/-- Numbers that are the same integer differ in the sign of zero at most. -/
theorem unsignedZero_eq_of_toInt? {first second : Binary64} {whole : Int}
    (hfirst : first.toInt? = some whole) (hsecond : second.toInt? = some whole) :
    first.unsignedZero = second.unsignedZero := by
  cases first with
  | nan | infinite => cases hfirst
  | finite negative rank =>
  cases second with
  | nan | infinite => cases hsecond
  | finite negative' rank' =>
  obtain ⟨hwhole, hfirst⟩ := toInt?_finite_eq_some.1 hfirst
  obtain ⟨hwhole', hsecond⟩ := toInt?_finite_eq_some.1 hsecond
  have hsplit := Nat.div_add_mod (units rank) unitsInOne
  have hsplit' := Nat.div_add_mod (units rank') unitsInOne
  have hsize : units rank / unitsInOne = units rank' / unitsInOne := by
    generalize units rank / unitsInOne = size at hfirst
    generalize units rank' / unitsInOne = size' at hsecond
    split at hfirst <;> split at hsecond <;> omega
  have hunits : units rank = units rank' := by rw [← hsplit, ← hsplit', hsize, hwhole, hwhole']
  obtain rfl : rank = rank' := Fin.ext (units_injective hunits)
  simp only [unsignedZero]
  split
  · rfl
  · next hzero =>
    -- A magnitude above zero has an integer above zero, whose sign is that of the number.
    have hpositive : units rank / unitsInOne ≠ 0 := by
      intro hnone
      rw [hnone, hwhole, Nat.mul_zero] at hsplit
      exact hzero (units_injective (hsplit.symm.trans (by decide)))
    rw [← hsize] at hsecond
    generalize units rank / unitsInOne = size at hfirst hsecond hpositive
    cases negative <;> cases negative' <;> simp only [Bool.false_eq_true, if_true, if_false]
      at hfirst hsecond ⊢ <;> omega

/-- The number is an integer that is shown by its digits. -/
def isShownWhole (number : Binary64) : Bool :=
  match number.toInt? with
  | some whole => whole.natAbs < Nat.pow 10 15
  | none => false

/-- An integer with its sign. -/
def wholeText (whole : Int) : String := (if whole < 0 then "-" else "") ++ Nat.repr whole.natAbs

theorem scriptText_of_isShownWhole {number : Binary64} (h : number.isShownWhole = true) :
    ∃ whole, number.toInt? = some whole ∧ number.scriptText = wholeText whole := by
  unfold isShownWhole at h
  split at h
  · next whole hwhole =>
    refine ⟨whole, hwhole, ?_⟩
    cases number with
    | nan | infinite => cases hwhole
    | finite negative rank =>
        unfold scriptText
        dsimp only
        rw [hwhole]
        exact if_pos (of_decide_eq_true h)
  · cases h

/-- A character that can stand in an integer. -/
def isWholePart (c : Char) : Bool := c.isDigit || c == '-'

theorem isWholePart_of_mem_wholeText (whole : Int) :
    ∀ c ∈ (wholeText whole).toList, isWholePart c = true := by
  unfold wholeText
  rw [String.toList_append]
  refine List.forall_mem_append.2 ⟨?_, fun c hc => ?_⟩
  · split <;> simp [isWholePart]
  · rw [Nat.toList_repr] at hc
    simp [isWholePart, Nat.isDigit_of_mem_toDigits (by decide) (by decide) hc]

theorem wholeText_injective : Function.Injective wholeText := by
  have hsign (number : Nat) (rest : String) : Nat.repr number ≠ "-" ++ rest := by
    intro h
    have hmem : '-' ∈ (Nat.repr number).toList := by simp [h]
    rw [Nat.toList_repr] at hmem
    exact absurd (Nat.isDigit_of_mem_toDigits (by decide) (by decide) hmem) (by decide)
  intro whole other h
  unfold wholeText at h
  split at h <;> split at h
  · have hdigits := Text.repr_injective ((String.append_right_inj _).1 h)
    omega
  · exact absurd (h.trans String.empty_append).symm (hsign _ _)
  · exact absurd (String.empty_append.symm.trans h) (hsign _ _)
  · have hdigits := Text.repr_injective ((String.append_right_inj _).1 h)
    omega

/-- Integers that are shown alike differ in the sign of zero at most. -/
theorem scriptText_inj {first second : Binary64} (hfirst : first.isShownWhole = true)
    (hsecond : second.isShownWhole = true) (h : first.scriptText = second.scriptText) :
    first.unsignedZero = second.unsignedZero := by
  obtain ⟨whole, hwhole, htext⟩ := scriptText_of_isShownWhole hfirst
  obtain ⟨whole', hwhole', htext'⟩ := scriptText_of_isShownWhole hsecond
  rw [htext, htext'] at h
  obtain rfl := wholeText_injective h
  exact unsignedZero_eq_of_toInt? hwhole hwhole'

/-- The sign of zero is not shown. -/
theorem scriptText_unsignedZero (number : Binary64) :
    number.unsignedZero.scriptText = number.scriptText := by
  have hzeros : ∀ negative, (finite negative ⟨0, by decide⟩).scriptText = zero.scriptText := by
    decide +kernel
  cases number with
  | nan | infinite => rfl
  | finite negative rank =>
      simp only [unsignedZero]
      split
      · next hzero =>
        obtain ⟨rank, hrank⟩ := rank
        obtain rfl : rank = 0 := hzero
        exact (hzeros negative).symm
      · rfl

end Binary64

end TickScript
