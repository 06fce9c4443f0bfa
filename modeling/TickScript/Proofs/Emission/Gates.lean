import Mathlib.Data.Int.ModEq
import TickScript.Emission.Flow
import TickScript.Proofs.Script.Expression

/-!
# Tick gates

The condition of a gate is the text of an expression, `gate`, which can be evaluated at any tick.
Settings have words of 64 bits for the interval and the offset, and `conditionInWords?` computes the
condition with the operations on words, which could fail. `gates_fire_on_ticks` says that they do
not, and on which ticks a gate lets the script through.
-/

namespace TickScript.Kind

open TickScript.Emission TickScript.Script

/-! ## Words -/

/-- The magnitude of a word, without a sign. -/
def magnitude (word : Int64) : UInt64 := word.abs.toUInt64

/-- The remainder of a word that is not below zero. A division by zero and one whose quotient does
not fit in a word have none. -/
def wordRemainder? (word divisor : Int64) : Option Int64 :=
  if divisor = 0 ∨ word = Int64.minValue ∧ divisor = -1 then none
  else
    let rest := word % divisor
    some (if rest < 0 then rest + divisor.abs else rest)

theorem toNat_magnitude (word : Int64) : (magnitude word).toNat = word.toInt.natAbs := by
  have hvalue : word.toInt = _ := BitVec.toInt_eq_msb_cond word.toBitVec
  have hbound := word.toBitVec.isLt
  change word.toBitVec.abs.toNat = _
  rw [BitVec.toNat_abs, hvalue]
  split <;> omega

theorem abs_of_pos {word : Int64} (h : 0 < word.toInt) : word.abs = word := by
  have hsign : ¬ word.toBitVec.msb = true := by
    rw [BitVec.msb_eq_toInt, decide_eq_true_eq]
    exact Int.not_lt.2 h.le
  rw [← Int64.toBitVec_inj, Int64.toBitVec_abs, BitVec.abs_eq, if_neg hsign]

/-- The remainder by a positive word is that of the integers. -/
theorem wordRemainder?_of_pos {divisor : Int64} (h : 0 < divisor.toInt) (word : Int64) :
    ∃ rest, wordRemainder? word divisor = some rest ∧ rest.toInt = word.toInt % divisor.toInt := by
  have hzero : divisor ≠ 0 := by
    rintro rfl
    exact absurd h (by decide)
  have hminus : divisor ≠ -1 := by
    rintro rfl
    exact absurd h (by decide)
  refine ⟨_, if_neg (by simp [hzero, hminus]), ?_⟩
  have hlow := Int.emod_nonneg word.toInt h.ne'
  have hhigh := Int.emod_lt_of_pos word.toInt h
  have hfits := divisor.toInt_lt
  -- The remainder of words has the sign of the dividend.
  have hrest : (word % divisor).toInt = word.toInt % divisor.toInt ∨
      (word % divisor).toInt = word.toInt % divisor.toInt - divisor.toInt := by
    rw [Int64.toInt_mod, Int.tmod_eq_emod]
    split <;> omega
  have hsign : word % divisor < 0 ↔ (word % divisor).toInt < 0 := Int64.lt_iff_toInt_lt
  rw [abs_of_pos h]
  split
  · next hnegative =>
    rw [hsign] at hnegative
    rw [Int64.toInt_add, Int.bmod_eq_of_le (by omega) (by omega)]
    omega
  · next hpositive =>
    rw [hsign] at hpositive
    omega

namespace Tick

/-- The interval, or one if it is not positive, as a word. -/
def wordPeriod (interval : Int64) : Int64 := if interval ≤ 0 then 1 else interval

/-- The condition of a gate, computed with words. -/
def conditionInWords? (interval offset : Int64) (mode : TickMode) : Option String :=
  let period := wordPeriod interval
  match mode with
  | .multiple =>
    let shift := magnitude offset
    if offset = 0 then some s!"Game.time % {period} === 0"
    else if offset < 0 then some s!"(Game.time - {shift}) % {period} === 0"
    else some s!"(Game.time + {offset}) % {period} === 0"
  | .modulo => do
    let rest ← wordRemainder? offset period
    return s!"Game.time % {period} === {rest}"

/-! ## Expressions -/

/-- The current tick in a script. -/
def clock : Expr := .name "Game.time"

/-- The names of a script at a tick. -/
def namesAt (tick : Nat) (name : String) : Option Int :=
  if name = "Game.time" then some tick else none

/-- The current tick with an offset. -/
def shifted (offset : Int) : Expr :=
  if offset = 0 then clock
  else .operation (if offset < 0 then .minus else .plus) clock (.number offset.natAbs)

/-- The condition of a gate as an expression. -/
def gate (settings : Tick) : Expr :=
  let period := Expr.number settings.period.toNat
  match settings.mode with
  | .multiple =>
    .operation .same (.operation .remainder (shifted settings.offset) period) (.number 0)
  | .modulo =>
    .operation .same (.operation .remainder clock period)
      (.number (settings.offset % settings.period).toNat)

theorem period_pos (settings : Tick) : 0 < settings.period := by
  unfold period
  split <;> omega

/-- The condition is the text of the gate. -/
theorem condition_eq (settings : Tick) : settings.condition = settings.gate.text 0 := by
  have hshow {value : Int} (h : 0 ≤ value) : toString value = Nat.repr value.toNat := by
    obtain ⟨value, rfl⟩ := Int.eq_ofNat_of_zero_le h
    rfl
  have hperiod := hshow settings.period_pos.le
  have hrest := hshow (Int.emod_nonneg settings.offset settings.period_pos.ne')
  have hzero : Nat.repr 0 = "0" := rfl
  unfold condition gate
  rw [← String.toList_inj]
  cases settings.mode with
  | modulo =>
      dsimp only
      rw [hperiod, hrest]
      simp [Expr.text, clock, Operator.text, Operator.rank, ToString.toString]
  | multiple =>
      dsimp only
      rw [hperiod]
      unfold shifted
      split
      · simp [Expr.text, clock, Operator.text, Operator.rank, ToString.toString, hzero]
      · split <;> simp [Expr.text, clock, Operator.text, Operator.rank, ToString.toString]

theorem isNamed_gate (settings : Tick) : settings.gate.isNamed = true := by
  have hclock : clock.isNamed = true := by decide
  unfold gate shifted
  cases settings.mode with
  | modulo => simp [Expr.isNamed, hclock]
  | multiple =>
      dsimp only
      split <;> simp [Expr.isNamed, hclock]

theorem outcome?_shifted (offset : Int) (tick : Nat) :
    (shifted offset).outcome? (namesAt tick) = some (.integer (tick + offset)) := by
  have hclock : clock.outcome? (namesAt tick) = some (.integer tick) := rfl
  unfold shifted
  split
  · next hzero => rw [hclock, hzero, Int.add_zero]
  · rw [Expr.outcome?, hclock, Expr.outcome?]
    split
    · next hnegative =>
      simp only [bind, Option.bind_some, Operator.apply?]
      congr 2
      omega
    · simp only [bind, Option.bind_some, Operator.apply?]
      congr 2
      omega

/-- What the condition of a gate says at a tick. -/
theorem truth?_condition (settings : Tick) (tick : Nat) :
    truth? (namesAt tick) settings.condition = some (match settings.mode with
      | .multiple => decide (settings.period ∣ tick + settings.offset)
      | .modulo => decide (tick ≡ settings.offset [ZMOD settings.period])) := by
  have hperiod : (settings.period.toNat : Int) = settings.period :=
    Int.toNat_of_nonneg settings.period_pos.le
  have hne : settings.period ≠ 0 := settings.period_pos.ne'
  have hclock : clock.outcome? (namesAt tick) = some (.integer tick) := rfl
  rw [condition_eq, truth?, parse?_text _ settings.isNamed_gate]
  simp only [bind, Option.bind_some]
  unfold gate
  cases settings.mode with
  | multiple =>
      simp only [Expr.outcome?, outcome?_shifted, Operator.apply?, hperiod, hne, if_false,
        bind, Option.bind_some]
      refine congrArg some (decide_eq_decide.2 ?_)
      rw [Outcome.integer.injEq, Int.dvd_iff_tmod_eq_zero]
      rfl
  | modulo =>
      have hrest : ((settings.offset % settings.period).toNat : Int) =
          settings.offset % settings.period :=
        Int.toNat_of_nonneg (Int.emod_nonneg _ hne)
      simp only [Expr.outcome?, hclock, Operator.apply?, hperiod, hne, hrest, if_false,
        bind, Option.bind_some]
      refine congrArg some (decide_eq_decide.2 ?_)
      rw [Outcome.integer.injEq, Int.tmod_eq_emod_of_nonneg (Int.natCast_nonneg tick)]
      rfl

theorem toInt_wordPeriod (interval : Int64) (offset : Int) (mode : TickMode) :
    (wordPeriod interval).toInt = Tick.period ⟨interval.toInt, offset, mode⟩ := by
  have hsign : interval ≤ 0 ↔ interval.toInt ≤ 0 := Int64.le_iff_toInt_le
  unfold wordPeriod Tick.period
  simp only [hsign]
  split <;> rfl

/-- Nothing fails when the condition is computed with words, and it is the same condition. -/
theorem conditionInWords?_eq (interval offset : Int64) (mode : TickMode) :
    conditionInWords? interval offset mode =
      some (condition ⟨interval.toInt, offset.toInt, mode⟩) := by
  have hperiod := toInt_wordPeriod interval offset.toInt mode
  have hpos : 0 < (wordPeriod interval).toInt := hperiod ▸ period_pos _
  unfold conditionInWords? condition
  rw [← hperiod]
  generalize wordPeriod interval = period at hpos
  cases mode with
  | multiple =>
      have hshift : toString (magnitude offset) = toString offset.toInt.natAbs :=
        congrArg Nat.repr (toNat_magnitude offset)
      have hzero : offset = 0 ↔ offset.toInt = 0 := Int64.toInt_inj.symm
      have hbelow : offset < 0 ↔ offset.toInt < 0 := Int64.lt_iff_toInt_lt
      dsimp only
      rw [hshift]
      rcases Int.lt_trichotomy offset.toInt 0 with hsign | hsign | hsign
      · rw [if_neg (mt hzero.1 hsign.ne), if_pos (hbelow.2 hsign), if_neg hsign.ne, if_pos hsign]
        rfl
      · rw [if_pos (hzero.2 hsign), if_pos hsign]
        rfl
      · have hoffset : toString offset = toString offset.toInt.natAbs :=
          congrArg toString (Int.natAbs_of_nonneg hsign.le).symm
        rw [if_neg (mt hzero.1 hsign.ne'), if_neg (mt hbelow.1 hsign.not_gt), if_neg hsign.ne',
          if_neg hsign.not_gt, hoffset]
        rfl
  | modulo =>
      obtain ⟨rest, hrest, hvalue⟩ := wordRemainder?_of_pos hpos offset
      dsimp only
      rw [hrest, ← hvalue]
      rfl

/-- Let the interval and the offset of a gate be words of 64 bits, and its period the interval, or
one if that is not positive. A gate declares a constant for its condition, and its body stands in a
block that is entered if the constant is true. Computed with words, the condition comes out without
an overflow and without a division by zero. A gate for multiples lets the script through just at
those ticks that are multiples of the period together with the offset, and a gate for remainders at
those that are congruent to the offset. The number that such a gate compares with is a remainder. A
gate for multiples is open at the same ticks as a gate for remainders with the opposite offset. -/
theorem gates_fire_on_ticks (interval offset : Int64) :
    let period : Int := if interval.toInt ≤ 0 then 1 else interval.toInt
    let gate (offset : Int64) (mode : TickMode) : Tick := ⟨interval.toInt, offset.toInt, mode⟩
    (∀ mode branch node state,
      let name := state.context.nextName "tick"
      let text := (gate offset mode).condition
      let context := ((state.context.issue "tick").push
        s!"const {name} = {text};").record node.id name
      ((gate offset mode).emit branch node).run state =
        (Walk.block s!"if ({name})" (branch (node.slot "body"))).run { state with context }) ∧
    (∀ mode, conditionInWords? interval offset mode = some (gate offset mode).condition) ∧
    (∀ tick : Nat, truth? (namesAt tick) (gate offset .multiple).condition =
      some (decide (period ∣ tick + offset.toInt))) ∧
    (∀ tick : Nat, truth? (namesAt tick) (gate offset .modulo).condition =
      some (decide (tick ≡ offset.toInt [ZMOD period]))) ∧
    (∃ rest : Int, 0 ≤ rest ∧ rest < period ∧
      (gate offset .modulo).condition = s!"Game.time % {period} === {rest}") ∧
    ∀ opposite : Int64, opposite.toInt ≡ -offset.toInt [ZMOD period] → ∀ tick : Nat,
      truth? (namesAt tick) (gate offset .multiple).condition =
        truth? (namesAt tick) (gate opposite .modulo).condition := by
  intro period gate
  have hperiod (offset : Int64) (mode : TickMode) : (gate offset mode).period = period := rfl
  have hmultiple (tick : Nat) := truth?_condition (gate offset .multiple) tick
  have hmodulo (offset : Int64) (tick : Nat) := truth?_condition (gate offset .modulo) tick
  have hpos : 0 < period := (gate offset .modulo).period_pos
  refine ⟨fun _ _ _ _ => rfl, fun mode => conditionInWords?_eq interval offset mode, hmultiple,
    hmodulo offset, ?_, fun opposite hopposite tick => ?_⟩
  · exact ⟨offset.toInt % period, Int.emod_nonneg _ hpos.ne', Int.emod_lt_of_pos _ hpos, rfl⟩
  · rw [hmultiple, hmodulo]
    refine congrArg some (decide_eq_decide.2 ?_)
    have hsame : (tick : Int) ≡ opposite.toInt [ZMOD period] ↔ tick ≡ -offset.toInt [ZMOD period] :=
      ⟨fun h => h.trans hopposite, fun h => h.trans hopposite.symm⟩
    change period ∣ tick + offset.toInt ↔ tick ≡ opposite.toInt [ZMOD period]
    rw [hsame, Int.modEq_comm, Int.modEq_iff_dvd, sub_neg_eq_add]

/-- With the least offset of all, a gate for every seventh tick is open at the ticks that leave one.
-/
theorem least_offset_fires :
    Tick.condition ⟨7, Int64.minValue.toInt, .multiple⟩ =
      "(Game.time - 9223372036854775808) % 7 === 0" ∧
    Tick.condition ⟨7, Int64.minValue.toInt, .modulo⟩ = "Game.time % 7 === 6" ∧
    (1 : Int64).toInt ≡ -Int64.minValue.toInt [ZMOD 7] ∧
    truth? (namesAt 8) (Tick.condition ⟨7, Int64.minValue.toInt, .multiple⟩) = some true ∧
    truth? (namesAt 8) (Tick.condition ⟨7, 1, .modulo⟩) = some true := by
  have hopposite : (1 : Int64).toInt ≡ -Int64.minValue.toInt [ZMOD 7] := by decide
  obtain ⟨-, -, hmultiple, -, -, hsame⟩ := gates_fire_on_ticks 7 Int64.minValue
  have hopen : truth? (namesAt 8) (Tick.condition ⟨7, Int64.minValue.toInt, .multiple⟩) =
      some true :=
    hmultiple 8
  exact ⟨by decide +kernel, by decide +kernel, hopposite, hopen,
    (hsame 1 hopposite 8).symm.trans hopen⟩

end Tick

end TickScript.Kind
