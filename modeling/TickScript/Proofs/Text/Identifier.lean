import Mathlib.Data.List.Basic
import Mathlib.Data.List.Forall2
import Mathlib.Tactic.Tauto
import TickScript.Text.Identifier

/-!
# Made-up identifiers

The identifier of a task keeps the letters and digits of its name and nothing else. Temporary names
are small words with a number behind an underscore. This module says when two such identifiers are
the same.
-/

namespace TickScript.Text

variable {name stem other rest : String} {number : Nat}

/-- All characters of an identifier may stand inside of a name. -/
theorem isNamePart_of_mem_identifier {text : String} (h : isIdentifier text = true) :
    ∀ c ∈ text.toList, isNamePart c = true := by
  unfold isIdentifier at h
  split at h
  · cases h
  · next first rest htext =>
    rw [Bool.and_eq_true, List.all_eq_true] at h
    rw [htext]
    refine List.forall_mem_cons.2 ⟨?_, h.2⟩
    have hstart := h.1
    simp only [isNameStart, isNamePart, Char.isAlphanum, Bool.or_eq_true] at hstart ⊢
    tauto

/-! ## Identifiers of tasks -/

/-- Two names are alike: they have the same letters and digits in the same places, and any other
characters elsewhere. -/
def Alike (name other : String) : Prop :=
  List.Forall₂ (fun c d => c = d ∨ c.isAlphanum = false ∧ d.isAlphanum = false)
    name.toList other.toList

/-- Two characters are replaced by the same one if they are equal or neither letters nor digits. -/
theorem replaced_eq_iff (c d : Char) :
    ((if c.isAlphanum then c else '_') = if d.isAlphanum then d else '_') ↔
      c = d ∨ c.isAlphanum = false ∧ d.isAlphanum = false := by
  have hletter {e : Char} (h : e.isAlphanum = true) : e ≠ '_' := by
    rintro rfl
    exact absurd h (by decide)
  by_cases hc : c.isAlphanum = true <;> by_cases hd : d.isAlphanum = true
  · simp [hc, hd]
  · have hne : c ≠ d := by
      rintro rfl
      exact hd hc
    simp [hc, hd, hne, hletter hc]
  · have hne : c ≠ d := by
      rintro rfl
      exact hc hd
    simp [hc, hd, hne, (hletter hd).symm]
  · simp [hc, hd]

theorem toList_sanitize (name : String) :
    (sanitize name).toList = name.toList.map fun c => if c.isAlphanum then c else '_' :=
  String.toList_ofList

/-- Two tasks have the same identifier exactly if their names are alike. -/
theorem taskIdentifier_eq_iff (name other : String) :
    taskIdentifier name = taskIdentifier other ↔ Alike name other := by
  unfold taskIdentifier Alike
  rw [String.append_right_inj, ← String.toList_inj, toList_sanitize, toList_sanitize,
    ← List.forall₂_eq_eq_eq, List.forall₂_map_left_iff, List.forall₂_map_right_iff]
  simp only [replaced_eq_iff]

/-- A name is left as it is unless something in it becomes an underscore. -/
theorem sanitize_eq_self (h : '_' ∉ (sanitize name).toList) : sanitize name = name := by
  rw [← String.toList_inj]
  rw [toList_sanitize] at h ⊢
  refine (List.map_congr_left fun c hc => ?_).trans (List.map_id _)
  by_cases hletter : c.isAlphanum = true
  · exact if_pos hletter
  · exact (h (List.mem_map.2 ⟨c, hc, if_neg hletter⟩)).elim

/-! ## Numbered words -/

/-- The digits of a number are no underscores. -/
theorem underscore_not_mem_repr (number : Nat) : '_' ∉ (Nat.repr number).toList := by
  rw [Nat.toList_repr]
  intro h
  exact absurd (Nat.isDigit_of_mem_toDigits (by decide) (by decide) h) (by decide)

/-- Different numbers have different digits. -/
theorem repr_injective : Function.Injective Nat.repr := fun first second h => by
  have hdigits : Nat.toDigits 10 first = Nat.toDigits 10 second := by
    rw [← Nat.toList_repr, ← Nat.toList_repr, h]
  rw [← @Nat.ofDigitChars_ten_toDigits first, hdigits, Nat.ofDigitChars_ten_toDigits]

/-- A number is a name without characters to be replaced. -/
theorem sanitize_repr (number : Nat) : sanitize (Nat.repr number) = Nat.repr number := by
  rw [← String.toList_inj, toList_sanitize]
  refine (List.map_congr_left fun c hc => ?_).trans (List.map_id _)
  rw [Nat.toList_repr] at hc
  have hdigit : c.isDigit = true := Nat.isDigit_of_mem_toDigits (by decide) (by decide) hc
  simp [Char.isAlphanum, hdigit]

/-- A word and the number behind it can be told apart. -/
theorem numbered_eq_iff (hstem : '_' ∉ stem.toList) :
    stem ++ "_" ++ Nat.repr number = other ++ "_" ++ rest ↔
      stem = other ∧ Nat.repr number = rest := by
  have hlist (word digits : String) :
      (word ++ "_" ++ digits).toList = word.toList ++ '_' :: digits.toList := by
    simp
  rw [← String.toList_inj, hlist, hlist,
    List.append_cons_inj_of_notMem hstem (underscore_not_mem_repr number), String.toList_inj,
    String.toList_inj]
  simp

/-- Words of small letters, from which temporary names are made. -/
def isStem (text : String) : Bool := text.toList.all Char.isLower

theorem underscore_not_mem_stem (h : isStem stem = true) : '_' ∉ stem.toList := fun hmem =>
  absurd (List.all_eq_true.1 h _ hmem) (by decide)

/-- A temporary name is the identifier of a task only if the task is called by its number. -/
theorem numbered_eq_taskIdentifier_iff (hstem : isStem stem = true) :
    stem ++ "_" ++ Nat.repr number = taskIdentifier name ↔
      stem = "task" ∧ name = Nat.repr number := by
  have htask : taskIdentifier name = "task" ++ "_" ++ sanitize name := rfl
  rw [htask, numbered_eq_iff (underscore_not_mem_stem hstem)]
  refine and_congr_right fun _ => ⟨fun h => ?_, fun h => ?_⟩
  · have hself : sanitize name = name := sanitize_eq_self (h ▸ underscore_not_mem_repr number)
    rw [← hself, h]
  · rw [h, sanitize_repr]

end TickScript.Text
