import Mathlib.Data.List.Basic
import TickScript.Proofs.Text.Paths

/-!
# Texts of one line

A text is of one line if there is no line feed in it. String constants are, whatever they quote.
`splitAtMarks_lines_iff` says when lines can be read off the text in which each has a line feed behind
it.
-/

namespace TickScript.Text

/-- There is no line feed in a text. -/
def OneLine (text : String) : Prop := '\n' ∉ text.toList

instance (text : String) : Decidable (OneLine text) := inferInstanceAs (Decidable (¬ _))

variable {text other : String}

@[simp] theorem oneLine_append : OneLine (text ++ other) ↔ OneLine text ∧ OneLine other := by
  simp [OneLine]

/-- A line feed is escaped, and no escape has one. -/
theorem feed_not_mem_escapeChar (c : Char) : '\n' ∉ escapeChar c := by
  have hdigit : ∀ n < 16, '\n' ≠ hexDigit n := by decide
  unfold escapeChar
  split
  · decide
  split
  · decide
  split
  · decide
  split
  · decide
  split
  · decide
  split
  · decide
  split
  · decide
  split
  · simp [hdigit (c.toNat / 16) (by omega), hdigit (c.toNat % 16) (by omega)]
  · simp_all [eq_comm]

@[simp] theorem oneLine_quote (text : String) : OneLine (quote text) := by
  have hinside : '\n' ∉ text.toList.flatMap escapeChar := by
    simp [feed_not_mem_escapeChar]
  rw [OneLine, toList_quote]
  simp [hinside]

/-! ## Lines of a text -/

/-- Lines can be read off their text exactly if none of them has a mark in it. -/
theorem splitAtMarks_lines_iff (mark : Char) (lines : List (List Char)) :
    splitAtMarks mark (lines.flatMap (· ++ [mark])) = lines ++ [[]] ↔ ∀ line ∈ lines, mark ∉ line := by
  constructor
  · intro h line hline
    exact mark_not_mem_of_mem_splitAtMarks (h ▸ List.mem_append_left _ hline)
  · intro h
    induction lines with
    | nil => rfl
    | cons line lines ih =>
        obtain ⟨hline, hlines⟩ := List.forall_mem_cons.1 h
        rw [List.flatMap_cons, List.append_assoc, List.singleton_append,
          splitAtMarks_append hline, ih hlines, List.cons_append]

end TickScript.Text
