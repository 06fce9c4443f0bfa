import TickScript.Proofs.Emission.Values
import TickScript.Proofs.Walk.Constructs
import TickScript.Proofs.Walk.Reach

/-!
# What a walk restores

Control nodes indent their slots and let join points wait, and undo both by hand when they are done.
`Restores` says that nothing is left of this: the join points, the indentation and the acting unit
are those from before, and lines, warnings and visited ids were only added, the lines not outside of
the block that was open. `walk_restores` proves it of every walk of a plain setting.
-/

namespace TickScript.Emission

variable {table : NodeTable} {context final : Context}

/-- Statements do not change the acting unit. -/
theorem Composes.actor_eq (h : Composes table context final) : final.actor = context.actor := by
  induction h with
  | done => rfl
  | deeper _ _ ihbody ih => exact ih.trans ihbody
  | say _ _ ih | fresh _ _ _ ih | require _ _ _ _ ih | warn _ _ _ ih | found _ _ _ _ _ _ ih
  | missed _ _ _ _ _ ih | standIn _ _ _ _ _ _ ih | warned _ _ _ _ _ _ _ ih
  | record _ _ _ _ _ ih => exact ih

/-- Statements only add warnings. -/
theorem Composes.warnings_prefix (h : Composes table context final) :
    context.diagnostics.warnings <+: final.diagnostics.warnings := by
  induction h with
  | done => exact List.prefix_rfl
  | deeper _ _ ihbody ih => exact ihbody.trans ih
  | warn _ _ _ ih | missed _ _ _ _ _ ih | warned _ _ _ _ _ _ _ ih =>
      exact (List.prefix_append _ _).trans ih
  | say _ _ ih | fresh _ _ _ ih | require _ _ _ _ ih | found _ _ _ _ _ _ ih
  | standIn _ _ _ _ _ _ ih | record _ _ _ _ _ ih => exact ih

/-- A line begins with the spaces of every block that it stands in. -/
theorem Line.spaces_prefix {line : Line} {indent : Nat} (h : indent ≤ line.indent) :
    List.replicate indent ' ' <+: line.render.toList := by
  obtain ⟨more, hmore⟩ := Nat.exists_eq_add_of_le h
  rw [Line.render, String.toList_append, String.toList_ofList, hmore, List.replicate_add,
    List.append_assoc]
  exact List.prefix_append _ _

/-- The lines that are added at some indentation begin with its spaces. -/
theorem Context.Grows.renderedLines (h : context.Grows final) :
    ∃ lines, final.renderedLines = context.renderedLines ++ lines ∧
      ∀ line ∈ lines, List.replicate context.indent ' ' <+: line.toList := by
  obtain ⟨written, hlines, hdeep⟩ := h.lines
  refine ⟨written.map Line.render, ?_, ?_⟩
  · rw [Context.renderedLines, hlines, List.map_append]
    rfl
  · intro text htext
    obtain ⟨line, hline, rfl⟩ := List.mem_map.1 htext
    exact Line.spaces_prefix (hdeep line hline)

namespace Walk

/-- What a part of a walk leaves as it was, and what it only adds to. Every line that it adds begins
with at least the spaces of the indentation at its beginning. -/
structure Restores (state final : State) : Prop where
  joins : final.joins = state.joins
  indent : final.context.indent = state.context.indent
  actor : final.context.actor = state.context.actor
  lines : ∃ lines, final.context.renderedLines = state.context.renderedLines ++ lines ∧
    ∀ line ∈ lines, List.replicate state.context.indent ' ' <+: line.toList
  visited : state.visited <:+ final.visited
  warnings : state.context.diagnostics.warnings <+: final.context.diagnostics.warnings

/-- A walk restores the join points that wait, the indentation and the acting unit, whatever state it
begins in, and keeps all lines, warnings and visited ids. -/
theorem walk_restores {setting : Setting} (hplain : setting.Plain) (id : String) (state : State) :
    Restores state (after (walk setting id) state) := by
  have hcomposes : Composes setting.table state.context (after (walk setting id) state).context :=
    (visit_writes hplain (setting.table.size + 1) id state trivial).1
  obtain ⟨marks, hstretch, -⟩ := (branch_tour setting [id] state).stretch
  exact {
    joins := visit_joins setting _ id state
    indent := hcomposes.grows.indent
    actor := hcomposes.actor_eq
    lines := hcomposes.grows.renderedLines
    visited := ⟨_, hstretch.passage.visited.symm⟩
    warnings := hcomposes.warnings_prefix }

/-- A state inside of a task, in a block that a branch has opened. -/
def insideBranch : State where
  context := { lines := [⟨0, "if (x) \x7b"⟩], indent := indentStep, actor := taskActor }
  visited := ["start"]
  joins := ["join"]

/-- A gate that is written inside of a branch adds six lines, which begin with the spaces of the
block, and its join point waits as before. -/
theorem insideBranch_restored :
    (Setting.mk gatedDiamond .empty).Plain ∧
      let final := after (walk ⟨gatedDiamond, .empty⟩ "gate") insideBranch
      final.joins = ["join"] ∧ final.context.indent = indentStep ∧
      ∃ lines, lines.length = 6 ∧
        final.context.renderedLines = insideBranch.context.renderedLines ++ lines ∧
        ∀ line ∈ lines, [' ', ' '] <+: line.toList := by
  have hplain : (Setting.mk gatedDiamond .empty).Plain := by decide +kernel
  have hlength : (after (walk ⟨gatedDiamond, .empty⟩ "gate") insideBranch).context.renderedLines.length
      = 7 := by
    decide +kernel
  have hrestores := walk_restores hplain "gate" insideBranch
  obtain ⟨lines, hlines, hspaces⟩ := hrestores.lines
  refine ⟨hplain, hrestores.joins, hrestores.indent, lines, ?_, hlines, hspaces⟩
  rw [hlines, List.length_append] at hlength
  exact Nat.add_left_cancel hlength

end Walk

end TickScript.Emission
