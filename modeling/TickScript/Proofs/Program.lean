import TickScript.Program

/-!
# Defects of programs

`defects_eq_nil_iff` says what it takes for a program to be emitted: its entry is its only start
node, the names of its tasks differ, and every call names one of them. `mem_defects` says what each
defect tells of a program that is not.
-/

namespace TickScript.Program

variable {program : Program}

/-- The entry has no defect exactly when it is the only start node. -/
theorem entryDefects_eq_nil_iff : program.entryDefects = [] ↔ program.starts = [program.entry] := by
  unfold entryDefects
  split
  · next hstarts => simp [hstarts]
  · next only hstarts => simp [hstarts]
  · next first second rest hstarts => simp [hstarts]

/-- No task is repeated exactly when the names differ from each other and from those seen before. -/
theorem repeatedTasks_eq_nil_iff {seen names : List String} :
    repeatedTasks seen names = [] ↔ names.Nodup ∧ ∀ name ∈ names, name ∉ seen := by
  induction names generalizing seen with
  | nil => simp [repeatedTasks]
  | cons name names ih =>
      rw [repeatedTasks]
      split
      · next hseen =>
        have hmem : name ∈ seen := List.contains_iff_mem.1 hseen
        simp [hmem]
      · next hseen =>
        have hmem : name ∉ seen := fun h => hseen (List.contains_iff_mem.2 h)
        rw [ih, List.nodup_cons]
        constructor
        · rintro ⟨hnodup, hnew⟩
          have hname : name ∉ names := fun h => hnew name h List.mem_cons_self
          refine ⟨⟨hname, hnodup⟩, List.forall_mem_cons.2 ⟨hmem, fun other hother => ?_⟩⟩
          exact fun h => hnew other hother (List.mem_cons_of_mem _ h)
        · rintro ⟨⟨hname, hnodup⟩, hnew⟩
          refine ⟨hnodup, fun other hother h => ?_⟩
          rcases List.mem_cons.1 h with rfl | h
          · exact hname hother
          · exact hnew other (List.mem_cons_of_mem _ hother) h

/-- No task is unknown exactly when every call names one of the tasks. -/
theorem unknownTasks_eq_nil_iff {names : List String} {nodes : List Node} :
    unknownTasks names nodes = [] ↔
      ∀ node ∈ nodes, ∀ task, calledTask? node.kind = some task → task ∈ names := by
  unfold unknownTasks
  rw [List.filterMap_eq_nil_iff]
  refine forall₂_congr fun node _ => ?_
  cases hcall : calledTask? node.kind with
  | none => simp
  | some task => simp

/-- What it takes for a program to be emitted. -/
theorem defects_eq_nil_iff : program.defects = [] ↔
    program.starts = [program.entry] ∧ (program.tasks.map (·.name)).Nodup ∧
      ∀ node ∈ program.nodes.values, ∀ task, calledTask? node.kind = some task →
        task ∈ program.tasks.map (·.name) := by
  unfold defects
  split
  · next hempty =>
    have hstarts : program.starts = [] := by
      simp [starts, Keyed.values, List.isEmpty_iff.1 hempty]
    simp [hstarts]
  · rw [List.append_eq_nil_iff, List.append_eq_nil_iff, entryDefects_eq_nil_iff,
      repeatedTasks_eq_nil_iff, unknownTasks_eq_nil_iff, and_assoc]
    simp

/-- What a defect of the entry tells of the start nodes. -/
theorem mem_entryDefects {defect : Defect} (h : defect ∈ program.entryDefects) :
    (defect = .missingEntry ∧ program.starts = []) ∨
    (∃ only, defect = .entryMismatch program.entry ∧ program.starts = [only] ∧
      only ≠ program.entry) ∨
    ∃ first second rest, defect = .duplicateEntry first second ∧
      program.starts = first :: second :: rest := by
  unfold entryDefects at h
  split at h
  · next hstarts => exact .inl ⟨List.mem_singleton.1 h, hstarts⟩
  · next only hstarts =>
    split at h
    · cases h
    · next hne => exact .inr (.inl ⟨only, List.mem_singleton.1 h, hstarts, hne⟩)
  · next first second rest hstarts =>
    exact .inr (.inr ⟨first, second, rest, List.mem_singleton.1 h, hstarts⟩)

/-- A repeated task was seen before or stands twice in the list. -/
theorem mem_repeatedTasks {seen names : List String} {defect : Defect}
    (h : defect ∈ repeatedTasks seen names) :
    ∃ name, defect = .duplicateTask name ∧ (name ∈ seen ∧ name ∈ names ∨ 2 ≤ names.count name) := by
  induction names generalizing seen with
  | nil => cases h
  | cons name names ih =>
      -- What the rest of the list repeats is repeated in the whole list.
      have hrest {seen : List String} (h : defect ∈ repeatedTasks seen names) :
          ∃ other, defect = .duplicateTask other ∧
            (other ∈ seen ∧ other ∈ names ∨ 2 ≤ (name :: names).count other) := by
        obtain ⟨other, hother, hseen | hcount⟩ := ih h
        · exact ⟨other, hother, .inl hseen⟩
        · exact ⟨other, hother, .inr (Nat.le_trans hcount List.count_le_count_cons)⟩
      rw [repeatedTasks] at h
      split at h
      · next hseen =>
        rcases List.mem_cons.1 h with rfl | h
        · exact ⟨name, rfl, .inl ⟨List.contains_iff_mem.1 hseen, List.mem_cons_self⟩⟩
        · obtain ⟨other, hother, ⟨hseen, hmem⟩ | hcount⟩ := hrest h
          · exact ⟨other, hother, .inl ⟨hseen, List.mem_cons_of_mem _ hmem⟩⟩
          · exact ⟨other, hother, .inr hcount⟩
      · obtain ⟨other, hother, ⟨hseen, hmem⟩ | hcount⟩ := hrest h
        · rcases List.mem_cons.1 hseen with rfl | hseen
          · have hcount : 1 ≤ names.count other := List.count_pos_iff.2 hmem
            exact ⟨other, hother, .inr (by rw [List.count_cons_self]; omega)⟩
          · exact ⟨other, hother, .inl ⟨hseen, List.mem_cons_of_mem _ hmem⟩⟩
        · exact ⟨other, hother, .inr hcount⟩

/-- An unknown task is called by a node and is not among the names. -/
theorem mem_unknownTasks {names : List String} {nodes : List Node} {defect : Defect}
    (h : defect ∈ unknownTasks names nodes) :
    ∃ node ∈ nodes, ∃ task, defect = .unknownTask node.id task ∧
      calledTask? node.kind = some task ∧ task ∉ names := by
  obtain ⟨node, hnode, hdefect⟩ := List.mem_filterMap.1 h
  split at hdefect
  · next task hcall =>
    split at hdefect
    · cases hdefect
    · next hunknown =>
      refine ⟨node, hnode, task, (Option.some.inj hdefect).symm, hcall, fun hmem => ?_⟩
      exact hunknown (List.contains_iff_mem.2 hmem)
  · cases hdefect

/-- What a defect tells of a program: it has no nodes, or there is something wrong with its entry, the
names of its tasks or its calls. -/
theorem mem_defects {defect : Defect} (h : defect ∈ program.defects) :
    (defect = .emptyGraph ∧ program.nodes.isEmpty = true) ∨ defect ∈ program.entryDefects ∨
      (∃ name, defect = .duplicateTask name ∧ 2 ≤ (program.tasks.map (·.name)).count name) ∨
      ∃ node ∈ program.nodes.values, ∃ task, defect = .unknownTask node.id task ∧
        calledTask? node.kind = some task ∧ task ∉ program.tasks.map (·.name) := by
  unfold defects at h
  split at h
  · next hempty => exact .inl ⟨List.mem_singleton.1 h, hempty⟩
  · rw [List.mem_append, List.mem_append] at h
    rcases h with (hentry | hrepeated) | hunknown
    · exact .inr (.inl hentry)
    · obtain ⟨name, hname, ⟨hseen, -⟩ | hcount⟩ := mem_repeatedTasks hrepeated
      · cases hseen
      · exact .inr (.inr (.inl ⟨name, hname, hcount⟩))
    · exact .inr (.inr (.inr (mem_unknownTasks hunknown)))

end TickScript.Program
