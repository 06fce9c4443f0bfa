import TickScript.Proofs.Emission.Lockstep

/-!
# Tasks by themselves

The tasks of a program are written one after the other, and each begins with the imports of those
before it. For built-in kinds this makes no difference: `functions_apart` says that the functions, the
warnings and the imports of a program are put together from the main function and from tasks that are
written by themselves, in a context of their own with nothing imported.
-/

namespace TickScript.Emission

namespace Imports

variable {imports : Imports} {others : List Imports}

/-- Imports with those of several others. -/
def mergeAll (imports : Imports) (others : List Imports) : Imports := others.foldl merge imports

/-- Imports from the library are merged to the union of all. -/
theorem Standard.mergeAll_spec (h : imports.Standard) (hothers : ∀ other ∈ others, other.Standard) :
    (imports.mergeAll others).Standard ∧ ∀ module symbol,
      (imports.mergeAll others).Has module symbol ↔
        imports.Has module symbol ∨ ∃ other ∈ others, other.Has module symbol := by
  unfold mergeAll
  induction others generalizing imports with
  | nil => exact ⟨h, by simp⟩
  | cons other others ih =>
      obtain ⟨hother, hothers⟩ := List.forall_mem_cons.1 hothers
      obtain ⟨hmerged, hhas⟩ := ih (h.merge hother) hothers
      refine ⟨hmerged, fun module symbol => (hhas module symbol).trans ?_⟩
      rw [h.has_merge hother]
      simp only [List.mem_cons, exists_eq_or_imp, or_assoc]

end Imports

variable {setting : Setting} {context : Context}

/-- A task by itself, beside the same task with the imports made so far. -/
theorem taskContext_alone (hplain : setting.Plain) (h : context.imports.Standard) (task : Task) :
    (taskContext setting {} task).Beside context.imports.Has (taskContext setting context task) :=
  taskContext_beside (.refl setting.table) hplain hplain (.child h) fun _ _ => trivial

/-- What a task adds to the imports is what it imports when it is written by itself. -/
theorem absorb_taskContext_imports (hplain : setting.Plain) (h : context.imports.Standard)
    (task : Task) : (context.absorb (taskContext setting context task)).imports =
      context.imports.merge (taskContext setting {} task).imports := by
  have hbeside := taskContext_alone hplain h task
  refine (h.merge hbeside.standard').ext (h.merge hbeside.standard) fun module symbol => ?_
  rw [h.has_merge hbeside.standard', h.has_merge hbeside.standard, hbeside.imports, ← or_assoc,
    or_self]

/-- Tasks that are written one after the other are written as by themselves. -/
theorem emitTasks_apart (hplain : setting.Plain) (tasks : List Task) (h : context.imports.Standard) :
    let alone := taskContext setting {}
    let written := emitTasks setting context tasks
    written.1 = tasks.map (fun task => taskFunction task (alone task).lines) ∧
      written.2.imports = context.imports.mergeAll (tasks.map fun task => (alone task).imports) ∧
      written.2.diagnostics.warnings = context.diagnostics.warnings ++
        tasks.flatMap fun task => (alone task).diagnostics.warnings := by
  intro alone
  induction tasks generalizing context with
  | nil => exact ⟨rfl, rfl, (List.append_nil _).symm⟩
  | cons task tasks ih =>
      have hbeside := taskContext_alone hplain h task
      have himports := absorb_taskContext_imports hplain h task
      obtain ⟨hfunctions, hmerged, hwarnings⟩ :=
        ih (himports ▸ h.merge hbeside.standard)
      refine ⟨?_, ?_, ?_⟩
      · rw [List.map_cons, ← hfunctions, ← hbeside.lines]
        rfl
      · rw [List.map_cons, Imports.mergeAll, List.foldl_cons, ← himports]
        exact hmerged
      · have hown : (taskContext setting context task).diagnostics.warnings =
            (alone task).diagnostics.warnings := congrArg _ hbeside.diagnostics
        rw [List.flatMap_cons, ← List.append_assoc, ← hown]
        exact hwarnings

variable {program : Program} {registry : Registry}

/-- The main function imports from the library. -/
theorem runWalk_standard (hplain : setting.Plain) (entry : String) :
    (runWalk setting {} entry).imports.Standard :=
  (runWalk_beside (.refl setting.table) hplain hplain (.refl .empty) trivial).standard

/-- A program is put together from its main function and its tasks by themselves. -/
theorem functions_apart (hplain : Setting.Plain ⟨program.nodes, registry⟩) :
    let main := runWalk ⟨program.nodes, registry⟩ {} program.entry
    let alone := taskContext ⟨program.nodes, registry⟩ {}
    let written := functions program registry
    written.1 = mainFunction main.lines ∧
      written.2.1 = program.tasks.map (fun task => taskFunction task (alone task).lines) ∧
      written.2.2.imports =
        main.imports.mergeAll (program.tasks.map fun task => (alone task).imports) ∧
      written.2.2.diagnostics.warnings = main.diagnostics.warnings ++
        program.tasks.flatMap fun task => (alone task).diagnostics.warnings := by
  intro main alone written
  have hstandard : Imports.Standard { main with lines := [] }.imports :=
    runWalk_standard hplain program.entry
  exact ⟨rfl, emitTasks_apart hplain program.tasks hstandard⟩

/-- The script of a program is put together in the same way. -/
theorem assemble_apart (hplain : Setting.Plain ⟨program.nodes, registry⟩) :
    let main := runWalk ⟨program.nodes, registry⟩ {} program.entry
    let alone := taskContext ⟨program.nodes, registry⟩ {}
    let imports := main.imports.mergeAll (program.tasks.map fun task => (alone task).imports)
    assemble program registry =
      { fileId := program.fileId
        source := joinLines (fileLines program.fileId imports (mainFunction main.lines)
          (program.tasks.map fun task => taskFunction task (alone task).lines))
        warnings := main.diagnostics.warnings ++
          program.tasks.flatMap fun task => (alone task).diagnostics.warnings } := by
  intro main alone imports
  obtain ⟨hmain, hblocks, himports, hwarnings⟩ := functions_apart hplain
  have hscript : assemble program registry =
      ⟨program.fileId, joinLines (fileLines program.fileId (functions program registry).2.2.imports
        (functions program registry).1 (functions program registry).2.1),
        (functions program registry).2.2.diagnostics.warnings⟩ := rfl
  rw [hscript, hmain, hblocks, himports, hwarnings]

/-- The functions of a program are the main function and then, for every task, the function that the
task has in a program where it is the only one. The warnings are those of the main function and then of
the tasks by themselves. The file imports what the main function or a task by itself imports, each
symbol under its own name. -/
theorem tasks_written_independently (program : Program) (registry : Registry)
    (hplain : Setting.Plain ⟨program.nodes, registry⟩) :
    let main := runWalk ⟨program.nodes, registry⟩ {} program.entry
    let alone := taskContext ⟨program.nodes, registry⟩ {}
    let blocks := program.tasks.map fun task => taskFunction task (alone task).lines
    let imports := main.imports.mergeAll (program.tasks.map fun task => (alone task).imports)
    ((functions program registry).1 = mainFunction main.lines ∧
      (functions program registry).2.1 = blocks ∧
      (functions program registry).2.2.imports = imports) ∧
    (∀ task, let single := functions { program with tasks := [task] } registry
      single.1 = mainFunction main.lines ∧
        single.2.1 = [taskFunction task (alone task).lines] ∧
        single.2.2.diagnostics.warnings =
          main.diagnostics.warnings ++ (alone task).diagnostics.warnings) ∧
    (assemble program registry).source =
      joinLines (fileLines program.fileId imports (mainFunction main.lines) blocks) ∧
    (assemble program registry).warnings = main.diagnostics.warnings ++
      program.tasks.flatMap (fun task => (alone task).diagnostics.warnings) ∧
    ∀ module symbol localName, imports.localName? module symbol = some localName ↔
      localName = symbol ∧ (main.imports.Has module symbol ∨
        ∃ task ∈ program.tasks, (alone task).imports.Has module symbol) := by
  intro main alone blocks imports
  obtain ⟨hmain, hblocks, himports, -⟩ := functions_apart hplain
  have hscript := assemble_apart hplain
  have hstandard : ∀ other ∈ program.tasks.map (fun task => (alone task).imports), other.Standard := by
    intro other hother
    obtain ⟨task, -, rfl⟩ := List.mem_map.1 hother
    exact (taskContext_alone hplain (runWalk_standard hplain program.entry) task).standard
  obtain ⟨hunion, hhas⟩ := (runWalk_standard hplain program.entry).mergeAll_spec hstandard
  refine ⟨⟨hmain, hblocks, himports⟩, fun task => ?_, by rw [hscript], by rw [hscript],
    fun module symbol localName => ?_⟩
  · -- The program with one task has the same nodes, so it is put together in the same way.
    have hsingle : Setting.Plain ⟨{ program with tasks := [task] }.nodes, registry⟩ := hplain
    obtain ⟨hmain, hblock, -, hwarnings⟩ := functions_apart hsingle
    exact ⟨hmain, hblock, hwarnings.trans (by simp [main, alone])⟩
  · rw [hunion.localName?_eq_some_iff, hhas]
    simp only [List.mem_map, exists_exists_and_eq_and, main, alone]

/-- A main function and two tasks that lead to one node and import different functions on the way,
and a task without a body. -/
def errands : Program where
  fileId := "errands"
  entry := "start"
  nodes := .ofList [
    ("start", { id := "start", kind := .start, outputs := ["move"] }),
    ("near", { id := "near", kind := .best {}, outputs := ["move"] }),
    ("far", { id := "far", kind := .best { strategy := .path }, outputs := ["near"] }),
    ("move", { id := "move", kind := .move {} })]
  tasks := [⟨"haul", [], some "near", "start"⟩, ⟨"scout", [], some "far", "start"⟩,
    ⟨"idle", [], none, "start"⟩]

/-- The second task is written as if it were the only one, and the file imports what it imports. -/
theorem errands_written_independently :
    (Setting.mk errands.nodes .empty).Plain ∧
      (functions errands .empty).2.1[1]? =
        (functions { errands with tasks := [⟨"scout", [], some "far", "start"⟩] } .empty).2.1[0]? ∧
      (functions errands .empty).2.2.imports.localName? "./lib/position" "findClosestByPath" =
        some "findClosestByPath" := by
  have hplain : (Setting.mk errands.nodes .empty).Plain := by decide +kernel
  have hmem : ⟨"scout", [], some "far", "start"⟩ ∈ errands.tasks := List.mem_of_getElem? (i := 1) rfl
  have hscout : (taskContext ⟨errands.nodes, .empty⟩ {} ⟨"scout", [], some "far", "start"⟩).imports.Has
      "./lib/position" "findClosestByPath" := by decide +kernel
  obtain ⟨⟨-, hblocks, himports⟩, hsingle, -, -, hunion⟩ :=
    tasks_written_independently errands .empty hplain
  refine ⟨hplain, ?_, ?_⟩
  · rw [hblocks, (hsingle _).2.1]
    rfl
  · rw [himports, hunion]
    exact ⟨rfl, .inr ⟨_, hmem, hscout⟩⟩

end TickScript.Emission
