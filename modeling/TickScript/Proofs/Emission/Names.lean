import TickScript.Proofs.Emission.Imports
import TickScript.Proofs.Emission.Values

/-!
# Temporary names

A function may give its temporaries any names but those of its parameter, of the imports and of the
functions of tasks, which it could not use otherwise. `Context.Named` says what temporary names and
aliases look like, and `functionContexts_named` that they do in every function.
`temporaries_avoid_other_names` compares them: only a task that is called by a number can get into
the way.
-/

namespace TickScript.Emission

/-- The temporary names of a context are numbered words, and its imports are library functions. -/
structure Context.Named (context : Context) : Prop where
  names : ∀ name ∈ context.names, ∃ stem number, Text.isStem stem = true ∧
    name = stem ++ "_" ++ Nat.repr number
  imports : context.imports.Within helpers

/-- The parameters of the functions. -/
def parameters : List String := ["creep", "args"]

variable {table : NodeTable} {context final : Context}

/-! ## Names of statements -/

/-- Statements keep the names as they should be. -/
theorem Composes.named (h : Composes table context final) (hnamed : context.Named) :
    final.Named := by
  induction h with
  | done => exact hnamed
  | say _ _ ih => exact ih ⟨hnamed.names, hnamed.imports⟩
  | deeper _ _ ihbody ih =>
      have hbody := ihbody ⟨hnamed.names, hnamed.imports⟩
      exact ih ⟨hbody.names, hbody.imports⟩
  | fresh stem hstem _ ih =>
      exact ih ⟨List.forall_mem_cons.2 ⟨⟨stem, _, hstem, rfl⟩, hnamed.names⟩, hnamed.imports⟩
  | require _ _ hsymbol _ ih => exact ih ⟨hnamed.names, hnamed.imports.require hsymbol⟩
  | warn _ _ _ ih => exact ih ⟨hnamed.names, hnamed.imports⟩
  | found _ _ _ _ _ _ ih => exact ih ⟨hnamed.names, hnamed.imports⟩
  | missed _ _ _ _ _ ih => exact ih ⟨hnamed.names, hnamed.imports⟩
  | standIn _ _ _ _ _ _ ih => exact ih ⟨hnamed.names, hnamed.imports⟩
  | warned _ _ _ _ _ _ _ ih => exact ih ⟨hnamed.names, hnamed.imports⟩
  | record _ _ _ _ _ ih => exact ih ⟨hnamed.names, hnamed.imports⟩

/-! ## Names of functions -/

variable {setting : Setting} {program : Program} {registry : Registry}

theorem runWalk_named (hplain : setting.Plain) (h : context.Named) (entry : String) :
    (runWalk setting context entry).Named :=
  (Walk.visit_writes hplain (setting.table.size + 1) entry { context } trivial).1.named h

/-- A task begins without names and with the imports made so far. -/
theorem taskContext_named (hplain : setting.Plain) (h : context.imports.Within helpers)
    (task : Task) : (taskContext setting context task).Named := by
  have hchild : context.child.Named := ⟨by simp [Context.child], h⟩
  unfold taskContext
  split
  · exact runWalk_named hplain hchild _
  · exact ⟨hchild.names, hchild.imports⟩

/-- Tasks that are written one after the other import library functions only. -/
theorem emitTasks_named (hplain : setting.Plain) (tasks : List Task)
    (h : context.imports.Within helpers) :
    (∀ child ∈ taskContexts setting context tasks, child.Named) ∧
      (emitTasks setting context tasks).2.imports.Within helpers := by
  induction tasks generalizing context with
  | nil => exact ⟨by simp [taskContexts], h⟩
  | cons task tasks ih =>
      have hchild := taskContext_named hplain h task
      obtain ⟨hchildren, himports⟩ :=
        @ih (context.absorb (taskContext setting context task)) (h.merge hchild.imports)
      exact ⟨List.forall_mem_cons.2 ⟨hchild, hchildren⟩, himports⟩

/-- The names of all functions are as they should be, and so are the imports of the file. -/
theorem functionContexts_named (hplain : (Setting.mk program.nodes registry).Plain) :
    (∀ context ∈ functionContexts program registry, context.Named) ∧
      (functions program registry).2.2.imports.Within helpers := by
  have hmain : (runWalk ⟨program.nodes, registry⟩ {} program.entry).Named :=
    runWalk_named hplain ⟨by simp, .empty helpers⟩ _
  obtain ⟨htasks, himports⟩ := @emitTasks_named
    { runWalk ⟨program.nodes, registry⟩ {} program.entry with lines := [] } _ hplain program.tasks
    hmain.imports
  exact ⟨List.forall_mem_cons.2 ⟨hmain, htasks⟩, himports⟩

/-! ## Comparisons -/

section Comparison

variable {stem : String} {number : Nat}

/-- A temporary name has an underscore. -/
theorem temporary_ne {name : String} (h : '_' ∉ name.toList) :
    stem ++ "_" ++ Nat.repr number ≠ name := by
  rintro rfl
  simp at h

/-- A temporary name is not the alias of a library function. -/
theorem temporary_ne_numbered (hstem : Text.isStem stem = true) {symbol : String}
    (hsymbol : symbol ∈ helpers) (count : Nat) :
    stem ++ "_" ++ Nat.repr number ≠ Imports.numbered symbol count := by
  -- The names of library functions have capital letters and no underscores.
  have hplain : ∀ symbol ∈ helpers, '_' ∉ symbol.toList ∧ Text.isStem symbol = false := by decide
  obtain ⟨hunderscore, hcapital⟩ := hplain symbol hsymbol
  cases count with
  | zero => exact temporary_ne hunderscore
  | succ count =>
      intro heq
      obtain ⟨rfl, -⟩ := (Text.numbered_eq_iff (Text.underscore_not_mem_stem hstem)).1 heq
      rw [hstem] at hcapital
      cases hcapital

end Comparison

/-- No temporary name of a function is a parameter or an alias of the file. It is the identifier of a
task exactly if it is the name for the result of a call and its number is the name of the task. -/
theorem temporaries_avoid_other_names (program : Program) (registry : Registry)
    (hplain : (Setting.mk program.nodes registry).Plain) :
    ((functions program registry).1.body :: (functions program registry).2.1.map (·.body) =
      (functionContexts program registry).map (·.lines)) ∧
    (∀ (stem : String) (context : Context), let run := (Emit.fresh stem).run context
      run.2.names = run.1 :: context.names) ∧
    ∀ context ∈ functionContexts program registry, ∀ name ∈ context.names,
      name ∉ parameters ∧
      (∀ entry ∈ (functions program registry).2.2.imports.toList, name ≠ entry.2.2) ∧
      ∀ task ∈ program.tasks, name = Text.taskIdentifier task.name ↔
        ∃ number, name = "task_" ++ Nat.repr number ∧ task.name = Nat.repr number := by
  obtain ⟨hnamed, himports⟩ := functionContexts_named hplain
  refine ⟨functions_bodies program registry, fun _ _ => rfl, ?_⟩
  intro context hcontext name hname
  obtain ⟨stem, number, hstem, rfl⟩ := (hnamed context hcontext).names name hname
  refine ⟨?_, fun entry hentry => ?_, fun task _ => ?_⟩
  · have hparameters : ∀ parameter ∈ parameters, '_' ∉ parameter.toList := by decide
    exact fun hmem => temporary_ne (hparameters _ hmem) rfl
  · obtain ⟨hsymbol, count, halias⟩ := himports entry hentry
    rw [halias]
    exact temporary_ne_numbered hstem hsymbol count
  · rw [Text.numbered_eq_taskIdentifier_iff hstem]
    constructor
    · rintro ⟨rfl, htask⟩
      exact ⟨number, rfl, htask⟩
    · rintro ⟨other, hname, htask⟩
      change _ = "task" ++ "_" ++ Nat.repr other at hname
      obtain ⟨rfl, hnumber⟩ :=
        (Text.numbered_eq_iff (Text.underscore_not_mem_stem hstem)).1 hname
      exact ⟨rfl, hnumber ▸ htask⟩

/-- A task that is called by a number, and a call of it after a search. -/
def laterCall : Program where
  fileId := "later"
  entry := "start"
  nodes := .ofList [
    ("start", { id := "start", kind := .start, outputs := ["find"] }),
    ("find", { id := "find", kind := .search {}, outputs := ["call"] }),
    ("call", { id := "call", kind := .taskCall { task := some "1" } }),
    ("job", { id := "job", kind := .taskDefine { name := some "1" }, outputs := ["up"] }),
    ("up", { id := "up", kind := .upgrade {} })]
  tasks := [⟨"1", [], some "up", "job"⟩]

/-- The search takes the number of the task, so the call is safe. -/
theorem laterCall_names_apart :
    laterCall.defects = [] ∧ (Setting.mk laterCall.nodes .empty).Plain ∧
      ∃ context ∈ functionContexts laterCall .empty, "task_2" ∈ context.names ∧
        "task_2" ∉ parameters ∧ ∀ task ∈ laterCall.tasks, "task_2" ≠ Text.taskIdentifier task.name := by
  have hplain : (Setting.mk laterCall.nodes .empty).Plain := by decide +kernel
  have hnames : ∃ context ∈ functionContexts laterCall .empty, "task_2" ∈ context.names := by
    decide +kernel
  obtain ⟨context, hcontext, hname⟩ := hnames
  obtain ⟨hparameter, -, htasks⟩ :=
    (temporaries_avoid_other_names laterCall .empty hplain).2.2 context hcontext _ hname
  refine ⟨by decide +kernel, hplain, context, hcontext, hname, hparameter, fun task htask heq => ?_⟩
  obtain ⟨number, hnumber, hsame⟩ := (htasks task htask).1 heq
  obtain rfl : task = ⟨"1", [], some "up", "job"⟩ := List.mem_singleton.1 htask
  rw [← hsame] at hnumber
  exact absurd hnumber (by decide)

/-- A task that is called by a number, and a call of it before anything else. -/
def firstCall : Program where
  fileId := "first"
  entry := "start"
  nodes := .ofList [
    ("start", { id := "start", kind := .start, outputs := ["call"] }),
    ("call", { id := "call", kind := .taskCall { task := some "1" } }),
    ("job", { id := "job", kind := .taskDefine { name := some "1" }, outputs := ["up"] }),
    ("up", { id := "up", kind := .upgrade {} })]
  tasks := [⟨"1", [], some "up", "job"⟩]

/-- The result of the call has the name of the function, which the call then does not reach. -/
theorem firstCall_shadows_task :
    firstCall.defects = [] ∧ (Setting.mk firstCall.nodes .empty).Plain ∧
      (∃ context ∈ functionContexts firstCall .empty, ∃ task ∈ firstCall.tasks,
        Text.taskIdentifier task.name ∈ context.names) ∧
      (functions firstCall .empty).1.body =
        [⟨0, "const task_1 = task_1(\x7b creep: creep \x7d);"⟩] := by
  decide +kernel

end TickScript.Emission
