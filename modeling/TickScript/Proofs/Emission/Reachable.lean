import TickScript.Proofs.Emission.Tasks
import TickScript.Proofs.Program

/-!
# What a script depends on

`Program.Reaches` says which ids can be reached from the entry of a program and from the bodies of its
tasks, along the outputs and all slots of nodes. No function looks at a node under any other id, neither
when it is written nor when shared continuations are searched for. So two programs whose tables hold
the same under the ids that can be reached give one script.
-/

namespace TickScript

/-- An id can be reached from the entry or from the body of a task, along flow outputs and the heads
of slots, whether or not the slots are written. -/
inductive Program.Reaches (program : Program) : String → Prop where
  | entry : Reaches program program.entry
  | body {task : Task} {id : String} : task ∈ program.tasks → task.entry = some id →
      Reaches program id
  | output {id next : String} {node : Node} : Reaches program id →
      program.nodes.get? id = some node → next ∈ node.outputs → Reaches program next
  | head {id next : String} {node : Node} : Reaches program id →
      program.nodes.get? id = some node → next ∈ node.children → Reaches program next

/-- The tables of programs that hold the same under all ids that can be reached agree on these. -/
theorem Program.Reaches.agree {program other : Program}
    (h : ∀ id, program.Reaches id → other.nodes.get? id = program.nodes.get? id) :
    program.nodes.Agree program.Reaches other.nodes where
  same := h
  outputs := fun _ _ hid hnode _ hnext => .output hid hnode hnext
  children := fun _ _ hid hnode _ hnext => .head hid hnode hnext

namespace Emission

variable {program other : Program}

/-- The main functions of programs that agree on what can be reached come to the same. -/
theorem main_beside (h : program.nodes.Agree program.Reaches other.nodes) :
    (runWalk ⟨program.nodes, .empty⟩ {} program.entry).Beside (fun _ _ => False)
      (runWalk ⟨other.nodes, .empty⟩ {} program.entry) :=
  runWalk_beside h (.empty _) (.empty _) (.refl .empty) .entry

/-- So do the tasks by themselves. -/
theorem task_beside (h : program.nodes.Agree program.Reaches other.nodes) {task : Task}
    (htask : task ∈ program.tasks) :
    (taskContext ⟨program.nodes, .empty⟩ {} task).Beside (fun _ _ => False)
      (taskContext ⟨other.nodes, .empty⟩ {} task) := by
  have hchild : (Context.child {}).Beside (fun _ _ => False) (Context.child {}) := .refl .empty
  exact taskContext_beside h (.empty _) (.empty _) hchild fun _ => .body htask

/-- Two programs without defects that have the same name, entry and tasks and hold the same nodes under
all ids that can be reached give the same script, with the same warnings. -/
theorem script_depends_on_reachable (program other : Program) (hfileId : other.fileId = program.fileId)
    (hentry : other.entry = program.entry) (htasks : other.tasks = program.tasks)
    (hdefects : program.defects = []) (hdefects' : other.defects = [])
    (hsame : ∀ id, program.Reaches id → other.nodes.get? id = program.nodes.get? id) :
    ∃ script, emitProgram program .empty = .ok script ∧ emitProgram other .empty = .ok script := by
  have hagree := Program.Reaches.agree hsame
  have hmain := main_beside hagree
  have htask (task : Task) (h : task ∈ program.tasks) := task_beside hagree h
  have hscript : assemble other .empty = assemble program .empty := by
    rw [assemble_apart (.empty program.nodes), assemble_apart (.empty other.nodes),
      hfileId, hentry, htasks, hmain.lines, hmain.diagnostics, hmain.imports_eq]
    have hlines : program.tasks.map (fun task =>
        taskFunction task (taskContext ⟨other.nodes, .empty⟩ {} task).lines) =
          program.tasks.map fun task =>
            taskFunction task (taskContext ⟨program.nodes, .empty⟩ {} task).lines :=
      List.map_congr_left fun task h => by rw [(htask task h).lines]
    have himports : program.tasks.map (fun task =>
        (taskContext ⟨other.nodes, .empty⟩ {} task).imports) =
          program.tasks.map fun task => (taskContext ⟨program.nodes, .empty⟩ {} task).imports :=
      List.map_congr_left fun task h => (htask task h).imports_eq
    have hwarnings : program.tasks.flatMap (fun task =>
        (taskContext ⟨other.nodes, .empty⟩ {} task).diagnostics.warnings) =
          program.tasks.flatMap fun task =>
            (taskContext ⟨program.nodes, .empty⟩ {} task).diagnostics.warnings :=
      List.flatMap_congr fun task h => by rw [(htask task h).diagnostics]
    rw [hlines, himports, hwarnings]
  refine ⟨assemble program .empty, ?_, ?_⟩
  · rw [emitProgram, hdefects]
  · rw [emitProgram, hdefects', hscript]

/-- A gate whose body branches, and a task that begins inside of it. -/
def gatedJob : Program where
  fileId := "gated"
  entry := "start"
  nodes := Walk.gatedDiamond
  tasks := [⟨"job", [], some "right", "start"⟩]

/-- The same program with a further node, which leads to others but cannot be reached. -/
def clutteredJob : Program :=
  { gatedJob with
    nodes := gatedJob.nodes.insert "spare"
      { id := "spare", kind := .search {}, outputs := ["start", "join", "lost"] } }

/-- The further node makes no difference. -/
theorem clutteredJob_same_script :
    gatedJob.nodes.contains "spare" = false ∧ clutteredJob.nodes.contains "spare" = true ∧
      ∃ script, emitProgram gatedJob .empty = .ok script ∧
        emitProgram clutteredJob .empty = .ok script := by
  have hnone : ∀ node ∈ gatedJob.nodes.values,
      "spare" ∉ node.outputs ∧ "spare" ∉ node.children := by decide +kernel
  have hreached {id : String} (h : gatedJob.Reaches id) : id ≠ "spare" := by
    cases h with
    | entry => decide
    | body htask hid =>
        obtain rfl := List.mem_singleton.1 htask
        cases hid
        decide
    | output _ hnode hnext =>
        rintro rfl
        exact (hnone _ (Keyed.mem_values_of_get? hnode)).1 hnext
    | head _ hnode hnext =>
        rintro rfl
        exact (hnone _ (Keyed.mem_values_of_get? hnode)).2 hnext
  refine ⟨by decide +kernel, by decide +kernel, ?_⟩
  exact script_depends_on_reachable gatedJob clutteredJob rfl rfl rfl (by decide +kernel)
    (by decide +kernel) fun id h => Keyed.get?_insert_of_ne (hreached h)

end Emission

end TickScript
