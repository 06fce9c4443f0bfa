import Mathlib.Data.List.Forall2
import Mathlib.Data.List.Nodup
import TickScript.Proofs.Emission.Values
import TickScript.Proofs.Program

/-!
# Calls of tasks

Every call of a task is one line, and a function has these lines in the order in which its walk comes
to the calls. `CallsWritten` is the invariant of walks behind this. A call names the identifier of a
task, and so does the function of the task, but different tasks may have the same identifier:
`calls_name_alike_tasks` says which functions a call can mean.
-/

namespace TickScript

open TickScript.Emission

/-- A line calls the function of a task and holds the result in a temporary constant. -/
def Emission.Line.CallsTask (line : Line) (task : String) : Prop :=
  ∃ (number : Nat) (args : String), line.text =
    "const task_" ++ Nat.repr number ++ " = " ++ Text.taskIdentifier task ++ "(" ++ args ++ ");"

/-! ## One call -/

/-- To ask for an input does not write anything. -/
theorem Emission.Emit.input_lines (node : Node) (name : String) (fallback : Literal)
    (context : Context) : ((input node name fallback).run context).2.lines = context.lines :=
  congrArg Prod.fst (input_page node name fallback context)

/-- A call is one line. -/
theorem Kind.TaskCall.emit_lines (settings : TaskCall) (node : Node) (context : Context) :
    ∃ line, line.CallsTask (settings.task.getD "") ∧
      ((settings.emit node).run context).2.lines = context.lines ++ [line] := by
  let actor := (Emit.actorInput node).run context
  have hactor : actor.2.lines = context.lines := Emit.input_lines ..
  let args := (Emit.input node "args" (arguments settings.args actor.1)).run actor.2
  have hargs : args.2.lines = actor.2.lines := Emit.input_lines ..
  have htext (number identifier args : String) :
      "const " ++ ("task" ++ "_" ++ number) ++ " = " ++ (identifier ++ "(" ++ args ++ ")") ++ ";" =
        "const task_" ++ number ++ " = " ++ identifier ++ "(" ++ args ++ ");" := by
    simp [← String.toList_inj]
  exact ⟨⟨args.2.indent, _⟩, ⟨args.2.temps + 1, args.1, htext _ _ _⟩,
    congrArg (· ++ _) (hargs.trans hactor)⟩

/-! ## The calls of a walk -/

namespace Emission

namespace Walk

/-- The tasks that the nodes written by a walk call, in the order of the calls. -/
def called (table : NodeTable) (trace : List Event) : List String :=
  (dispatched trace).reverse.filterMap fun id => do
    let node ← table.get? id
    Program.calledTask? node.kind

/-- The lines have a call for every one that a walk has come to, in the same order. -/
def CallsWritten (table : NodeTable) (state : State) : Prop :=
  (called table state.trace).SublistForall₂ (fun task line => line.CallsTask task)
    state.context.lines

section Written

variable {table : NodeTable} {state final : State}

/-- The calls stay written when lines are added. -/
theorem CallsWritten.grows (h : CallsWritten table state)
    (hcalled : called table final.trace = called table state.trace)
    (hgrows : state.context.Grows final.context) : CallsWritten table final := by
  obtain ⟨written, hlines, -⟩ := hgrows.lines
  obtain ⟨lines, hcalls, hsub⟩ := List.sublistForall₂_iff.1 h
  refine List.sublistForall₂_iff.2 ⟨lines, hcalled ▸ hcalls, ?_⟩
  rw [hlines]
  exact hsub.trans (List.sublist_append_left _ _)

/-- One more call is written. -/
theorem CallsWritten.concat {task : String} {line : Line} (h : CallsWritten table state)
    (hcalled : called table final.trace = called table state.trace ++ [task])
    (hlines : final.context.lines = state.context.lines ++ [line]) (hline : line.CallsTask task) :
    CallsWritten table final := by
  obtain ⟨lines, hcalls, hsub⟩ := List.sublistForall₂_iff.1 h
  refine List.sublistForall₂_iff.2 ⟨lines ++ [line], ?_, ?_⟩
  · rw [hcalled]
    exact List.rel_append hcalls (.cons hline .nil)
  · rw [hlines]
    exact hsub.append (List.Sublist.refl _)

end Written

/-- The law that no call is left out. -/
def callLaw (table : NodeTable) : Law table where
  Related := fun state final =>
    Composes table state.context final.context ∧ (CallsWritten table state → CallsWritten table final)
  refl := fun state => ⟨.done state.context, id⟩
  trans := fun hfirst hlater => ⟨hfirst.1.trans hlater.1, hlater.2 ∘ hfirst.2⟩
  grows := fun h => h.1.grows
  context := fun _ _ h => ⟨h, fun hcalls => hcalls.grows rfl h.grows⟩
  deeper := fun h => ⟨.deeper h.1 (.done _), fun hcalls => h.2 hcalls⟩

variable {setting : Setting} {follow : String → Walk Unit} {id : String} {node : Node} (state : State)

/-- A node that is written adds its call to those of the walk, if it is one. -/
theorem called_opened (hnode : setting.table.get? id = some node) :
    called setting.table (state.opened setting id node).trace =
      called setting.table state.trace ++ (Program.calledTask? node.kind).toList := by
  change (id :: dispatched state.trace).reverse.filterMap _ = _
  rw [List.reverse_cons, List.filterMap_append]
  cases htask : Program.calledTask? node.kind <;> simp [called, hnode, htask]

/-- The statements of a call are those of its emitter. -/
theorem after_dispatch_taskCall {settings : Kind.TaskCall} (hkind : node.kind = .taskCall settings)
    (branch : List String → Walk Unit) :
    after (dispatch setting branch node) state =
      { state with context := ((settings.emit node).run state.context).2 } := by
  unfold dispatch
  rw [hkind]
  rfl

/-- The statements of a node write its call, if it is one. -/
theorem dispatch_calls (hplain : setting.isPlain node = true)
    (hnode : setting.table.get? id = some node)
    (hfollow : ∀ id, Obeys (callLaw setting.table) (follow id)) :
    (callLaw setting.table).Related state
      (after (dispatch setting (·.forM follow) node) (state.opened setting id node)) := by
  have hcalled := called_opened state hnode
  obtain ⟨hcomposes, hkept⟩ :=
    (dispatch_obeys hplain (Keyed.mem_values_of_get? hnode) (fun _ => .forM hfollow)
      (state.opened setting id node) trivial).1
  refine ⟨hcomposes, fun hcalls => ?_⟩
  cases htask : Program.calledTask? node.kind with
  | none =>
      rw [htask, Option.toList_none, List.append_nil] at hcalled
      exact hkept (hcalls.grows hcalled (.refl _))
  | some task =>
      -- The call is owed from the moment the node is noted until its line is written.
      unfold Program.calledTask? at htask
      split at htask
      · next settings hkind =>
        cases htask
        rw [hkind] at hcalled
        obtain ⟨line, hline, hlines⟩ := settings.emit_lines node state.context
        rw [after_dispatch_taskCall _ hkind]
        exact hcalls.concat hcalled hlines hline
      · cases htask

/-- A walk writes all calls that it comes to, in order. -/
theorem walk_calls (hplain : setting.Plain) (context : Context) (entry : String) :
    CallsWritten setting.table (after (walk setting entry) { context }) := by
  have hvisit : Obeys (callLaw setting.table) (visit setting (setting.table.size + 1) entry) := by
    refine @visit_obeys setting (callLaw setting.table) (fun _ state => ⟨.done state.context, id⟩)
      (fun _ state => ⟨.done state.context, id⟩) ?_ _ _
    intro follow hfollow id node state hnode
    exact write_obeys id (state.enter id) (hplain.isPlain hnode) hfollow
      (dispatch_calls (state.enter id) (hplain.isPlain hnode) hnode hfollow)
  exact (hvisit { context } trivial).1.2 .nil

end Walk

/-! ## The functions of a program -/

/-- The state in which the body of a task is finished. -/
def taskState (setting : Setting) (parent : Context) (task : Task) : Walk.State :=
  match task.entry with
  | some entry => Walk.after (Walk.walk setting entry) { context := parent.child }
  | none => { context := taskContext setting parent task }

/-- The states in which tasks that are written one after the other are finished. -/
def taskStates (setting : Setting) (context : Context) : List Task → List Walk.State
  | [] => []
  | task :: tasks =>
    let final := taskState setting context task
    final :: taskStates setting (context.absorb final.context) tasks

/-- The states in which the functions of a program are finished, that of the main function first. -/
def functionStates (program : Program) (registry : Registry) : List Walk.State :=
  let setting : Setting := ⟨program.nodes, registry⟩
  let main := Walk.after (Walk.walk setting program.entry) {}
  main :: taskStates setting { main.context with lines := [] } program.tasks

theorem taskState_context (setting : Setting) (parent : Context) (task : Task) :
    (taskState setting parent task).context = taskContext setting parent task := by
  unfold taskState
  split
  · next hentry =>
    rw [taskContext, hentry]
    rfl
  · rfl

theorem taskStates_contexts (setting : Setting) (context : Context) (tasks : List Task) :
    (taskStates setting context tasks).map (·.context) = taskContexts setting context tasks := by
  induction tasks generalizing context with
  | nil => rfl
  | cons task tasks ih =>
      simp only [taskStates, taskContexts, List.map_cons, taskState_context, ih]

/-- The bodies of the functions of a program are the lines of these states. -/
theorem functionStates_lines (program : Program) (registry : Registry) :
    (functions program registry).1.body :: (functions program registry).2.1.map (·.body) =
      (functionStates program registry).map (·.context.lines) := by
  have hcontexts : (functionStates program registry).map (·.context) =
      functionContexts program registry :=
    congrArg (List.cons _) (taskStates_contexts _ _ _)
  rw [functions_bodies, ← hcontexts, List.map_map]
  rfl

variable {program : Program} {registry : Registry}

theorem taskStates_calls {setting : Setting} (hplain : setting.Plain) (context : Context)
    (tasks : List Task) :
    ∀ state ∈ taskStates setting context tasks, Walk.CallsWritten setting.table state := by
  induction tasks generalizing context with
  | nil => simp [taskStates]
  | cons task tasks ih =>
      refine List.forall_mem_cons.2 ⟨?_, ih _⟩
      unfold taskState
      split
      · exact Walk.walk_calls hplain _ _
      · exact .nil

/-- Every function has the calls that its walk came to. -/
theorem functionStates_calls (hplain : (Setting.mk program.nodes registry).Plain) :
    ∀ state ∈ functionStates program registry, Walk.CallsWritten program.nodes state :=
  List.forall_mem_cons.2 ⟨Walk.walk_calls hplain _ _, taskStates_calls hplain _ _⟩

/-- The functions of tasks have the identifiers of the tasks. -/
theorem emitTasks_headers (setting : Setting) (context : Context) (tasks : List Task) :
    (emitTasks setting context tasks).1.map (·.header) =
      tasks.map fun task => "function " ++ Text.taskIdentifier task.name ++ "(args)" := by
  induction tasks generalizing context with
  | nil => rfl
  | cons task tasks ih => exact congrArg (List.cons _) (ih _)

/-- The headers of the functions of tasks differ exactly if no two names are alike. -/
theorem headers_nodup_iff (tasks : List Task) :
    (tasks.map fun task => "function " ++ Text.taskIdentifier task.name ++ "(args)").Nodup ↔
      tasks.Pairwise fun task other => ¬ Text.Alike task.name other.name := by
  rw [List.Nodup, List.pairwise_map]
  refine Iff.of_eq (congrArg (List.Pairwise · tasks) ?_)
  funext task other
  rw [Ne, String.append_left_inj, String.append_right_inj, Text.taskIdentifier_eq_iff]

/-- A program without defects has a function for every task, and every function calls tasks in the
order in which its walk comes to the calls. The task that a call names is the only one of its name,
but the identifier in the call is that of all tasks with names alike, so that the functions of tasks
differ exactly if no two names are alike. -/
theorem calls_name_alike_tasks (program : Program) (registry : Registry)
    (hdefects : program.defects = []) (hplain : (Setting.mk program.nodes registry).Plain) :
    let written := (functions program registry).2.1
    (written.map (·.header) =
      program.tasks.map fun task => "function " ++ Text.taskIdentifier task.name ++ "(args)") ∧
    ((written.map (·.header)).Nodup ↔
      program.tasks.Pairwise fun task other => ¬ Text.Alike task.name other.name) ∧
    ((functions program registry).1.body :: written.map (·.body) =
      (functionStates program registry).map (·.context.lines)) ∧
    ∀ state ∈ functionStates program registry,
      (Walk.called program.nodes state.trace).SublistForall₂ (fun name line => line.CallsTask name)
        state.context.lines ∧
      ∀ name ∈ Walk.called program.nodes state.trace, ∃ task ∈ program.tasks, task.name = name ∧
        ∀ other ∈ program.tasks, (other.name = name → other = task) ∧
          (Text.taskIdentifier other.name = Text.taskIdentifier name ↔
            Text.Alike other.name name) := by
  obtain ⟨-, hnames, hknown⟩ := Program.defects_eq_nil_iff.1 hdefects
  have hheaders := emitTasks_headers ⟨program.nodes, registry⟩
    { runWalk ⟨program.nodes, registry⟩ {} program.entry with lines := [] } program.tasks
  refine ⟨hheaders, ?_, functionStates_lines program registry, fun state hstate => ?_⟩
  · exact hheaders ▸ headers_nodup_iff program.tasks
  · refine ⟨functionStates_calls hplain state hstate, fun name hname => ?_⟩
    obtain ⟨id, -, hcall⟩ := List.mem_filterMap.1 hname
    obtain ⟨node, hnode, htask⟩ := Option.bind_eq_some_iff.1 hcall
    obtain ⟨task, hmem, hsame⟩ :=
      List.mem_map.1 (hknown node (Keyed.mem_values_of_get? hnode) name htask)
    refine ⟨task, hmem, hsame, fun other hother => ⟨fun heq => ?_, ?_⟩⟩
    · exact List.inj_on_of_nodup_map hnames hother hmem (heq.trans hsame.symm)
    · exact Text.taskIdentifier_eq_iff other.name name

/-- The main function calls a task, which calls another one. -/
def relayedCalls : Program where
  fileId := "relay"
  entry := "start"
  nodes := .ofList [
    ("start", { id := "start", kind := .start, outputs := ["fill"] }),
    ("fill", { id := "fill", kind := .taskCall { task := some "fill up" } }),
    ("dump", { id := "dump", kind := .taskCall { task := some "dump" } }),
    ("first", { id := "first", kind := .taskDefine { name := some "fill up" }, outputs := ["dump"] }),
    ("second", { id := "second", kind := .taskDefine { name := some "dump" } })]
  tasks := [⟨"fill up", [], some "dump", "first"⟩, ⟨"dump", [], none, "second"⟩]

/-- The names of the two tasks are not alike, and the function of the first has a line that calls the
second. -/
theorem relayedCalls_distinct :
    relayedCalls.defects = [] ∧ (Setting.mk relayedCalls.nodes .empty).Plain ∧
      (relayedCalls.tasks.Pairwise fun task other => ¬ Text.Alike task.name other.name) ∧
      ∃ state ∈ functionStates relayedCalls .empty,
        ∃ line ∈ state.context.lines, line.CallsTask "dump" := by
  have hdefects : relayedCalls.defects = [] := by decide +kernel
  have hplain : (Setting.mk relayedCalls.nodes .empty).Plain := by decide +kernel
  have hheaders : ((functions relayedCalls .empty).2.1.map (·.header)).Nodup := by decide +kernel
  obtain ⟨-, hdistinct, -, hcalls⟩ := calls_name_alike_tasks relayedCalls .empty hdefects hplain
  have hsecond : ∃ state ∈ functionStates relayedCalls .empty,
      Walk.called relayedCalls.nodes state.trace = ["dump"] := by
    decide +kernel
  obtain ⟨state, hstate, hcalled⟩ := hsecond
  have hwritten := (hcalls state hstate).1
  rw [hcalled] at hwritten
  obtain ⟨lines, hlines, hsub⟩ := List.sublistForall₂_iff.1 hwritten
  cases hlines with
  | cons hline _ =>
      exact ⟨hdefects, hplain, hdistinct.1 hheaders, state, hstate, _,
        hsub.subset List.mem_cons_self, hline⟩

/-- Two tasks whose names differ in a blank and an underscore, and a call of the first. -/
def twinTasks : Program where
  fileId := "twins"
  entry := "start"
  nodes := .ofList [
    ("start", { id := "start", kind := .start, outputs := ["call"] }),
    ("call", { id := "call", kind := .taskCall { task := some "a b" } }),
    ("one", { id := "one", kind := .taskDefine { name := some "a b" }, outputs := ["up"] }),
    ("two", { id := "two", kind := .taskDefine { name := some "a_b" }, outputs := ["find"] }),
    ("up", { id := "up", kind := .upgrade {} }),
    ("find", { id := "find", kind := .search {} })]
  tasks := [⟨"a b", [], some "up", "one"⟩, ⟨"a_b", [], some "find", "two"⟩]

/-- Both functions have the identifier that is called. -/
theorem twinTasks_share_identifier :
    twinTasks.defects = [] ∧ (Setting.mk twinTasks.nodes .empty).Plain ∧
      (functions twinTasks .empty).2.1.map (·.header) =
        ["function task_a_b(args)", "function task_a_b(args)"] ∧
      (functions twinTasks .empty).1.body =
        [⟨0, "const task_1 = task_a_b(\x7b creep: creep \x7d);"⟩] := by
  decide +kernel

end Emission

end TickScript
