import Mathlib.Data.List.Forall2
import Mathlib.Logic.Function.Basic
import TickScript.Proofs.Emission.Composition
import TickScript.Proofs.Emission.Parallel
import TickScript.Proofs.Emission.Values
import TickScript.Proofs.Program

/-!
# Ids are names

An id tells nodes apart and has no other meaning. `Program.rename` gives the nodes of a program other
ids. The order of the table changes with it, but a walk does not look at that order: it looks nodes up,
and what several slots lead to is found in the order of the outputs. `Context.Renamed` relates what
two functions have written, and `visit_agrees` keeps two walks in step. `renamed_program_alike` says
that the scripts are the same and that their warnings differ only in the ids that they mention.
-/

namespace TickScript

/-! ## Tables and programs -/

/-- A table of nodes when nodes have other ids. -/
def NodeTable.rename (rename : String → String) (table : NodeTable) : NodeTable :=
  .ofList (table.entries.map fun entry => (rename entry.1, entry.2.rename rename))

/-- A task when nodes have other ids. -/
def Task.rename (rename : String → String) (task : Task) : Task :=
  { task with entry := task.entry.map rename, defineNode := rename task.defineNode }

/-- A program when nodes have other ids. -/
def Program.rename (rename : String → String) (program : Program) : Program where
  fileId := program.fileId
  entry := rename program.entry
  nodes := program.nodes.rename rename
  tasks := program.tasks.map (Task.rename rename)

variable {rename : String → String} (hinj : Function.Injective rename)

namespace NodeTable

variable (table : NodeTable)

include hinj

/-- A renamed table has the entries of the table, in whatever order. -/
theorem entries_rename_perm : (table.rename rename).entries.Perm
    (table.entries.map fun entry => (rename entry.1, entry.2.rename rename)) := by
  refine Keyed.entries_ofList_perm ?_
  rw [List.map_map]
  change (table.entries.map (rename ∘ (·.1))).Nodup
  rw [← List.map_map]
  exact table.keys_nodup.map hinj

/-- A renamed table has the nodes of the table, in whatever order. -/
theorem values_rename_perm :
    (table.rename rename).values.Perm (table.values.map (Node.rename rename)) := by
  have h := (table.entries_rename_perm hinj).map (·.2)
  rw [List.map_map] at h
  rw [Keyed.values, Keyed.values, List.map_map]
  exact h

theorem size_rename : (table.rename rename).size = table.size := by
  rw [Keyed.size, (table.entries_rename_perm hinj).length_eq, List.length_map, Keyed.size]

/-- Under a new id stands the renamed node. -/
theorem get?_rename (id : String) :
    (table.rename rename).get? (rename id) = (table.get? id).map (Node.rename rename) := by
  refine Option.ext fun node => ?_
  rw [Keyed.get?_eq_some_iff, (table.entries_rename_perm hinj).mem_iff, List.mem_map,
    Option.map_eq_some_iff]
  constructor
  · rintro ⟨⟨key, old⟩, hentry, heq⟩
    obtain ⟨hkey, rfl⟩ := Prod.mk.inj heq
    exact ⟨old, Keyed.get?_of_mem (hinj hkey ▸ hentry), rfl⟩
  · rintro ⟨old, hold, rfl⟩
    exact ⟨(id, old), Keyed.mem_entries_of_get? hold, rfl⟩

end NodeTable

/-- A renamed program has no defects if the program has none. -/
theorem Program.defects_rename {program : Program} (hinj : Function.Injective rename)
    (h : program.defects = []) : (program.rename rename).defects = [] := by
  obtain ⟨hstarts, htasks, hcalls⟩ := Program.defects_eq_nil_iff.1 h
  have hnames : (program.rename rename).tasks.map (·.name) = program.tasks.map (·.name) := by
    rw [Program.rename, List.map_map]
    rfl
  have hvalues := program.nodes.values_rename_perm hinj
  rw [Program.defects_eq_nil_iff, hnames]
  refine ⟨?_, htasks, fun node hnode task hcall => ?_⟩
  · have hperm := (hvalues.filter fun node => isStart node.kind).map (·.id)
    rw [List.filter_map, List.map_map] at hperm
    change (program.rename rename).starts.Perm
      ((program.nodes.values.filter fun node => isStart node.kind).map (rename ∘ (·.id))) at hperm
    rw [← List.map_map] at hperm
    change (program.rename rename).starts.Perm (program.starts.map rename) at hperm
    rw [hstarts] at hperm
    exact List.perm_singleton.1 hperm
  · obtain ⟨old, hold, rfl⟩ := List.mem_map.1 (hvalues.mem_iff.1 hnode)
    exact hcalls old hold task hcall

namespace Emission

/-! ## Join points -/

section Joins

variable (table : NodeTable)

include hinj

theorem contains_map (ids : List String) (id : String) :
    (ids.map rename).contains (rename id) = ids.contains id := by
  rw [Bool.eq_iff_iff, List.contains_iff_mem, List.contains_iff_mem]
  exact List.mem_map_of_injective hinj

theorem outputsOf_rename (id : String) :
    outputsOf (table.rename rename) (rename id) = (outputsOf table id).map rename := by
  unfold outputsOf
  rw [table.get?_rename hinj]
  cases table.get? id <;> rfl

theorem totalOutputs_rename : totalOutputs (table.rename rename) = totalOutputs table := by
  unfold totalOutputs
  have hcomm : ∀ first ∈ (table.rename rename).values, ∀ second ∈ (table.rename rename).values,
      ∀ total : Nat, total + first.outputs.length + second.outputs.length =
        total + second.outputs.length + first.outputs.length :=
    fun _ _ _ _ _ => Nat.add_right_comm _ _ _
  rw [(table.values_rename_perm hinj).foldl_eq' hcomm, List.foldl_map]
  simp [Node.rename]

/-- A search in a renamed table finds the new ids, in the order of the search in the table. -/
theorem explore_rename (barred : List String) (budget : Nat) (stack reached : List String) :
    explore (table.rename rename) (barred.map rename) budget (stack.map rename)
        (reached.map rename) =
      (explore table barred budget stack reached).map rename := by
  fun_induction explore table barred budget stack reached with
  | case1 => rfl
  | case2 => rfl
  | case3 budget id stack reached hseen ih =>
      rw [List.map_cons, explore, contains_map hinj, contains_map hinj, if_pos hseen, ih]
  | case4 budget id stack reached hseen ih =>
      have hreached : reached.map rename ++ [rename id] = (reached ++ [id]).map rename := by simp
      rw [List.map_cons, explore, contains_map hinj, contains_map hinj, if_neg hseen,
        outputsOf_rename hinj, ← List.map_append, hreached, ih]

theorem reachable_rename (barred heads : List String) :
    reachable (table.rename rename) (barred.map rename) (heads.map rename) =
      (reachable table barred heads).map rename := by
  unfold reachable
  rw [List.length_map, totalOutputs_rename hinj]
  exact explore_rename hinj table barred _ heads []

theorem firstOccurrences_rename (lists : List (List String)) :
    firstOccurrences (lists.map (·.map rename)) = (firstOccurrences lists).map rename := by
  have hfold (ids kept : List String) :
      ids.foldl (fun kept id => if kept.contains (rename id) then kept else kept ++ [rename id])
          (kept.map rename) =
        (ids.foldl (fun kept id => if kept.contains id then kept else kept ++ [id]) kept).map
          rename := by
    induction ids generalizing kept with
    | nil => rfl
    | cons id ids ih =>
        rw [List.foldl_cons, List.foldl_cons, contains_map hinj, ← ih]
        cases kept.contains id <;> simp
  unfold firstOccurrences
  rw [← List.map_flatten, List.foldl_map]
  exact hfold lists.flatten []

omit hinj in
theorem branches_rename (node : Node) :
    (node.rename rename).branches = node.branches.map (·.map rename) := by
  simp [Node.branches, Node.rename, Keyed.values, Keyed.mapValues, List.filter_map, Function.comp_def]

theorem sharedContinuations_rename (visited : List String) (node : Node) :
    sharedContinuations (table.rename rename) (visited.map rename) (node.rename rename) =
      (sharedContinuations table visited node).map rename := by
  have hreached : (node.rename rename).branches.map
      (reachable (table.rename rename) ((node.rename rename).id :: visited.map rename)) =
        (node.branches.map (reachable table (node.id :: visited))).map (·.map rename) := by
    rw [branches_rename, List.map_map, List.map_map]
    exact List.map_congr_left fun heads _ => reachable_rename hinj table (node.id :: visited) heads
  unfold sharedContinuations
  dsimp only
  rw [hreached, firstOccurrences_rename hinj, List.filter_map]
  refine congrArg (List.map rename) (List.filter_congr fun id _ => ?_)
  simp only [Function.comp_apply, List.countP_map, Function.comp_def, contains_map hinj]

end Joins

/-! ## Contexts -/

/-- A warning about a node, and the warning when nodes have other ids. The source of an input that is
missing is mentioned by its new id. -/
inductive Rewarned (rename : String → String) (table : NodeTable) : Diagnostic → Diagnostic → Prop where
  | same (id message : String) : ¬ TellsOfMissingValue message →
      Rewarned rename table ⟨some id, message⟩ ⟨some (rename id), message⟩
  | missing {node : Node} {name source port : String} : node ∈ table.values →
      node.input? name = some (.edge source port) →
        Rewarned rename table ⟨some node.id, missingValue source port⟩
          ⟨some (rename node.id), missingValue (rename source) port⟩

/-- Two contexts have come to the same, one of them with other ids. -/
structure Context.Renamed (rename : String → String) (table : NodeTable)
    (context context' : Context) : Prop where
  lines : context'.lines = context.lines
  indent : context'.indent = context.indent
  temps : context'.temps = context.temps
  values : context'.values = context.values.map fun entry => (rename entry.1, entry.2)
  imports : context'.imports = context.imports
  actor : context'.actor = context.actor
  warnings : List.Forall₂ (Rewarned rename table) context.diagnostics.warnings
    context'.diagnostics.warnings

variable {table : NodeTable}

namespace Context.Renamed

variable {context context' : Context}

include hinj in
/-- The value of a node is found under its new id. -/
theorem valueOf? (h : context.Renamed rename table context') (id : String) :
    context'.valueOf? (rename id) = context.valueOf? id := by
  unfold Context.valueOf?
  rw [h.values]
  induction context.values with
  | nil => rfl
  | cons entry entries ih =>
      rw [List.map_cons, List.lookup_cons, List.lookup_cons, ih]
      have hsame : (rename id == rename entry.1) = (id == entry.1) := by
        rw [Bool.eq_iff_iff, beq_iff_eq, beq_iff_eq]
        exact hinj.eq_iff
      rw [hsame]

theorem push (h : context.Renamed rename table context') (text : String) :
    (context.push text).Renamed rename table (context'.push text) :=
  { h with lines := by rw [Context.push, Context.push, h.lines, h.indent] }

theorem issue (h : context.Renamed rename table context') (stem : String) :
    (context.issue stem).Renamed rename table (context'.issue stem) :=
  { h with temps := congrArg (· + 1) h.temps }

theorem withImport (h : context.Renamed rename table context') (symbol module : String) :
    (context.withImport symbol module).Renamed rename table (context'.withImport symbol module) :=
  { h with imports := congrArg (fun imports : Imports => (imports.require symbol module).2) h.imports }

theorem warn (h : context.Renamed rename table context') {id id' message message' : String}
    (hwarning : Rewarned rename table ⟨some id, message⟩ ⟨some id', message'⟩) :
    (context.warn id message).Renamed rename table (context'.warn id' message') :=
  { h with warnings := List.rel_append h.warnings (.cons hwarning .nil) }

theorem record (h : context.Renamed rename table context') (id expr : String) :
    (context.record id expr).Renamed rename table (context'.record (rename id) expr) :=
  { h with values := by rw [Context.record, Context.record, h.values, List.map_cons] }

/-- What is remembered about the access to a value makes no difference. -/
theorem ask (h : context.Renamed rename table context') (consumer source port : String) :
    (context.ask consumer source port).Renamed rename table
      (context'.ask (rename consumer) (rename source) port) :=
  { h with }

theorem child (h : context.Renamed rename table context') :
    context.child.Renamed rename table context'.child :=
  ⟨rfl, rfl, rfl, rfl, h.imports, rfl, .nil⟩

theorem absorb (h : context.Renamed rename table context') {body body' : Context}
    (hbody : body.Renamed rename table body') :
    (context.absorb body).Renamed rename table (context'.absorb body') :=
  { h with
    imports := congrArg₂ Imports.merge h.imports hbody.imports
    warnings := List.rel_append h.warnings hbody.warnings }

end Context.Renamed

/-! ## Actions -/

/-- Two actions on contexts give the same result and come to the same, one of them with other ids. -/
def Emit.Agree (rename : String → String) (table : NodeTable) {α : Type} (action action' : Emit α) :
    Prop :=
  ∀ context context' : Context, context.Renamed rename table context' →
    (action'.run context').1 = (action.run context).1 ∧
      (action.run context).2.Renamed rename table (action'.run context').2

include hinj in
/-- The actions of statements agree with each other. -/
theorem Emit.Parallel.agree {node : Node} (hnode : node ∈ table.values) {α : Type}
    {action action' : Emit α} (h : Emit.Parallel rename node action action') :
    Emit.Agree rename table action action' := by
  induction h with
  | pure value => exact fun _ _ hcontext => ⟨rfl, hcontext⟩
  | @bind α β action action' next next' _ _ ih ihnext =>
      intro context context' hcontext
      obtain ⟨hvalue, hmiddle⟩ := ih context context' hcontext
      have hnext : Emit.Agree rename table (next (action.run context).1)
          (next' (action'.run context').1) := hvalue ▸ ihnext _
      exact hnext _ _ hmiddle
  | fresh stem =>
      intro context context' hcontext
      exact ⟨congrArg (fun temps => stem ++ "_" ++ Nat.repr (temps + 1)) hcontext.temps,
        hcontext.issue stem⟩
  | say text => exact fun _ _ hcontext => ⟨rfl, hcontext.push text⟩
  | enter =>
      exact fun _ _ hcontext => ⟨rfl, { hcontext with indent := congrArg (· + _) hcontext.indent }⟩
  | exit =>
      exact fun _ _ hcontext => ⟨rfl, { hcontext with indent := congrArg (· - _) hcontext.indent }⟩
  | require symbol module _ =>
      intro context context' hcontext
      exact ⟨congrArg (fun imports : Imports => (imports.require symbol module).1) hcontext.imports,
        hcontext.withImport symbol module⟩
  | actor => exact fun _ _ hcontext => ⟨hcontext.actor, hcontext⟩
  | warn message hmessage =>
      exact fun _ _ hcontext => ⟨rfl, hcontext.warn (.same _ _ hmessage)⟩
  | input name fallback =>
      intro context context' hcontext
      cases hport : node.input? name with
      | none =>
          have hrenamed : (node.rename rename).input? name = none := by simp [hport]
          rw [Emit.input_of_none hport, Emit.input_of_none hrenamed]
          exact ⟨rfl, { hcontext with }⟩
      | some port =>
          have hrenamed : (node.rename rename).input? name = some (port.rename rename) := by
            simp [hport]
          rw [Emit.input_of_some hport, Emit.input_of_some hrenamed]
          cases port with
          | literal value => exact ⟨rfl, hcontext⟩
          | edge source port =>
              rw [Port.rename, Emit.resolve_edge, Emit.resolve_edge,
                hcontext.valueOf? hinj]
              have hask := hcontext.ask node.id source port
              cases context.valueOf? source with
              | some expr => exact ⟨rfl, hask⟩
              | none => exact ⟨rfl, hask.warn (.missing hnode hport)⟩
  | produce expr => exact fun _ _ hcontext => ⟨rfl, hcontext.record node.id expr⟩

/-- Two walks have come to the same, one of them with other ids. -/
structure Walk.State.Renamed (rename : String → String) (table : NodeTable)
    (state state' : Walk.State) : Prop where
  context : state.context.Renamed rename table state'.context
  visited : state'.visited = state.visited.map rename
  joins : state'.joins = state.joins.map rename

namespace Walk

/-- Two actions of walks give the same result and come to the same, one of them with other ids. -/
def Agree (rename : String → String) (table : NodeTable) {α : Type} (action action' : Walk α) : Prop :=
  ∀ state state' : State, state.Renamed rename table state' →
    (action'.run state').1 = (action.run state).1 ∧
      (after action state).Renamed rename table (after action' state')

namespace Agree

variable {α β : Type} {action action' : Walk α}

theorem pure (value : α) : Agree rename table (Pure.pure value) (Pure.pure value) :=
  fun _ _ hstate => ⟨rfl, hstate⟩

theorem bind {next next' : α → Walk β} (haction : Agree rename table action action')
    (hnext : ∀ value, Agree rename table (next value) (next' value)) :
    Agree rename table (action >>= next) (action' >>= next') := by
  intro state state' hstate
  obtain ⟨hvalue, hmiddle⟩ := haction state state' hstate
  have hlater : Agree rename table (next (action.run state).1) (next' (action'.run state').1) :=
    hvalue ▸ hnext _
  exact hlater _ _ hmiddle

/-- Chains from a list of nodes. -/
theorem chains {follow follow' : String → Walk Unit}
    (hfollow : ∀ id, Agree rename table (follow id) (follow' (rename id))) (ids : List String) :
    Agree rename table (ids.forM follow) ((ids.map rename).forM follow') := by
  induction ids with
  | nil => exact .pure _
  | cons id ids ih => exact (hfollow id).bind fun _ => ih

end Agree

include hinj in
/-- Control structures agree with each other if the chains that they follow do. -/
theorem Parallel.agree {node : Node} (hnode : node ∈ table.values)
    {follow follow' : String → Walk Unit}
    (hfollow : ∀ id, Agree rename table (follow id) (follow' (rename id))) {α : Type}
    {action action' : Walk α} (h : Parallel rename node follow follow' action action') :
    Agree rename table action action' := by
  induction h with
  | pure value => exact .pure value
  | bind _ _ ih ihnext => exact ih.bind ihnext
  | lift h =>
      intro state state' hstate
      obtain ⟨hvalue, hcontext⟩ := h.agree hinj hnode _ _ hstate.context
      exact ⟨hvalue, { hstate with context := hcontext }⟩
  | chain id _ => exact hfollow id

include hinj in
theorem sharedAfter_rename (visited : List String) (node : Node) :
    sharedAfter ⟨table.rename rename, .empty⟩ (visited.map rename) (node.rename rename) =
      (sharedAfter ⟨table, .empty⟩ visited node).map rename := by
  unfold sharedAfter Node.hasBranches
  rw [branches_rename, List.isEmpty_map, sharedContinuations_rename hinj]
  split <;> rfl

include hinj

/-- The node under an id and all that follows it are written alike under other ids. -/
theorem write_agrees {node : Node} (hnode : node ∈ table.values) {follow follow' : String → Walk Unit}
    (hfollow : ∀ id, Agree rename table (follow id) (follow' (rename id))) (id : String) :
    Agree rename table (write ⟨table, .empty⟩ follow id node)
      (write ⟨table.rename rename, .empty⟩ follow' (rename id) (node.rename rename)) := by
  intro state state' hstate
  have hshared := @sharedAfter_rename rename hinj table state.visited node
  rw [← hstate.visited] at hshared
  have hwaiting : (if (node.rename rename).hasBranches then (node.rename rename).outputs ++
      sharedAfter ⟨table.rename rename, .empty⟩ state'.visited (node.rename rename) else []) =
        (if node.hasBranches then node.outputs ++ sharedAfter ⟨table, .empty⟩ state.visited node
          else []).map rename := by
    rw [hshared, Node.hasBranches, branches_rename, List.isEmpty_map, ← Node.hasBranches]
    split
    · exact List.map_append.symm
    · rfl
  have hopened : (state.opened ⟨table, .empty⟩ id node).Renamed rename table
      (state'.opened ⟨table.rename rename, .empty⟩ (rename id) (node.rename rename)) := by
    refine { hstate with joins := ?_ }
    change state'.joins ++ _ = (state.joins ++ _).map rename
    rw [hwaiting, hstate.joins, List.map_append]
  have hdispatch := @dispatch_parallel rename node follow follow' ⟨table, .empty⟩
    ⟨table.rename rename, .empty⟩ (isPlain_empty _ _) (isPlain_empty _ _)
  obtain ⟨-, hwritten⟩ := hdispatch.agree hinj hnode hfollow _ _ hopened
  have hresumed : ((after (dispatch ⟨table, .empty⟩ (·.forM follow) node)
      (state.opened ⟨table, .empty⟩ id node)).resume id (continuationOf node.kind)
        state.joins).Renamed rename table
          ((after (dispatch ⟨table.rename rename, .empty⟩ (·.forM follow') (node.rename rename))
            (state'.opened ⟨table.rename rename, .empty⟩ (rename id) (node.rename rename))).resume
              (rename id) (continuationOf node.kind) state'.joins) :=
    { hwritten with joins := hstate.joins }
  refine ⟨rfl, ?_⟩
  rw [after_write follow id state (isPlain_empty _ _),
    after_write follow' (rename id) state' (isPlain_empty _ _), hshared]
  change Walk.State.Renamed rename table _ (if node.kind.endsChain then _ else
    after ((node.outputs.map rename ++ _).forM follow') _)
  rw [← List.map_append]
  split
  · exact hresumed
  · exact (Agree.chains hfollow _ _ _ hresumed).2

/-- A visit of a node goes like one under another id. -/
theorem visit_agrees (budget : Nat) (id : String) :
    Agree rename table (visit ⟨table, .empty⟩ budget id)
      (visit ⟨table.rename rename, .empty⟩ budget (rename id)) := by
  induction budget generalizing id with
  | zero => exact .pure ()
  | succ budget ih =>
      intro state state' hstate
      have henter : (state.enter id).Renamed rename table (state'.enter (rename id)) :=
        { hstate with visited := congrArg (rename id :: ·) hstate.visited }
      refine ⟨rfl, ?_⟩
      rw [after_visit, after_visit, hstate.visited, hstate.joins]
      simp only [List.mem_map_of_injective hinj]
      split
      · exact hstate
      · split
        · exact { hstate with }
        · rw [table.get?_rename hinj]
          cases hnode : table.get? id with
          | none => exact { henter with }
          | some node =>
              have hwrite := write_agrees hinj (Keyed.mem_values_of_get? hnode) ih id
              exact { (hwrite _ _ henter).2 with }

end Walk

/-! ## Functions -/

section Functions

variable {context context' : Context}

include hinj

theorem runWalk_renamed (h : context.Renamed rename table context') (entry : String) :
    (runWalk ⟨table, .empty⟩ context entry).Renamed rename table
      (runWalk ⟨table.rename rename, .empty⟩ context' (rename entry)) := by
  have hvisit := Walk.visit_agrees hinj (table.size + 1) entry { context } { context := context' }
    ⟨h, rfl, rfl⟩
  unfold runWalk Walk.walk
  rw [table.size_rename hinj]
  exact hvisit.2.context

theorem taskContext_renamed (h : context.Renamed rename table context') (task : Task) :
    (taskContext ⟨table, .empty⟩ context task).Renamed rename table
      (taskContext ⟨table.rename rename, .empty⟩ context' (task.rename rename)) := by
  unfold taskContext Task.rename
  cases task.entry with
  | some entry => exact runWalk_renamed hinj h.child entry
  | none => exact h.child.warn (.same _ _ (not_tellsOfMissingValue (by simp [toString])))

/-- Tasks are written alike under other ids. -/
theorem emitTasks_renamed (h : context.Renamed rename table context') (tasks : List Task) :
    let written := emitTasks ⟨table, .empty⟩ context tasks
    let written' := emitTasks ⟨table.rename rename, .empty⟩ context' (tasks.map (Task.rename rename))
    written'.1 = written.1 ∧ written.2.Renamed rename table written'.2 := by
  induction tasks generalizing context context' with
  | nil => exact ⟨rfl, h⟩
  | cons task tasks ih =>
      have hchild := taskContext_renamed hinj h task
      obtain ⟨hfunctions, hfinal⟩ := ih (h.absorb hchild)
      refine ⟨?_, hfinal⟩
      change taskFunction task _ :: _ = taskFunction task _ :: _
      rw [hchild.lines, hfunctions]

/-- All functions of a program are written alike under other ids. -/
theorem functions_renamed (program : Program) :
    let written := functions program .empty
    let written' := functions (program.rename rename) .empty
    written'.1 = written.1 ∧ written'.2.1 = written.2.1 ∧
      written.2.2.Renamed rename program.nodes written'.2.2 := by
  have hempty : Context.Renamed rename program.nodes {} {} := ⟨rfl, rfl, rfl, rfl, rfl, rfl, .nil⟩
  have hmain := runWalk_renamed hinj hempty program.entry
  have hrest : Context.Renamed rename program.nodes
      { runWalk ⟨program.nodes, .empty⟩ {} program.entry with lines := [] }
      { runWalk ⟨program.nodes.rename rename, .empty⟩ {} (rename program.entry) with lines := [] } :=
    { hmain with lines := rfl }
  obtain ⟨htasks, hfinal⟩ := emitTasks_renamed hinj hrest program.tasks
  exact ⟨congrArg mainFunction hmain.lines, htasks, hfinal⟩

end Functions

/-- The nodes of a program can have any ids, as long as they are told apart. With other ids the
program is still without defects, its script has the same text, and the warnings are the same in the
same order but for the ids that they mention. -/
theorem renamed_program_alike (rename : String → String) (hinj : Function.Injective rename)
    (program : Program) (hdefects : program.defects = []) :
    ∃ script script' : Script, emitProgram program .empty = .ok script ∧
      emitProgram (program.rename rename) .empty = .ok script' ∧
      script'.fileId = script.fileId ∧ script'.source = script.source ∧
      List.Forall₂ (Rewarned rename program.nodes) script.warnings script'.warnings := by
  obtain ⟨hmain, htasks, hfinal⟩ := functions_renamed hinj program
  refine ⟨assemble program .empty, assemble (program.rename rename) .empty, ?_, ?_, rfl, ?_,
    hfinal.warnings⟩
  · rw [emitProgram, hdefects]
  · rw [emitProgram, Program.defects_rename hinj hdefects]
  · unfold assemble
    dsimp only
    rw [hmain, htasks, hfinal.imports]
    rfl

/-- A branch that comes to a node on both ways, where the value of a missing node is asked for. -/
def lostSource : Program where
  fileId := "lost"
  entry := "a"
  nodes := .ofList [
    ("a", { id := "a", kind := .start, outputs := ["b"] }),
    ("b",
      { id := "b", kind := .branch, inputs := .ofList [("condition", .edge "gone" "value")],
        slots := .ofList [("true", ["c"]), ("false", ["d"])] }),
    ("c", { id := "c", kind := .upgrade {}, outputs := ["e"] }),
    ("d", { id := "d", kind := .heal {}, outputs := ["e"] }),
    ("e", { id := "e", kind := .move {} })]

/-- Put an underscore before a text. -/
def underscored (text : String) : String := "_" ++ text

theorem underscored_injective : Function.Injective underscored := fun _ _ h =>
  String.append_right_inj _ |>.1 h

/-- With an underscore before every id the source that is missing has one as well. -/
theorem lostSource_underscored :
    Function.Injective underscored ∧ lostSource.defects = [] ∧ ∃ script script' : Script,
      emitProgram lostSource .empty = .ok script ∧
      emitProgram (lostSource.rename underscored) .empty = .ok script' ∧
      script'.source = script.source ∧
      script.warnings = [⟨some "b", missingValue "gone" "value"⟩] ∧
      script'.warnings = [⟨some "_b", missingValue "_gone" "value"⟩] := by
  have hdefects : lostSource.defects = [] := by decide +kernel
  have hwarnings : ∀ script, emitProgram lostSource .empty = .ok script →
      script.warnings = [⟨some "b", missingValue "gone" "value"⟩] := by
    rintro _ ⟨⟩
    decide +kernel
  have hwarnings' : ∀ script, emitProgram (lostSource.rename underscored) .empty = .ok script →
      script.warnings = [⟨some "_b", missingValue "_gone" "value"⟩] := by
    rintro _ ⟨⟩
    decide +kernel
  obtain ⟨script, script', hscript, hscript', -, hsource, -⟩ :=
    renamed_program_alike underscored underscored_injective lostSource hdefects
  exact ⟨underscored_injective, hdefects, script, script', hscript, hscript', hsource,
    hwarnings script hscript, hwarnings' script' hscript'⟩

end Emission

end TickScript
