import TickScript.Emission.File
import TickScript.Proofs.Emission.Library
import TickScript.Proofs.Walk.Agreement

/-!
# Walks side by side

Two walks over tables that agree on what they come to write the same, also if one of them begins with
imports that the other does not have. `Context.Beside` relates what they have written: all is equal but
the imports, and these differ by what was known at the beginning. A walk looks at its table only where
it is, at its imports only through the names of library functions, and at its budget not at all, since
the budget never runs out. `runWalk_beside` and `taskContext_beside` say so of whole functions.
-/

namespace TickScript

/-- A node with its own ids. -/
@[simp] theorem Node.rename_same (node : Node) : node.rename (fun name => name) = node := by
  have hsame {υ : Type} (table : Keyed String υ) {change : υ → υ}
      (h : ∀ value, change value = value) : table.mapValues change = table :=
    Keyed.ext (by simp [Keyed.mapValues, h])
  have hport (port : Port) : port.rename (fun name => name) = port := by cases port <;> rfl
  rw [Node.rename, hsame _ hport, hsame _ List.map_id', List.map_id']

namespace Emission

variable {known : String → String → Prop}

/-! ## Contexts -/

/-- Two contexts have come to the same, and the second has imports besides that were known to it. -/
structure Context.Beside (known : String → String → Prop) (context context' : Context) : Prop where
  lines : context'.lines = context.lines
  indent : context'.indent = context.indent
  temps : context'.temps = context.temps
  values : context'.values = context.values
  actor : context'.actor = context.actor
  diagnostics : context'.diagnostics = context.diagnostics
  standard : context.imports.Standard
  standard' : context'.imports.Standard
  imports : ∀ module symbol, context'.imports.Has module symbol ↔
    known module symbol ∨ context.imports.Has module symbol

namespace Context.Beside

variable {context context' : Context}

theorem push (h : context.Beside known context') (text : String) :
    (context.push text).Beside known (context'.push text) :=
  { h with lines := by rw [Context.push, Context.push, h.lines, h.indent] }

theorem warn (h : context.Beside known context') (nodeId message : String) :
    (context.warn nodeId message).Beside known (context'.warn nodeId message) :=
  { h with diagnostics := by rw [Context.warn, Context.warn, h.diagnostics] }

theorem record (h : context.Beside known context') (nodeId expr : String) :
    (context.record nodeId expr).Beside known (context'.record nodeId expr) :=
  { h with values := congrArg ((nodeId, expr) :: ·) h.values }

/-- A library function is imported on both sides. -/
theorem withImport (h : context.Beside known context') {symbol module : String}
    (hlibrary : (symbol, module) ∈ library) :
    (context.withImport symbol module).Beside known (context'.withImport symbol module) :=
  { h with
    standard := h.standard.require hlibrary
    standard' := h.standard'.require hlibrary
    imports := fun module' symbol' => by
      have hhas := h.standard.has_require hlibrary module' symbol'
      have hhas' := h.standard'.has_require hlibrary module' symbol'
      exact hhas'.trans (((or_congr_right (h.imports _ _)).trans or_left_comm).trans
        (or_congr_right hhas.symm)) }

/-- Contexts without imports that were known before have the same imports. -/
theorem imports_eq (h : context.Beside (fun _ _ => False) context') :
    context'.imports = context.imports :=
  h.standard'.ext h.standard fun module symbol => (h.imports module symbol).trans (.of_eq (false_or _))

end Context.Beside

/-! ## Actions on contexts -/

/-- Two actions on contexts give the same result and come to the same. -/
def Emit.Alike (known : String → String → Prop) {α : Type} (action action' : Emit α) : Prop :=
  ∀ context context' : Context, context.Beside known context' →
    (action'.run context').1 = (action.run context).1 ∧
      (action.run context).2.Beside known (action'.run context').2

/-- The actions of statements are alike. -/
theorem Emit.Parallel.alike {node : Node} {α : Type} {action action' : Emit α}
    (h : Emit.Parallel (fun name => name) node action action') : Emit.Alike known action action' := by
  induction h with
  | pure value => exact fun _ _ hcontext => ⟨rfl, hcontext⟩
  | @bind α β action action' next next' _ _ ih ihnext =>
      intro context context' hcontext
      obtain ⟨hvalue, hmiddle⟩ := ih context context' hcontext
      have hnext : Emit.Alike known (next (action.run context).1) (next' (action'.run context').1) :=
        hvalue ▸ ihnext _
      exact hnext _ _ hmiddle
  | fresh stem =>
      intro context context' hcontext
      exact ⟨congrArg (fun temps => stem ++ "_" ++ Nat.repr (temps + 1)) hcontext.temps,
        { hcontext with temps := congrArg (· + 1) hcontext.temps }⟩
  | say text => exact fun _ _ hcontext => ⟨rfl, hcontext.push text⟩
  | enter =>
      exact fun _ _ hcontext => ⟨rfl, { hcontext with indent := congrArg (· + _) hcontext.indent }⟩
  | exit =>
      exact fun _ _ hcontext => ⟨rfl, { hcontext with indent := congrArg (· - _) hcontext.indent }⟩
  | require symbol module hlibrary =>
      -- Whatever the imports are, the alias is the name of the function.
      intro context context' hcontext
      exact ⟨(hcontext.standard'.require_fst hlibrary).trans
        (hcontext.standard.require_fst hlibrary).symm, hcontext.withImport hlibrary⟩
  | actor => exact fun _ _ hcontext => ⟨hcontext.actor, hcontext⟩
  | warn message _ => exact fun _ _ hcontext => ⟨rfl, hcontext.warn _ _⟩
  | input name fallback =>
      intro context context' hcontext
      rw [Node.rename_same]
      cases hport : node.input? name with
      | none =>
          rw [Emit.input_of_none hport, Emit.input_of_none hport]
          exact ⟨rfl, { hcontext with }⟩
      | some port =>
          rw [Emit.input_of_some hport]
          cases port with
          | literal value => exact ⟨rfl, hcontext⟩
          | edge source port =>
              have hvalue : context'.valueOf? source = context.valueOf? source := by
                rw [Context.valueOf?, hcontext.values]
                rfl
              have hask : (context.ask node.id source port).Beside known
                  (context'.ask node.id source port) := { hcontext with }
              rw [Emit.resolve_edge, Emit.resolve_edge, hvalue]
              cases context.valueOf? source with
              | some expr => exact ⟨rfl, hask⟩
              | none => exact ⟨rfl, hask.warn _ _⟩
  | produce expr => exact fun _ _ hcontext => ⟨rfl, hcontext.record _ _⟩

/-! ## Actions of walks -/

namespace Walk

variable {table table' : NodeTable} {budget budget' : Nat}

/-- Two walks have come to the same, each with budget for all nodes of its table that it has not
visited. -/
structure State.Beside (known : String → String → Prop) (table table' : NodeTable)
    (budget budget' : Nat) (state state' : State) : Prop where
  context : state.context.Beside known state'.context
  visited : state'.visited = state.visited
  joins : state'.joins = state.joins
  fits : Fits table budget state
  fits' : Fits table' budget' state'

/-- Two actions of walks give the same result and come to the same. -/
def Alike (known : String → String → Prop) (table table' : NodeTable) (budget budget' : Nat)
    {α : Type} (action action' : Walk α) : Prop :=
  ∀ state state' : State, state.Beside known table table' budget budget' state' →
    (action'.run state').1 = (action.run state).1 ∧
      (after action state).Beside known table table' budget budget' (after action' state')

namespace Alike

variable {α β : Type} {action action' : Walk α}

theorem pure (value : α) :
    Alike known table table' budget budget' (Pure.pure value) (Pure.pure value) :=
  fun _ _ hstate => ⟨rfl, hstate⟩

theorem bind {next next' : α → Walk β} (haction : Alike known table table' budget budget' action action')
    (hnext : ∀ value, Alike known table table' budget budget' (next value) (next' value)) :
    Alike known table table' budget budget' (action >>= next) (action' >>= next') := by
  intro state state' hstate
  obtain ⟨hvalue, hmiddle⟩ := haction state state' hstate
  have hlater : Alike known table table' budget budget' (next (action.run state).1)
      (next' (action'.run state').1) := hvalue ▸ hnext _
  exact hlater _ _ hmiddle

theorem lift {action action' : Emit α} (h : Emit.Alike known action action') :
    Alike known table table' budget budget' (Walk.lift action) (Walk.lift action') := by
  intro state state' hstate
  obtain ⟨hvalue, hcontext⟩ := h _ _ hstate.context
  exact ⟨hvalue, { hstate with context := hcontext }⟩

/-- Chains from a list of nodes. -/
theorem chains {follow follow' : String → Walk Unit} (ids : List String)
    (hfollow : ∀ id ∈ ids, Alike known table table' budget budget' (follow id) (follow' id)) :
    Alike known table table' budget budget' (ids.forM follow) (ids.forM follow') := by
  induction ids with
  | nil => exact .pure _
  | cons id ids ih =>
      obtain ⟨hid, hids⟩ := List.forall_mem_cons.1 hfollow
      exact hid.bind fun _ => ih hids

end Alike

/-- Control structures are alike if the chains that they follow are. -/
theorem Parallel.alike {node : Node} {follow follow' : String → Walk Unit}
    (hfollow : ∀ name ∈ node.children,
      Alike known table table' budget budget' (follow name) (follow' name)) {α : Type}
    {action action' : Walk α} (h : Parallel (fun name => name) node follow follow' action action') :
    Alike known table table' budget budget' action action' := by
  induction h with
  | pure value => exact .pure value
  | bind _ _ ih ihnext => exact ih.bind ihnext
  | lift h => exact .lift h.alike
  | chain name hname => exact hfollow name hname

/-- The statements of a node in two settings, if no emitter writes them in either. -/
theorem dispatch_parallel_same {setting setting' : Setting} {node : Node}
    {follow follow' : String → Walk Unit} (hplain : setting.isPlain node = true)
    (hplain' : setting'.isPlain node = true) :
    Walk.Parallel (fun name => name) node follow follow' (dispatch setting (·.forM follow) node)
      (dispatch setting' (·.forM follow') node) := by
  have hparallel := @dispatch_parallel (fun name => name) node follow follow' setting setting' hplain
    (by rwa [Node.rename_same])
  rwa [Node.rename_same] at hparallel

/-- The statements of a node are alike if no emitter writes them. -/
theorem dispatch_alike {registry registry' : Registry} {node : Node}
    {follow follow' : String → Walk Unit}
    (hplain : Setting.isPlain ⟨table, registry⟩ node = true)
    (hplain' : Setting.isPlain ⟨table', registry'⟩ node = true)
    (hfollow : ∀ name ∈ node.children,
      Alike known table table' budget budget' (follow name) (follow' name)) :
    Alike known table table' budget budget' (dispatch ⟨table, registry⟩ (·.forM follow) node)
      (dispatch ⟨table', registry'⟩ (·.forM follow') node) :=
  (dispatch_parallel_same hplain hplain').alike hfollow

/-! ## Walks -/

variable {registry registry' : Registry} {inside : String → Prop}

/-- A node whose outputs and slots lead to ids at which the tables agree is written alike. -/
theorem write_alike (hagree : table.Agree inside table') {node : Node}
    (hplain : Setting.isPlain ⟨table, registry⟩ node = true)
    (hplain' : Setting.isPlain ⟨table', registry'⟩ node = true)
    (houtputs : ∀ next ∈ node.outputs, inside next)
    (hchildren : ∀ next ∈ node.children, inside next) {follow follow' : String → Walk Unit}
    (hfollow : ∀ next, inside next →
      Alike known table table' budget budget' (follow next) (follow' next)) (id : String)
    {state state' : State} (hstate : state.Beside known table table' budget budget' state') :
    (after (write ⟨table, registry⟩ follow id node) state).Beside known table table' budget budget'
      (after (write ⟨table', registry'⟩ follow' id node) state') := by
  have hshared : sharedAfter ⟨table', registry'⟩ state'.visited node =
      sharedAfter ⟨table, registry⟩ state.visited node := by
    rw [hstate.visited]
    exact sharedAfter_eq hagree state.visited node hchildren
  have hopened : (state.opened ⟨table, registry⟩ id node).Beside known table table' budget budget'
      (state'.opened ⟨table', registry'⟩ id node) := by
    refine { hstate with joins := ?_ }
    unfold State.opened
    rw [hshared]
    exact congrArg (· ++ _) hstate.joins
  obtain ⟨-, hwritten⟩ := dispatch_alike hplain hplain'
    (fun next hnext => hfollow next (hchildren next hnext)) _ _ hopened
  have hresumed : ((after (dispatch ⟨table, registry⟩ (·.forM follow) node)
      (state.opened ⟨table, registry⟩ id node)).resume id (continuationOf node.kind)
        state.joins).Beside known table table' budget budget'
          ((after (dispatch ⟨table', registry'⟩ (·.forM follow') node)
            (state'.opened ⟨table', registry'⟩ id node)).resume id (continuationOf node.kind)
              state'.joins) :=
    { hwritten with joins := hstate.joins }
  rw [after_write follow id state hplain, after_write follow' id state' hplain', hshared]
  dsimp only
  split
  · exact hresumed
  · refine (Alike.chains _ (fun next hnext => hfollow next ?_) _ _ hresumed).2
    rcases List.mem_append.1 hnext with hnext | hnext
    · exact houtputs next hnext
    · exact sharedAfter_mem hagree state.visited node hchildren next hnext

/-- Visits of an id at which the tables agree are alike. The induction is on the budgets of both
walks; that all nodes fit into them rules out that only one of the two runs out. -/
theorem visit_alike (hagree : table.Agree inside table') (hplain : Setting.Plain ⟨table, registry⟩)
    (hplain' : Setting.Plain ⟨table', registry'⟩) (budget budget' : Nat) (id : String)
    (hid : inside id) :
    Alike known table table' budget budget' (visit ⟨table, registry⟩ budget id)
      (visit ⟨table', registry'⟩ budget' id) := by
  induction budget generalizing budget' id with
  | zero => exact fun _ _ hstate => absurd hstate.fits (Nat.not_lt_zero _)
  | succ budget ih =>
      cases budget' with
      | zero => exact fun _ _ hstate => absurd hstate.fits' (Nat.not_lt_zero _)
      | succ budget' =>
          intro state state' hstate
          refine ⟨rfl, ?_⟩
          rw [after_visit, after_visit, hstate.visited, hstate.joins]
          split
          · exact hstate
          · next hvisited =>
            split
            · exact { hstate with }
            · have hentered : (state'.enter id).visited = (state.enter id).visited :=
                congrArg (id :: ·) hstate.visited
              dsimp only
              rw [hagree.same id hid]
              cases hnode : table.get? id with
              | none =>
                  exact { hstate with
                    visited := hentered
                    fits := hstate.fits.of_visited fun _ => List.mem_cons_of_mem _
                    fits' := hstate.fits'.of_visited fun _ => List.mem_cons_of_mem _ }
              | some node =>
                  have hnode' : table'.get? id = some node := (hagree.same id hid).trans hnode
                  have hvisited' : id ∉ state'.visited := hstate.visited ▸ hvisited
                  have henter : (state.enter id).Beside known table table' budget budget'
                      (state'.enter id) :=
                    { hstate with
                      visited := hentered
                      fits := hstate.fits.enter hnode hvisited
                      fits' := hstate.fits'.enter hnode' hvisited' }
                  have hwritten := write_alike hagree (hplain.isPlain hnode) (hplain'.isPlain hnode')
                    (hagree.outputs id node hid hnode) (hagree.children id node hid hnode)
                    (fun next hnext => ih budget' next hnext) id henter
                  exact { hwritten with
                    fits := Nat.lt_succ_of_lt hwritten.fits
                    fits' := Nat.lt_succ_of_lt hwritten.fits' }

end Walk

/-! ## Functions -/

variable {table table' : NodeTable} {registry registry' : Registry} {inside : String → Prop}
  {context context' : Context}

/-- Walks from an id at which the tables agree come to the same. -/
theorem runWalk_beside (hagree : table.Agree inside table')
    (hplain : Setting.Plain ⟨table, registry⟩) (hplain' : Setting.Plain ⟨table', registry'⟩)
    (hcontext : context.Beside known context') {entry : String} (hentry : inside entry) :
    (runWalk ⟨table, registry⟩ context entry).Beside known
      (runWalk ⟨table', registry'⟩ context' entry) := by
  have hstart : Walk.State.Beside known table table' (table.size + 1) (table'.size + 1) { context }
      { context := context' } :=
    ⟨hcontext, rfl, rfl, .start table context, .start table' context'⟩
  exact (Walk.visit_alike hagree hplain hplain' _ _ entry hentry _ _ hstart).2.context

/-- Bodies of a task come to the same if they begin where the tables agree. -/
theorem taskContext_beside (hagree : table.Agree inside table')
    (hplain : Setting.Plain ⟨table, registry⟩) (hplain' : Setting.Plain ⟨table', registry'⟩)
    (hchild : context.child.Beside known context'.child) {task : Task}
    (hentry : ∀ entry, task.entry = some entry → inside entry) :
    (taskContext ⟨table, registry⟩ context task).Beside known
      (taskContext ⟨table', registry'⟩ context' task) := by
  unfold taskContext
  cases hbody : task.entry with
  | some entry => exact runWalk_beside hagree hplain hplain' hchild (hentry entry hbody)
  | none => exact hchild.warn _ _

/-- The context of a task body without imports, beside one that knows the imports made so far. -/
theorem Context.Beside.child (h : context'.imports.Standard) :
    (Context.child {}).Beside context'.imports.Has context'.child :=
  ⟨rfl, rfl, rfl, rfl, rfl, rfl, .empty, h, fun module symbol =>
    (or_iff_left (Imports.not_has_empty module symbol)).symm⟩

/-- A context from the library beside itself. -/
theorem Context.Beside.refl (h : context.imports.Standard) :
    context.Beside (fun _ _ => False) context :=
  ⟨rfl, rfl, rfl, rfl, rfl, rfl, h, h, fun _ _ => (iff_of_eq (false_or _)).symm⟩

end Emission

end TickScript
