import TickScript.Proofs.Emission.Evolution
import TickScript.Proofs.Walk.Progress

/-!
# Tours

An emitter of a registry may write chains from any ids, in any order and at any time. `Tour` says what
a walk is all the same: lines are added, and every id that it comes to is passed over, postponed or
entered, and then left again with the join points that waited before. There is no budget in it.
`branch_tour` proves that every walk is a tour, whatever emitters there are.
-/

namespace TickScript.Emission

/-! ## What follows a node -/

/-- `routine.Yields value` says that a routine may end with a value, given suitable answers. -/
inductive Routine.Yields {α : Type} : Routine α → α → Prop where
  | done (value : α) : Yields (.done value) value
  | ask {request : Request} {next : request.Answer → Routine α} {value : α}
      (answer : request.Answer) : Yields (next answer) value → Yields (.ask request next) value
  | branch {ids : List String} {next : Routine α} {value : α} :
      Yields next value → Yields (.branch ids next) value
  | registered {next : List String → Routine α} {value : α} (kinds : List String) :
      Yields (next kinds) value → Yields (.registered next) value

namespace Routine

variable {α β : Type}

/-- What a routine goes on with decides what it ends with. -/
theorem Yields.of_bind {routine : Routine α} {rest : α → Routine β} {value : β}
    (h : (routine.bind rest).Yields value) : ∃ middle, (rest middle).Yields value := by
  induction routine with
  | done middle => exact ⟨middle, h⟩
  | ask request next ih =>
      cases h with
      | ask answer h => exact ih answer h
  | branch ids next ih =>
      cases h with
      | branch h => exact ih h
  | registered next ih =>
      cases h with
      | registered kinds h => exact ih kinds h

/-- A routine only ends with values that it may end with. -/
theorem run_yields (registry : Registry) (branch : List String → Walk Unit) (routine : Routine α)
    (state : Walk.State) : routine.Yields ((routine.run registry branch).run state).1 := by
  induction routine generalizing state with
  | done value => exact .done value
  | ask request next ih => exact .ask _ (ih _ _)
  | branch ids next ih => exact .branch (ih _)
  | registered next ih => exact .registered _ (ih _ _)

end Routine

/-- An emitter that is given as data always ends in the same way. -/
theorem Emitter.yields {emitter : Emitter} {node : Node} {settings : Json.Value}
    {continuation : Continuation}
    (h : (emitter.toNodeEmitter.emit node settings).Yields continuation) :
    continuation = if emitter.stop then .stop else .outputs := by
  obtain ⟨_, h⟩ := Routine.Yields.of_bind h
  cases h
  rfl

/-- A continuation may follow a node. It is known from the kind, unless an emitter of the registry
writes the node. -/
def Setting.Continues (setting : Setting) (node : Node) (continuation : Continuation) : Prop :=
  match node.kind with
  | .custom custom =>
    match setting.registry.get? custom.kind with
    | some emitter => (emitter.emit node custom.settings).Yields continuation
    | none => continuation = .outputs
  | kind => continuation = continuationOf kind

/-- The statements of a node yield what may follow it. -/
theorem dispatch_continues (setting : Setting) (branch : List String → Walk Unit) (node : Node)
    (state : Walk.State) : setting.Continues node ((dispatch setting branch node).run state).1 := by
  unfold dispatch Setting.Continues
  cases hkind : node.kind with
  | custom custom =>
      unfold emitCustom
      dsimp only
      cases setting.registry.get? custom.kind with
      | some emitter => exact Routine.run_yields _ _ _ _
      | none => rfl
  | _ => rfl

/-- The ids that follow a node, given what its slots share. -/
def Continuation.followers (continuation : Continuation) (node : Node) (shared : List String) :
    List String :=
  match continuation with
  | .outputs => node.outputs ++ shared
  | .stop => []

namespace Walk

/-- `Tour setting ids state final` says that a walk that comes to the ids in their order leads from one
state to another. Between the ids, and before and after them, lines may be added. -/
inductive Tour (setting : Setting) : List String → State → State → Prop where
  | done (state : State) : Tour setting [] state state
  | context {ids : List String} {state final : State} (context : Context) :
      state.context.written <+: context.written →
        Tour setting ids { state with context } final → Tour setting ids state final
  | visited {id : String} {ids : List String} {state final : State} : id ∈ state.visited →
      Tour setting ids state final → Tour setting (id :: ids) state final
  | postponed {id : String} {ids : List String} {state final : State} :
      id ∉ state.visited → id ∈ state.joins →
        Tour setting ids (state.note (.postponed id)) final → Tour setting (id :: ids) state final
  | missing {id : String} {ids : List String} {state final : State} :
      id ∉ state.visited → id ∉ state.joins → setting.table.get? id = none →
        Tour setting ids ((state.enter id).note (.left id)) final →
          Tour setting (id :: ids) state final
  /-- The statements of the node lead to some heads, and what follows it comes after them. -/
  | node {id : String} {ids heads : List String} {node : Node} {continuation : Continuation}
      {state closed written final : State} :
      id ∉ state.visited → id ∉ state.joins → setting.table.get? id = some node →
        setting.Continues node continuation →
        (setting.isPlain node = true → ∀ head ∈ heads, head ∈ node.children) →
        Tour setting heads ((state.enter id).opened setting id node) closed →
        Tour setting
          (continuation.followers node (sharedAfter setting (id :: state.visited) node))
          (closed.resume id continuation state.joins) written →
        Tour setting ids (written.note (.left id)) final →
          Tour setting (id :: ids) state final

namespace Tour

variable {setting : Setting} {ids later : List String} {state middle final : State}

/-- Tours can be joined. -/
theorem append (hfirst : Tour setting ids state middle) (hlater : Tour setting later middle final) :
    Tour setting (ids ++ later) state final := by
  induction hfirst with
  | done => exact hlater
  | context context hwritten _ ih => exact .context context hwritten (ih hlater)
  | visited hid _ ih => exact .visited hid (ih hlater)
  | postponed hid hjoin _ ih => exact .postponed hid hjoin (ih hlater)
  | missing hid hjoin hnode _ ih => exact .missing hid hjoin hnode (ih hlater)
  | node hid hjoin hnode hcontinues hheads hbody hrest _ _ _ ih =>
      exact .node hid hjoin hnode hcontinues hheads hbody hrest (ih hlater)

/-- What was visited stays so. -/
theorem mem_visited {id : String} (h : Tour setting ids state final) (hid : id ∈ state.visited) :
    id ∈ final.visited := by
  induction h with
  | done => exact hid
  | context _ _ _ ih | visited _ _ ih | postponed _ _ _ ih => exact ih hid
  | missing _ _ _ _ ih => exact ih (List.mem_cons_of_mem _ hid)
  | node _ _ _ _ _ _ _ _ ihbody ihrest ih => exact ih (ihrest (ihbody (List.mem_cons_of_mem _ hid)))

theorem fits {budget : Nat} (h : Tour setting ids state final)
    (hfits : Fits setting.table budget state) : Fits setting.table budget final :=
  hfits.of_visited fun _ => h.mem_visited

end Tour

/-! ## Actions of a walk -/

/-- With the given budget, an action makes a tour that only comes to ids that have a property. -/
def Tours (setting : Setting) (budget : Nat) (allowed : String → Prop) {α : Type}
    (action : Walk α) : Prop :=
  ∀ state, Fits setting.table budget state →
    ∃ ids, (∀ id ∈ ids, allowed id) ∧ Tour setting ids state (after action state)

namespace Tours

variable {setting : Setting} {budget : Nat} {allowed : String → Prop} {α β : Type}

theorem pure (value : α) : Tours setting budget allowed (Pure.pure value : Walk α) :=
  fun state _ => ⟨[], by simp, .done state⟩

theorem lift {action : Emit α} (h : Emit.Evolves action) :
    Tours setting budget allowed (Walk.lift action) := fun state _ =>
  ⟨[], by simp, .context _ (h state.context).extends.written (.done _)⟩

theorem bind {action : Walk α} {next : α → Walk β} (haction : Tours setting budget allowed action)
    (hnext : ∀ value, Tours setting budget allowed (next value)) :
    Tours setting budget allowed (action >>= next) := by
  intro state hfits
  obtain ⟨ids, hids, hfirst⟩ := haction state hfits
  obtain ⟨later, hlaterIds, hlater⟩ := hnext _ _ (hfirst.fits hfits)
  exact ⟨ids ++ later, List.forall_mem_append.2 ⟨hids, hlaterIds⟩, hfirst.append hlater⟩

end Tours

/-- With the given budget, following a chain is a tour that comes to its id. -/
def FollowsTours (setting : Setting) (budget : Nat) (follow : String → Walk Unit) : Prop :=
  ∀ id state, Fits setting.table budget state → Tour setting [id] state (after (follow id) state)

variable {setting : Setting} {budget : Nat} {follow : String → Walk Unit}

/-- Following several chains is a tour that comes to their ids. -/
theorem FollowsTours.chains (hfollow : FollowsTours setting budget follow) (ids : List String)
    {state : State} (hfits : Fits setting.table budget state) :
    Tour setting ids state (after (ids.forM follow) state) := by
  induction ids generalizing state with
  | nil => exact .done state
  | cons id ids ih =>
      have hfirst := hfollow id state hfits
      exact hfirst.append (ih (hfirst.fits hfits))

/-- Control structures make a tour of heads of their node. -/
theorem Parallel.tours {α : Type} {rename : String → String} {node : Node}
    {follow' : String → Walk Unit} {action action' : Walk α}
    (hfollow : FollowsTours setting budget follow)
    (h : Parallel rename node follow follow' action action') :
    Tours setting budget (· ∈ node.children) action := by
  induction h with
  | pure value => exact .pure value
  | bind _ _ ih ihnext => exact ih.bind ihnext
  | lift h => exact .lift h.evolves
  | chain id hid => exact fun state hfits => ⟨[id], by simpa using hid, hfollow id state hfits⟩

end Walk

/-! ## Emitters -/

/-- A routine makes a tour if the branches that it writes do. -/
theorem Routine.run_tours {α : Type} {registry : Registry} {branch : List String → Walk Unit}
    {setting : Setting} {budget : Nat} {allowed : String → Prop}
    (hbranch : ∀ ids, Walk.Tours setting budget allowed (branch ids)) (routine : Routine α) :
    Walk.Tours setting budget allowed (routine.run registry branch) := by
  induction routine with
  | done value => exact .pure value
  | ask request next ih => exact .bind (.lift request.perform_evolves) ih
  | branch ids next ih => exact .bind (hbranch ids) fun _ => ih
  | registered next ih => exact ih _

/-! ## Walks -/

namespace Walk

variable {setting : Setting} {node : Node} {budget : Nat} {follow : String → Walk Unit}

/-- Following any chains is a tour. -/
theorem Tours.of_chains (hfollow : FollowsTours setting budget follow) (ids : List String) :
    Tours setting budget (fun _ => True) (ids.forM follow) := fun _ hfits =>
  ⟨ids, fun _ _ => trivial, hfollow.chains ids hfits⟩

/-- The statements of a node make a tour. Unless an emitter of the registry writes them, it only comes
to heads of the node. -/
theorem dispatch_tours (hfollow : FollowsTours setting budget follow) :
    Tours setting budget (fun id => setting.isPlain node = true → id ∈ node.children)
      (dispatch setting (·.forM follow) node) := by
  cases hplain : setting.isPlain node with
  | true =>
      have hparallel := @dispatch_parallel id node follow follow setting setting hplain hplain
      intro state hfits
      obtain ⟨ids, hids, htour⟩ := hparallel.tours hfollow state hfits
      exact ⟨ids, fun id hid _ => hids id hid, htour⟩
  | false =>
      obtain ⟨routine, hroutine⟩ := exists_routine hplain
      rw [hroutine]
      intro state hfits
      obtain ⟨ids, -, htour⟩ := routine.run_tours (.of_chains hfollow) state hfits
      exact ⟨ids, by simp, htour⟩

/-- A node is written by its statements and by what follows it. -/
theorem after_write_eq (follow : String → Walk Unit) (id : String) (node : Node) (state : State) :
    after (write setting follow id node) state =
      let statements := dispatch setting (·.forM follow) node
      let opened := state.opened setting id node
      let continuation := (statements.run opened).1
      let shared := sharedAfter setting state.visited node
      after ((continuation.followers node shared).forM follow)
        ((after statements opened).resume id continuation state.joins) := by
  simp only [write, after_get, State.opened]
  rw [after_bind, after_bind, after_set]
  generalize ((dispatch setting (·.forM follow) node).run _).1 = continuation
  cases continuation <;> rfl

/-- A visit is a tour if the budget is above the number of nodes still to be visited. -/
theorem visit_tours (setting : Setting) (budget : Nat) :
    FollowsTours setting budget (visit setting budget) := by
  induction budget with
  | zero => exact fun id state hfits => absurd hfits (Nat.not_lt_zero _)
  | succ budget ih =>
      intro id state hfits
      rw [after_visit]
      split
      · next hid => exact .visited hid (.done _)
      · next hid =>
        split
        · next hjoin => exact .postponed hid hjoin (.done _)
        · next hjoin =>
          cases hnode : setting.table.get? id with
          | none => exact .missing hid hjoin hnode (.done _)
          | some node =>
              have hopened := hfits.enter hnode hid
              obtain ⟨heads, hheads, hbody⟩ := @dispatch_tours setting node budget _ ih
                ((state.enter id).opened setting id node) hopened
              dsimp only
              rw [after_write_eq]
              exact .node hid hjoin hnode
                (dispatch_continues setting _ node _) (fun hplain head hhead => hheads head hhead hplain)
                hbody (ih.chains _ (hbody.fits hopened)) (.done _)

/-- Every walk is a tour. -/
theorem branch_tour (setting : Setting) (ids : List String) (state : State) :
    Tour setting ids state (after (branch setting ids) state) :=
  (visit_tours setting _).chains ids
    ((Fits.start setting.table {}).of_visited (by simp))

end Walk

end TickScript.Emission
