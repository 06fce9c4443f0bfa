import TickScript.Proofs.Walk.Tour

/-!
# Evolution along a walk

`Walk.Evolution` is for relations between the states of a walk that allow every change of the
context. Such a relation leads from the beginning of a routine to its end, and from the beginning of a
visit to its end if it does so for the statements of each node. The requests of emitters are included.
-/

namespace TickScript.Emission

namespace Walk

/-- A relation between an earlier and a later state of a walk, which allows all changes of the
context. -/
structure Evolution (Related : State → State → Prop) : Prop where
  refl : ∀ state, Related state state
  trans : ∀ {state middle final}, Related state middle → Related middle final → Related state final
  context : ∀ state {context}, state.context.Evolves context → Related state { state with context }

/-- An action of a walk leads to related states. -/
def Keeps (Related : State → State → Prop) {α : Type} (action : Walk α) : Prop :=
  ∀ state, Related state (after action state)

namespace Evolution

variable {Related : State → State → Prop} {setting : Setting} {node : Node}
  {follow : String → Walk Unit} {α β : Type} (h : Evolution Related)
include h

theorem pure (value : α) : Keeps Related (Pure.pure value : Walk α) := fun state => h.refl state

theorem bind {action : Walk α} {next : α → Walk β} (haction : Keeps Related action)
    (hnext : ∀ value, Keeps Related (next value)) : Keeps Related (action >>= next) := fun state =>
  h.trans (haction state) (hnext _ _)

theorem lift {action : Emit α} (haction : Emit.Evolves action) :
    Keeps Related (Walk.lift action) := fun state => h.context state (haction state.context)

theorem indented {body : Walk α} (hbody : Keeps Related body) :
    Keeps Related (Walk.indented body) :=
  h.bind (h.lift fun context => .single (.enter context)) fun _ => h.bind hbody fun _ =>
    h.bind (h.lift fun context => .single (.exit context)) fun _ => h.pure _

theorem block (header : String) {body : Walk α} (hbody : Keeps Related body) :
    Keeps Related (Walk.block header body) :=
  h.bind (h.lift (Emit.say_evolves _)) fun _ => h.bind (h.indented hbody) fun _ =>
    h.bind (h.lift (Emit.say_evolves _)) fun _ => h.pure _

theorem forM {items : List α} {action : α → Walk PUnit}
    (haction : ∀ item, Keeps Related (action item)) : Keeps Related (items.forM action) := by
  induction items with
  | nil => exact h.pure _
  | cons item items ih => exact h.bind (haction item) fun _ => ih

/-- Control structures lead to related states if the chains that they follow do. -/
theorem of_parallel {rename : String → String} {node : Node} {follow follow' : String → Walk Unit}
    {action action' : Walk α} (hfollow : ∀ id, Keeps Related (follow id))
    (hparallel : Parallel rename node follow follow' action action') : Keeps Related action := by
  induction hparallel with
  | pure value => exact h.pure value
  | bind _ _ ih ihnext => exact h.bind ih ihnext
  | lift haction => exact h.lift haction.evolves
  | chain id _ => exact hfollow id

/-- A routine leads to related states if the branches that it writes do. -/
theorem of_routine {registry : Registry} {branch : List String → Walk Unit}
    (hbranch : ∀ ids, Keeps Related (branch ids)) (routine : Routine α) :
    Keeps Related (routine.run registry branch) := by
  induction routine with
  | done value => exact h.pure value
  | ask request next ih => exact h.bind (h.lift request.perform_evolves) ih
  | branch ids next ih => exact h.bind (hbranch ids) fun _ => ih
  | registered next ih => exact ih _

/-- The statements of a node lead to related states, whoever writes them. -/
theorem dispatch (hfollow : ∀ id, Keeps Related (follow id)) :
    Keeps Related (dispatch setting (·.forM follow) node) := by
  -- Plain kinds are put together from known actions, and the others are written by routines.
  cases hplain : setting.isPlain node with
  | true =>
      have hparallel := @dispatch_parallel id node follow follow setting setting hplain hplain
      exact h.of_parallel hfollow hparallel
  | false =>
      obtain ⟨routine, hroutine⟩ := exists_routine hplain
      rw [hroutine]
      exact h.of_routine (fun _ => h.forM hfollow) routine

/-- A visit leads to related states if nothing matters but the context and the nodes written, and if
the statements of a node do, given that chains do. -/
theorem visit
    (hquiet : ∀ {state final : State}, final.context = state.context →
      dispatched final.trace = dispatched state.trace → Related state final)
    (hwrite : ∀ follow, (∀ id, Keeps Related (follow id)) → ∀ id node (state : State),
      setting.table.get? id = some node → Related state
        (after (Emission.dispatch setting (·.forM follow) node) (state.opened setting id node)))
    (budget : Nat) (id : String) : Keeps Related (visit setting budget id) := by
  induction budget generalizing id with
  | zero => exact h.pure ()
  | succ budget ih =>
      intro state
      rw [after_visit]
      split
      · exact h.refl _
      · split
        · exact hquiet rfl rfl
        · split
          · next node hnode =>
            -- Besides the statements of the node and the chains behind it, only notes are made.
            have hentered : Related state (state.enter id) := hquiet rfl rfl
            have hstatements := h.trans hentered (hwrite _ ih id node (state.enter id) hnode)
            rw [after_write_eq]
            dsimp only
            generalize after (Emission.dispatch setting (·.forM (Walk.visit setting budget)) node)
              ((state.enter id).opened setting id node) = closed at hstatements
            have hclosed (continuation : Continuation) :
                Related closed (closed.resume id continuation (state.enter id).joins) :=
              hquiet rfl rfl
            exact h.trans hstatements (h.trans (hclosed _) (h.trans (h.forM ih _) (hquiet rfl rfl)))
          · exact hquiet rfl rfl

end Evolution

/-- The context of a walk evolves, whatever emitters there are. -/
theorem visit_evolves (setting : Setting) (budget : Nat) (id : String) (state : State) :
    state.context.Evolves (after (visit setting budget id) state).context := by
  have h : Evolution fun state final => state.context.Evolves final.context :=
    ⟨fun _ => .refl, fun hfirst hlater => hfirst.trans hlater, fun _ _ hevolves => hevolves⟩
  refine h.visit (fun hsame _ => hsame ▸ .refl) ?_ budget id state
  intro follow hfollow id node state _
  exact h.dispatch hfollow (state.opened setting id node)

end Walk

end TickScript.Emission
