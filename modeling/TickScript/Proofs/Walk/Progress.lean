import TickScript.Proofs.Keyed
import TickScript.Proofs.Walk.Course

/-!
# Progress of a walk

A branch stops at a join point, which is then left to an enclosing construct. `Progress` is the
invariant that keeps account of this: whatever a written node leads to has been visited or waits as
a join point. `visit_settles` proves it of every visit of a plain setting, and also that a budget of
one more than the number of nodes is never used up.
-/

namespace TickScript

/-- What a node leads to when it is written: its heads and, unless it ends its chain, its outputs and
shared continuations. -/
def Node.leadsTo (node : Node) (shared : List String) : List String :=
  node.heads ++ if node.kind.endsChain then [] else node.outputs ++ shared

/-- A node that ends its chain leads to nothing. -/
theorem Node.leadsTo_eq_nil {node : Node} (h : node.kind.endsChain = true)
    (shared : List String) : node.leadsTo shared = [] := by
  have hheads : node.heads = [] := by
    unfold Kind.endsChain at h
    unfold Node.heads
    split at h <;> simp_all
  simp [Node.leadsTo, hheads, h]

namespace Emission

/-- No emitter of the registry writes a node of the table. -/
def Setting.Plain (setting : Setting) : Prop :=
  ∀ node ∈ setting.table.values, setting.isPlain node = true

instance (setting : Setting) : Decidable setting.Plain :=
  inferInstanceAs (Decidable (∀ node ∈ setting.table.values, setting.isPlain node = true))

/-- A setting without emitters is plain. -/
theorem Setting.Plain.empty (table : NodeTable) : Setting.Plain ⟨table, .empty⟩ := fun node _ =>
  isPlain_empty table node

/-- A node of a plain setting is written without an emitter. -/
theorem Setting.Plain.isPlain {setting : Setting} (hplain : setting.Plain) {id : String}
    {node : Node} (h : setting.table.get? id = some node) : setting.isPlain node = true :=
  hplain node (Keyed.mem_values_of_get? h)

namespace Walk

/-- The ids that were visited, the latest first. -/
def entered (trace : List Event) : List String :=
  trace.filterMap fun
    | .entered id => some id
    | _ => none

/-- The ids whose nodes were written, the latest first. -/
def dispatched (trace : List Event) : List String :=
  trace.filterMap fun
    | .began id _ => some id
    | _ => none

/-- The ids that were left for later, the latest first. -/
def postponed (trace : List Event) : List String :=
  trace.filterMap fun
    | .postponed id => some id
    | _ => none

theorem mem_dispatched {trace : List Event} {id : String} :
    id ∈ dispatched trace ↔ ∃ shared, .began id shared ∈ trace := by
  refine ⟨fun h => ?_, fun ⟨shared, h⟩ => List.mem_filterMap.2 ⟨_, h, rfl⟩⟩
  obtain ⟨event, hevent, hsome⟩ := List.mem_filterMap.1 h
  cases event <;> simp only [Option.some.injEq, reduceCtorEq] at hsome
  exact ⟨_, hsome ▸ hevent⟩

theorem mem_postponed {trace : List Event} {id : String} :
    id ∈ postponed trace ↔ .postponed id ∈ trace := by
  refine ⟨fun h => ?_, fun h => List.mem_filterMap.2 ⟨_, h, rfl⟩⟩
  obtain ⟨event, hevent, hsome⟩ := List.mem_filterMap.1 h
  cases event <;> simp only [Option.some.injEq, reduceCtorEq] at hsome
  exact hsome ▸ hevent

/-- Nothing is lost of an id that has been visited or waits as a join point. -/
def Settled (visited joins : List String) (id : String) : Prop := id ∈ visited ∨ id ∈ joins

/-- Nothing is lost of what an event leads to: the id that was left for later, or all that the node
that was written leads to. -/
def Event.Settled (table : NodeTable) (visited joins : List String) : Event → Prop
  | .postponed id => Walk.Settled visited joins id
  | .began id shared => ∀ node, table.get? id = some node →
      ∀ next ∈ node.leadsTo shared, Walk.Settled visited joins next
  | _ => True

/-- What a part of a walk leaves behind: some events and more visited ids. The nodes written are
those under the ids visited, and nothing is lost while the given join points wait. -/
structure Progress (table : NodeTable) (joins : List String) (events : List Event)
    (state final : State) : Prop where
  trace : final.trace = events ++ state.trace
  visited : final.visited = entered events ++ state.visited
  nodup : state.visited.Nodup → final.visited.Nodup
  dispatched : dispatched events = (entered events).filter table.contains
  settled : ∀ event ∈ events, event.Settled table final.visited joins

/-- The number of nodes that have not been visited is below the budget. -/
def Fits (table : NodeTable) (budget : Nat) (state : State) : Prop :=
  (table.keys.filter fun id => !state.visited.contains id).length < budget

variable {table : NodeTable} {joins waiting : List String}

/-- With more ids visited there are no more nodes left. -/
theorem Fits.of_visited {budget : Nat} {state final : State} (h : Fits table budget state)
    (hsub : ∀ id ∈ state.visited, id ∈ final.visited) : Fits table budget final := by
  refine Nat.lt_of_le_of_lt ?_ h
  rw [← List.countP_eq_length_filter, ← List.countP_eq_length_filter]
  refine List.countP_mono_left fun id _ hid => ?_
  simp only [Bool.not_eq_true', List.contains_eq_mem, decide_eq_false_iff_not] at hid ⊢
  exact fun hmem => hid (hsub id hmem)

/-- At the beginning a budget of one more than the number of nodes is enough. -/
theorem Fits.start (table : NodeTable) (context : Context) :
    Fits table (table.size + 1) { context } := by
  have h : (table.keys.filter fun id => !([] : List String).contains id).length ≤
      table.keys.length := List.length_filter_le _ _
  have hkeys : table.keys.length = table.size := List.length_map _
  exact Nat.lt_succ_of_le (hkeys ▸ h)

/-- An id stays settled when more ids are visited and the join points that wait no longer are
settled. -/
theorem Settled.mono {visited later : List String} {id : String}
    (h : Settled visited (joins ++ waiting) id) (hsub : ∀ id ∈ visited, id ∈ later)
    (hwaiting : ∀ id ∈ waiting, Settled later joins id) : Settled later joins id := by
  rcases h with hid | hid
  · exact .inl (hsub id hid)
  · rcases List.mem_append.1 hid with hid | hid
    · exact .inr hid
    · exact hwaiting id hid

/-- An event stays settled in the same way. -/
theorem Event.Settled.mono {visited later : List String} {event : Event}
    (h : event.Settled table visited (joins ++ waiting)) (hsub : ∀ id ∈ visited, id ∈ later)
    (hwaiting : ∀ id ∈ waiting, Walk.Settled later joins id) : event.Settled table later joins := by
  cases event with
  | postponed id => exact Walk.Settled.mono h hsub hwaiting
  | began id shared =>
      intro node hnode next hnext
      exact (h node hnode next hnext).mono hsub hwaiting
  | _ => trivial

namespace Progress

variable {events later : List Event} {state middle final : State}

/-- Nothing happens when only the context changes. -/
theorem of_context (joins : List String) (state : State) (context : Context) :
    Progress table joins [] state { state with context } where
  trace := rfl
  visited := rfl
  nodup := fun h => h
  dispatched := rfl
  settled := by simp

/-- The visited ids stay visited. -/
theorem mem_visited (h : Progress table joins events state final) {id : String}
    (hid : id ∈ state.visited) : id ∈ final.visited := by
  rw [h.visited]
  exact List.mem_append_right _ hid

/-- Parts of a walk can be joined, if what waits no longer in the second part is settled by it. -/
theorem release (hfirst : Progress table (joins ++ waiting) events state middle)
    (hlater : Progress table joins later middle final)
    (hwaiting : ∀ id ∈ waiting, Settled final.visited joins id) :
    Progress table joins (later ++ events) state final where
  trace := by rw [hlater.trace, hfirst.trace, List.append_assoc]
  visited := by
    rw [hlater.visited, hfirst.visited, ← List.append_assoc, entered, entered, entered,
      List.filterMap_append]
  nodup := fun h => hlater.nodup (hfirst.nodup h)
  dispatched := by
    have hfirst := hfirst.dispatched
    have hlater := hlater.dispatched
    simp only [Walk.dispatched, entered] at hfirst hlater ⊢
    rw [List.filterMap_append, List.filterMap_append, List.filter_append, hfirst, hlater]
  settled := by
    intro event hevent
    rcases List.mem_append.1 hevent with hevent | hevent
    · exact hlater.settled event hevent
    · exact (hfirst.settled event hevent).mono (fun _ => hlater.mem_visited) hwaiting

/-- Parts of a walk with the same join points can be joined. -/
theorem trans (hfirst : Progress table joins events state middle)
    (hlater : Progress table joins later middle final) :
    Progress table joins (later ++ events) state final := by
  rw [← List.append_nil joins] at hfirst
  exact hfirst.release hlater (by simp)

/-- What fits before a part of a walk fits after it. -/
theorem fits {budget : Nat} (h : Progress table joins events state final)
    (hfits : Fits table budget state) : Fits table budget final :=
  hfits.of_visited fun _ => h.mem_visited

end Progress

/-- Visiting a node of the table leaves fewer nodes to visit. -/
theorem Fits.enter {budget : Nat} {id : String} {node : Node} {state : State}
    (h : Fits table (budget + 1) state) (hnode : table.get? id = some node)
    (hid : id ∉ state.visited) : Fits table budget (state.enter id) := by
  have hkey : id ∈ table.keys := List.mem_map_of_mem (Keyed.mem_entries_of_get? hnode)
  have hsplit : (table.keys.filter fun key => !(state.enter id).visited.contains key) =
      (table.keys.filter fun key => !state.visited.contains key).filter fun key => key != id := by
    rw [List.filter_filter]
    exact List.filter_congr fun key _ => by simp [State.enter, Bool.beq_eq_decide_eq, bne]
  have hlt : ((table.keys.filter fun key => !state.visited.contains key).filter
      fun key => key != id).length <
        (table.keys.filter fun key => !state.visited.contains key).length :=
    List.length_filter_lt_length_iff_exists.2 ⟨id, by simp [hkey, hid], by simp⟩
  unfold Fits at h ⊢
  rw [hsplit]
  omega

/-- Following a chain restores the join points, makes progress and settles the id of the chain. -/
structure Settles (table : NodeTable) (budget : Nat) (follow : String → Walk Unit) : Prop where
  joins : ∀ id state, (after (follow id) state).joins = state.joins
  progress : ∀ id state, Fits table budget state →
    ∃ events, Progress table state.joins events state (after (follow id) state) ∧
      Settled (after (follow id) state).visited state.joins id

variable {setting : Setting} {follow : String → Walk Unit} {budget : Nat} {id : String}
  {node : Node} {state : State}

/-- A course makes progress and settles its ids if following a chain does. -/
theorem Course.progress {ids : List String} {state final : State}
    (hfollow : Settles table budget follow) (h : Course follow ids state final)
    (hfits : Fits table budget state) :
    ∃ events, Progress table state.joins events state final ∧
      ∀ id ∈ ids, Settled final.visited state.joins id := by
  induction h with
  | done state => exact ⟨[], .of_context _ state state.context, by simp⟩
  | @context _ state _ context _ ih =>
      obtain ⟨events, hprogress, hsettled⟩ := ih hfits
      exact ⟨events ++ [], (Progress.of_context _ state context).trans hprogress, hsettled⟩
  | @chain _ state _ id _ ih =>
      obtain ⟨first, hfirst, hid⟩ := hfollow.progress id state hfits
      obtain ⟨later, hlater, hids⟩ := ih (hfirst.fits hfits)
      rw [hfollow.joins] at hlater hids
      refine ⟨later ++ first, hfirst.trans hlater, ?_⟩
      intro next hnext
      rcases List.mem_cons.1 hnext with rfl | hnext
      · rw [← List.append_nil state.joins] at hid
        exact hid.mono (fun _ => hlater.mem_visited) (by simp)
      · exact hids next hnext

/-- The statements of a node begin with all that it leads to still to be settled. -/
theorem opened_progress (hnode : setting.table.get? id = some node) (hid : id ∉ state.visited) :
    let shared := sharedAfter setting (id :: state.visited) node
    Progress setting.table (state.joins ++ node.leadsTo shared) [.began id shared, .entered id]
      state ((state.enter id).opened setting id node) where
  trace := rfl
  visited := rfl
  nodup := fun h => List.nodup_cons.2 ⟨hid, h⟩
  dispatched := by simp [dispatched, entered, Keyed.contains, hnode]
  settled := by
    intro event hevent
    simp only [List.mem_cons, List.not_mem_nil, or_false] at hevent
    rcases hevent with rfl | rfl
    · intro found hfound next hnext
      obtain rfl : found = node := Option.some.inj (hfound.symm.trans hnode)
      exact .inr (List.mem_append_right _ hnext)
    · trivial

/-- The statements of a node settle its heads, as long as its outputs and shared continuations may
wait. -/
theorem dispatch_progress (hplain : setting.isPlain node = true)
    (hfits : Fits setting.table budget (state.enter id))
    (hfollow : Settles setting.table budget follow) :
    let opened := (state.enter id).opened setting id node
    let closed := after (dispatch setting (·.forM follow) node) opened
    ∃ waiting events,
      Progress setting.table (state.joins ++ waiting) events opened closed ∧
        (∀ next ∈ node.heads, Settled closed.visited (state.joins ++ waiting) next) ∧
        ∀ next ∈ waiting, node.kind.endsChain = false ∧
          next ∈ node.outputs ++ sharedAfter setting (id :: state.visited) node := by
  intro opened closed
  have hcourse : Course follow node.heads opened closed := dispatch_follows hplain opened
  cases hends : node.kind.endsChain with
  | true =>
      -- Nothing is followed, so it does not matter what waits.
      have hheads : node.heads = [] := (List.append_eq_nil_iff.1 (node.leadsTo_eq_nil hends [])).1
      rw [hheads] at hcourse ⊢
      refine ⟨[], [], ?_, by simp, by simp⟩
      rw [hcourse.eq_of_nil]
      exact .of_context _ opened closed.context
  | false =>
      obtain ⟨events, hprogress, hsettled⟩ := hcourse.progress hfollow hfits
      refine ⟨_, events, hprogress, hsettled, fun next hnext => ⟨rfl, ?_⟩⟩
      split at hnext
      · exact hnext
      · cases hnext

/-- A node that is written settles all that it leads to. -/
theorem write_progress (hplain : setting.isPlain node = true)
    (hnode : setting.table.get? id = some node) (hid : id ∉ state.visited)
    (hfits : Fits setting.table budget (state.enter id))
    (hfollow : Settles setting.table budget follow) :
    ∃ events, Progress setting.table state.joins events state
      (after (write setting follow id node) (state.enter id)) ∧
        id ∈ (after (write setting follow id node) (state.enter id)).visited := by
  have hopened := opened_progress hnode hid
  obtain ⟨waiting, body, hbody, hheads, hwaiting⟩ :=
    dispatch_progress hplain hfits hfollow
  have hfinal := after_write follow id (state.enter id) hplain
  generalize after (dispatch setting (·.forM follow) node)
    ((state.enter id).opened setting id node) = closed at hbody hheads hfinal
  generalize after (write setting follow id node) (state.enter id) = final at hfinal ⊢
  generalize hshared : sharedAfter setting (id :: state.visited) node = shared at hopened hwaiting
  have hvisited : (state.enter id).visited = id :: state.visited := rfl
  simp only [hvisited, hshared] at hfinal
  -- What waited during the statements waits no longer; the rest of the chain has to settle it.
  generalize continuationOf node.kind = continuation at hfinal
  have hresumed : Progress setting.table state.joins [.ended id continuation] closed
      (closed.resume id continuation state.joins) :=
    ⟨rfl, rfl, fun h => h, rfl, by simp [Event.Settled]⟩
  obtain ⟨tail, htail, hnext⟩ : ∃ tail, Progress setting.table state.joins tail closed final ∧
      (node.kind.endsChain = false → ∀ next ∈ node.outputs ++ shared,
        Settled final.visited state.joins next) := by
    cases hends : node.kind.endsChain with
    | true =>
        simp only [hends, if_true] at hfinal
        exact ⟨_, hfinal ▸ hresumed, by simp⟩
    | false =>
        obtain ⟨later, hlater, hsettled⟩ := (Follows.chains (node.outputs ++ shared)
          (closed.resume id continuation state.joins)).progress hfollow
            (hresumed.fits (hbody.fits hfits))
        simp only [hends, Bool.false_eq_true, if_false] at hfinal
        rw [hfinal]
        exact ⟨_, hresumed.trans hlater, fun _ => hsettled⟩
  -- The join points are released from the inside out: first those of the statements, then what
  -- the node leads to.
  have hrest := hbody.release htail fun next h => hnext (hwaiting next h).1 next (hwaiting next h).2
  refine ⟨_, hopened.release hrest fun next h => ?_, hrest.mem_visited List.mem_cons_self⟩
  rcases List.mem_append.1 h with h | h
  · exact (hheads next h).mono (fun _ => htail.mem_visited) fun next h =>
      hnext (hwaiting next h).1 next (hwaiting next h).2
  · cases hends : node.kind.endsChain with
    | true => simp [hends] at h
    | false => exact hnext hends next (by simpa [hends] using h)

/-- Visits settle their ids if the budget is above the number of nodes still to be visited. -/
theorem visit_settles (hplain : setting.Plain) (budget : Nat) :
    Settles setting.table budget (visit setting budget) := by
  refine ⟨visit_joins setting budget, ?_⟩
  induction budget with
  | zero => exact fun id state hfits => absurd hfits (Nat.not_lt_zero _)
  | succ budget ih =>
      intro id state hfits
      rw [after_visit]
      split
      · next hid => exact ⟨[], .of_context _ state state.context, .inl hid⟩
      · next hid =>
        split
        · next hjoin =>
          -- The id is not visited here, but it is a join point and so settled.
          refine ⟨[.postponed id], ⟨rfl, rfl, fun h => h, rfl, fun event hevent => ?_⟩, .inr hjoin⟩
          rw [List.mem_singleton.1 hevent]
          exact .inr hjoin
        · cases hnode : setting.table.get? id with
          | none =>
              refine ⟨[.left id, .entered id], ⟨rfl, rfl, ?_, ?_, ?_⟩, .inl List.mem_cons_self⟩
              · exact fun h => List.nodup_cons.2 ⟨hid, h⟩
              · simp [dispatched, entered, Keyed.contains, hnode]
              · simp [Event.Settled]
          | some node =>
              obtain ⟨events, hprogress, hmem⟩ := write_progress (hplain.isPlain hnode) hnode hid
                (hfits.enter hnode hid) ⟨visit_joins setting budget, ih⟩
              have hleft : Progress setting.table state.joins [.left id] _
                  ((after (write setting (visit setting budget) id node)
                    (state.enter id)).note (.left id)) :=
                ⟨rfl, rfl, fun h => h, rfl, by simp [Event.Settled]⟩
              exact ⟨_, hprogress.trans hleft, .inl hmem⟩

end Walk

end Emission

end TickScript
