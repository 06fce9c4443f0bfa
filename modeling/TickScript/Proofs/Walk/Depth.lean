import TickScript.Proofs.Emission.Lockstep
import TickScript.Proofs.Walk.Constructs

/-!
# How walks are nested

A walk calls itself through outputs, slots, shared continuations and emitters, and a budget bounds how
deep. `visit_same` says that a budget that is enough could as well be larger. `openWalks` reads off a
journal which walks are being made at a moment, and `Orderly` keeps account of them over any part of a
walk: all but the innermost are at nodes of the table, and no id is entered twice. `walks_end` puts
both together for every table and all emitters.
-/

namespace TickScript.Emission

/-! ## Budgets -/

/-- Statements that keep all ids as they are do the same. -/
theorem Emit.Parallel.eq {node : Node} {α : Type} {action action' : Emit α}
    (h : Emit.Parallel (fun name => name) node action action') : action' = action := by
  induction h with
  | bind _ _ ih ihnext => rw [ih, funext ihnext]
  | input => rw [Node.rename_same]
  | pure | fresh | say | enter | exit | require | actor | warn | produce => rfl

namespace Walk

/-- A budget that is enough before an action is enough after it. -/
def Lasts (table : NodeTable) (budget : Nat) {α : Type} (action : Walk α) : Prop :=
  ∀ state, Fits table budget state → Fits table budget (after action state)

theorem Tours.lasts {setting : Setting} {budget : Nat} {allowed : String → Prop} {α : Type}
    {action : Walk α} (h : Tours setting budget allowed action) :
    Lasts setting.table budget action := by
  intro state hfits
  obtain ⟨ids, -, htour⟩ := h state hfits
  exact htour.fits hfits

/-- Two actions do the same from all states for which the budget is enough. -/
def Same (table : NodeTable) (budget : Nat) {α : Type} (action action' : Walk α) : Prop :=
  ∀ state, Fits table budget state → action'.run state = action.run state

namespace Same

variable {table : NodeTable} {budget : Nat} {α β : Type} {action action' : Walk α}

theorem refl (action : Walk α) : Same table budget action action := fun _ _ => rfl

theorem after_eq (h : Same table budget action action') {state : State}
    (hfits : Fits table budget state) : after action' state = after action state :=
  congrArg Prod.snd (h state hfits)

theorem bind {next next' : α → Walk β} (hlasts : Lasts table budget action)
    (h : Same table budget action action')
    (hnext : ∀ value, Same table budget (next value) (next' value)) :
    Same table budget (action >>= next) (action' >>= next') := by
  intro state hfits
  change (next' (action'.run state).1).run (action'.run state).2 =
    (next (action.run state).1).run (action.run state).2
  rw [h state hfits]
  exact hnext _ _ (hlasts state hfits)

/-- Chains from a list of ids. -/
theorem chains {follow follow' : String → Walk Unit} (hlasts : ∀ id, Lasts table budget (follow id))
    (h : ∀ id, Same table budget (follow id) (follow' id)) (ids : List String) :
    Same table budget (ids.forM follow) (ids.forM follow') := by
  induction ids with
  | nil => exact .refl _
  | cons id ids ih => exact .bind (hlasts id) (h id) fun _ => ih

end Same

theorem FollowsTours.lasts {setting : Setting} {budget : Nat} {follow : String → Walk Unit}
    (h : FollowsTours setting budget follow) (id : String) :
    Lasts setting.table budget (follow id) := fun state hfits => (h id state hfits).fits hfits

variable {setting : Setting} {budget : Nat} {follow follow' : String → Walk Unit} {node : Node}

/-- Control structures do the same if the chains that they follow do. -/
theorem Parallel.same (htours : FollowsTours setting budget follow)
    (hfollow : ∀ id, Same setting.table budget (follow id) (follow' id)) {α : Type}
    {action action' : Walk α} (h : Parallel (fun name => name) node follow follow' action action') :
    Same setting.table budget action action' := by
  induction h with
  | pure => exact .refl _
  | bind haction _ ih ihnext => exact .bind (haction.tours htours).lasts ih ihnext
  | lift h =>
      rw [h.eq]
      exact .refl _
  | chain id _ => exact hfollow id

end Walk

/-- A routine does the same if the branches that it writes do. -/
theorem Routine.run_same {α : Type} {registry : Registry} {branch branch' : List String → Walk Unit}
    {setting : Setting} {budget : Nat} {allowed : String → Prop}
    (htours : ∀ ids, Walk.Tours setting budget allowed (branch ids))
    (hbranch : ∀ ids, Walk.Same setting.table budget (branch ids) (branch' ids))
    (routine : Routine α) :
    Walk.Same setting.table budget (routine.run registry branch) (routine.run registry branch') := by
  induction routine with
  | done value => exact .refl _
  | ask request next ih =>
      exact .bind (fun state hfits => hfits) (.refl (Walk.lift request.perform)) ih
  | branch ids next ih => exact .bind (htours ids).lasts (hbranch ids) fun _ => ih
  | registered next ih => exact ih _

namespace Walk

section Budgets

variable {setting : Setting} {budget : Nat} {follow follow' : String → Walk Unit} {node : Node}

/-- The statements of a node do the same if the chains that they follow do. -/
theorem dispatch_same (htours : FollowsTours setting budget follow)
    (hfollow : ∀ id, Same setting.table budget (follow id) (follow' id)) (node : Node) :
    Same setting.table budget (dispatch setting (·.forM follow) node)
      (dispatch setting (·.forM follow') node) := by
  cases hplain : setting.isPlain node with
  | true => exact (dispatch_parallel_same hplain hplain).same htours hfollow
  | false =>
      obtain ⟨routine, hroutine⟩ := exists_routine hplain
      rw [hroutine, hroutine]
      exact Routine.run_same (.of_chains htours) (.chains htours.lasts hfollow) routine

/-- A visit does the same with more budget than it needs. -/
theorem visit_same (setting : Setting) (budget more : Nat) (id : String) :
    Same setting.table budget (visit setting budget id) (visit setting (budget + more) id) := by
  induction budget generalizing id with
  | zero => exact fun state hfits => absurd hfits (Nat.not_lt_zero _)
  | succ budget ih =>
      intro state hfits
      suffices h : after (visit setting (budget + 1 + more) id) state =
          after (visit setting (budget + 1) id) state from congrArg (Prod.mk PUnit.unit) h
      rw [show budget + 1 + more = budget + more + 1 by omega, after_visit, after_visit]
      split
      · rfl
      · next hid =>
        split
        · rfl
        · cases hnode : setting.table.get? id with
          | none => rfl
          | some node =>
              have hopened : Fits setting.table budget ((state.enter id).opened setting id node) :=
                hfits.enter hnode hid
              obtain ⟨heads, -, hbody⟩ :=
                @dispatch_tours setting node budget _ (visit_tours setting budget) _ hopened
              have hdispatch := dispatch_same (visit_tours setting budget) ih node
              have hresumed (continuation : Continuation) : Fits setting.table budget ((after
                  (dispatch setting (·.forM (visit setting budget)) node)
                  ((state.enter id).opened setting id node)).resume id continuation
                    (state.enter id).joins) :=
                hbody.fits hopened
              dsimp only
              rw [after_write_eq, after_write_eq]
              dsimp only
              rw [hdispatch _ hopened, hdispatch.after_eq hopened,
                (Same.chains (visit_tours setting budget).lasts ih _).after_eq (hresumed _)]

end Budgets

/-! ## Nested walks -/

/-- The ids that have been entered and not left, the innermost first. -/
def openWalks : List Event → List String
  | [] => []
  | .entered id :: trace => id :: openWalks trace
  | .left _ :: trace => (openWalks trace).tail
  | _ :: trace => openWalks trace

/-- Ids are entered only from inside of nodes of the table, and only the innermost one is left. -/
def Stacked (table : NodeTable) : List Event → Prop
  | [] => True
  | .entered _ :: trace =>
      (∀ outer ∈ openWalks trace, table.contains outer = true) ∧ Stacked table trace
  | .left id :: trace => (openWalks trace).head? = some id ∧ Stacked table trace
  | _ :: trace => Stacked table trace

/-- Ids that are all different and in a table are no more than its nodes. -/
theorem length_le_size {table : NodeTable} {ids : List String} (hnodup : ids.Nodup)
    (h : ∀ id ∈ ids, table.contains id = true) : ids.length ≤ table.size := by
  have hsub : ids ⊆ table.keys := fun id hid => Keyed.contains_iff_mem_keys.1 (h id hid)
  exact Nat.le_trans (hnodup.subperm hsub).length_le (Nat.le_of_eq (List.length_map _))

section Stacked

variable {table : NodeTable} {later earlier trace : List Event}

/-- What is open after more events are the walks that those open and the ones from before. -/
theorem openWalks_append (h : Stacked table later) (earlier : List Event) :
    openWalks (later ++ earlier) = openWalks later ++ openWalks earlier := by
  induction later with
  | nil => rfl
  | cons event later ih =>
      cases event with
      | entered id => simp only [List.cons_append, openWalks, ih h.2]
      | left id =>
          have hopen : openWalks later ≠ [] := List.ne_nil_of_mem (List.mem_of_head? h.1)
          simp only [List.cons_append, openWalks, ih h.2, List.tail_append_of_ne_nil hopen]
      | _ => simp only [List.cons_append, openWalks, ih h]

theorem Stacked.append (hlater : Stacked table later) (hearlier : Stacked table earlier)
    (hopen : ∀ outer ∈ openWalks earlier, table.contains outer = true) :
    Stacked table (later ++ earlier) := by
  induction later with
  | nil => exact hearlier
  | cons event later ih =>
      cases event with
      | entered id =>
          have houter := List.forall_mem_append.2 ⟨hlater.1, hopen⟩
          rw [← openWalks_append hlater.2] at houter
          exact ⟨houter, ih hlater.2⟩
      | left id =>
          have hhead : (openWalks (later ++ earlier)).head? = some id := by
            rw [openWalks_append hlater.2, List.head?_append, hlater.1]
            rfl
          exact ⟨hhead, ih hlater.2⟩
      | _ => exact ih hlater

/-- What happened first is stacked. -/
theorem Stacked.of_append (h : Stacked table (later ++ earlier)) : Stacked table earlier := by
  induction later with
  | nil => exact h
  | cons event later ih =>
      cases event with
      | entered | left => exact ih h.2
      | _ => exact ih h

/-- What is open has been entered. -/
theorem openWalks_sublist (trace : List Event) : (openWalks trace).Sublist (entered trace) := by
  induction trace with
  | nil => exact .refl _
  | cons event trace ih =>
      cases event with
      | entered id => exact ih.cons_cons id
      | left id => exact (List.tail_sublist _).trans ih
      | _ => exact ih

/-- All walks that are open but the innermost are at nodes of the table. -/
theorem Stacked.contains_tail (h : Stacked table trace) :
    ∀ outer ∈ (openWalks trace).tail, table.contains outer = true := by
  induction trace with
  | nil => simp [openWalks]
  | cons event trace ih =>
      cases event with
      | entered id => exact h.1
      | left id => exact fun outer houter => ih h.2 outer (List.mem_of_mem_tail houter)
      | _ => exact ih h

/-- Walks at different ids are nested no deeper than the table is large plus one. -/
theorem Stacked.length_le (h : Stacked table trace) (hnodup : (entered trace).Nodup) :
    (openWalks trace).length ≤ table.size + 1 := by
  have hopen : (openWalks trace).Nodup := hnodup.sublist (openWalks_sublist trace)
  have hle := length_le_size hopen.tail h.contains_tail
  rw [List.length_tail] at hle
  omega

end Stacked

/-- What happens in a part of a walk, with some ids visited before: nested walks are stacked and all of
them end, no id is entered twice, and the nodes that are written are those under the ids entered. -/
structure Orderly (table : NodeTable) (visited : List String) (trace : List Event) : Prop where
  stacked : Stacked table trace
  closed : openWalks trace = []
  fresh : ∀ id ∈ entered trace, id ∉ visited
  nodup : (entered trace).Nodup
  dispatched : dispatched trace = (entered trace).filter table.contains

namespace Orderly

variable {table : NodeTable} {visited : List String} {later earlier : List Event} {id : String}

theorem nil : Orderly table visited [] := ⟨trivial, rfl, by simp [entered], .nil, rfl⟩

theorem postponed (id : String) : Orderly table visited [.postponed id] :=
  ⟨trivial, rfl, by simp [entered], .nil, rfl⟩

/-- Parts of a walk can be joined. -/
theorem append (hlater : Orderly table (entered earlier ++ visited) later)
    (hearlier : Orderly table visited earlier) : Orderly table visited (later ++ earlier) where
  stacked := hlater.stacked.append hearlier.stacked (by simp [hearlier.closed])
  closed := by rw [openWalks_append hlater.stacked, hlater.closed, hearlier.closed]; rfl
  fresh := by
    rw [entered_append]
    exact List.forall_mem_append.2
      ⟨fun id hid hold => hlater.fresh id hid (List.mem_append_right _ hold), hearlier.fresh⟩
  nodup := by
    rw [entered_append]
    exact List.nodup_append'.2 ⟨hlater.nodup, hearlier.nodup,
      fun id hid hold => hlater.fresh id hid (List.mem_append_left _ hold)⟩
  dispatched := by
    rw [dispatched_append, entered_append, List.filter_append, hlater.dispatched, hearlier.dispatched]

/-- An id without a node is entered and left. -/
theorem missing (hid : id ∉ visited) (hnode : table.get? id = none) :
    Orderly table visited [.left id, .entered id] where
  stacked := ⟨rfl, by simp [openWalks], trivial⟩
  closed := rfl
  fresh := by simpa [entered] using hid
  nodup := List.nodup_singleton id
  dispatched := by simp [Walk.dispatched, entered, Keyed.contains, hnode]

/-- A node is entered, written and left. Whatever is entered in between is entered from inside of a
node of the table. -/
theorem node {inside rest : List Event} {node : Node} (shared : List String)
    (continuation : Continuation) (hid : id ∉ visited)
    (hnode : table.get? id = some node) (hinside : Orderly table (id :: visited) inside)
    (hrest : Orderly table (entered inside ++ id :: visited) rest) :
    Orderly table visited
      (.left id :: (rest ++ .ended id continuation :: (inside ++ [.began id shared, .entered id]))) := by
  have hcontains : table.contains id = true := by simp [Keyed.contains, hnode]
  -- The statements of the node and what follows it come while the walk of the id is open.
  have hbegun : Stacked table [.began id shared, .entered id] := ⟨by simp [openWalks], trivial⟩
  have hwritten :
      Stacked table (.ended id continuation :: (inside ++ [.began id shared, .entered id])) :=
    hinside.stacked.append hbegun (by simpa [openWalks] using hcontains)
  have hopen :
      openWalks (.ended id continuation :: (inside ++ [.began id shared, .entered id])) = [id] := by
    change openWalks (inside ++ [.began id shared, .entered id]) = [id]
    rw [openWalks_append hinside.stacked, hinside.closed]
    rfl
  have hfollowed := openWalks_append hrest.stacked
    (.ended id continuation :: (inside ++ [.began id shared, .entered id]))
  rw [hrest.closed, hopen, List.nil_append] at hfollowed
  have hentered : entered
      (.left id :: (rest ++ .ended id continuation :: (inside ++ [.began id shared, .entered id]))) =
        entered rest ++ (entered inside ++ [id]) := by
    simp [entered]
  refine ⟨⟨by simp [hfollowed], hrest.stacked.append hwritten ?_⟩, ?_, ?_, ?_, ?_⟩
  · simpa [hopen] using hcontains
  · simp [openWalks, hfollowed]
  · intro next hnext hold
    rw [hentered] at hnext
    rcases List.mem_append.1 hnext with hnext | hnext
    · exact hrest.fresh next hnext (by simp [hold])
    · rcases List.mem_append.1 hnext with hnext | hnext
      · exact hinside.fresh next hnext (List.mem_cons_of_mem _ hold)
      · exact hid (List.mem_singleton.1 hnext ▸ hold)
  · rw [hentered]
    refine List.nodup_append'.2 ⟨hrest.nodup, List.nodup_append'.2 ⟨hinside.nodup,
      List.nodup_singleton id, ?_⟩, fun next hnext hold => hrest.fresh next hnext ?_⟩
    · simpa using fun h => hinside.fresh id h List.mem_cons_self
    · rcases List.mem_append.1 hold with hold | hold
      · exact List.mem_append_left _ hold
      · simp [List.mem_singleton.1 hold]
  · rw [hentered, List.filter_append, List.filter_append, ← hrest.dispatched, ← hinside.dispatched]
    simp [Walk.dispatched, hcontains]

end Orderly

/-- A part of a walk that made some marks, from which its order and what it visited are read off. -/
structure Descent (table : NodeTable) (marks : List Mark) (state final : State) : Prop where
  journal : final.journal = marks ++ state.journal
  visited : final.visited = entered (events marks) ++ state.visited
  orderly : Orderly table state.visited (events marks)

namespace Descent

variable {setting : Setting} {table : NodeTable} {later earlier inside rest : List Mark} {id : String}
  {state middle final closed written : State}

theorem trans (hfirst : Descent table earlier state middle)
    (hlater : Descent table later middle final) : Descent table (later ++ earlier) state final where
  journal := by rw [hlater.journal, hfirst.journal, List.append_assoc]
  visited := by rw [hlater.visited, hfirst.visited, events_append, entered_append, List.append_assoc]
  orderly := by
    rw [events_append]
    exact .append (hfirst.visited ▸ hlater.orderly) hfirst.orderly

theorem postponed (state : State) (id : String) :
    Descent table [⟨.postponed id, state.context.written.length⟩] state
      (state.note (.postponed id)) :=
  ⟨rfl, rfl, .postponed id⟩

theorem missing (hid : id ∉ state.visited) (hnode : table.get? id = none) :
    Descent table
      [⟨.left id, state.context.written.length⟩, ⟨.entered id, state.context.written.length⟩] state
      ((state.enter id).note (.left id)) :=
  ⟨rfl, rfl, .missing hid hnode⟩

theorem node {node : Node} {continuation : Continuation} (hid : id ∉ state.visited)
    (hnode : setting.table.get? id = some node)
    (hinside : Descent setting.table inside ((state.enter id).opened setting id node) closed)
    (hrest : Descent setting.table rest (closed.resume id continuation state.joins) written) :
    Descent setting.table
      (⟨.left id, written.context.written.length⟩ ::
        (rest ++ ⟨.ended id continuation, closed.context.written.length⟩ :: (inside ++
          [⟨.began id (sharedAfter setting (id :: state.visited) node),
              state.context.written.length⟩,
            ⟨.entered id, state.context.written.length⟩])))
      state (written.note (.left id)) := by
  have hclosed : closed.visited = entered (events inside) ++ id :: state.visited := hinside.visited
  have hwritten : written.visited = entered (events rest) ++ closed.visited := hrest.visited
  refine ⟨?_, ?_, ?_⟩
  · have hjournal : written.journal = rest ++
        ⟨.ended id continuation, closed.context.written.length⟩ :: closed.journal := hrest.journal
    rw [State.note, hjournal, hinside.journal]
    simp [State.opened, State.suspend, State.enter, State.note]
  · rw [State.note, hwritten, hclosed]
    simp [entered]
  · have hrest : Orderly setting.table closed.visited (events rest) := hrest.orderly
    simpa using Orderly.node (sharedAfter setting (id :: state.visited) node) continuation hid hnode
      hinside.orderly (hclosed ▸ hrest)

end Descent

/-- A tour is a descent. -/
theorem Tour.descent {setting : Setting} {ids : List String} {state final : State}
    (h : Tour setting ids state final) : ∃ marks, Descent setting.table marks state final := by
  induction h with
  | done => exact ⟨[], rfl, rfl, .nil⟩
  | context _ _ _ ih =>
      obtain ⟨marks, hlater⟩ := ih
      exact ⟨marks, hlater.journal, hlater.visited, hlater.orderly⟩
  | visited _ _ ih => exact ih
  | postponed _ _ _ ih =>
      obtain ⟨marks, hlater⟩ := ih
      exact ⟨_, (Descent.postponed _ _).trans hlater⟩
  | missing hid _ hnode _ ih =>
      obtain ⟨marks, hlater⟩ := ih
      exact ⟨_, (Descent.missing hid hnode).trans hlater⟩
  | node hid _ hnode _ _ _ _ _ ihbody ihrest ih =>
      obtain ⟨inside, hinside⟩ := ihbody
      obtain ⟨rest, hrest⟩ := ihrest
      obtain ⟨marks, hlater⟩ := ih
      exact ⟨_, (Descent.node hid hnode hinside hrest).trans hlater⟩

/-- Every walk ends, whatever the table and the emitters are: it does the same with any larger budget,
so the budget is never used up. At every moment the walks that have been entered and not left are at
different ids, which were not visited before, and there is at most one more of them than the table has
nodes. In the end all of them have been left, and no node has been written twice. -/
theorem walks_end (setting : Setting) (ids : List String) (state : State) :
    (∀ more, (ids.forM (visit setting (setting.table.size + 1 + more))).run state =
      (branch setting ids).run state) ∧
    ∃ marks, (after (branch setting ids) state).journal = marks ++ state.journal ∧
      (∀ later earlier, marks = later ++ earlier →
        (openWalks (events earlier)).Nodup ∧
        (∀ id ∈ openWalks (events earlier), id ∉ state.visited) ∧
        (openWalks (events earlier)).length ≤ setting.table.size + 1) ∧
      openWalks (events marks) = [] ∧
      (dispatched (events marks)).Nodup ∧
      (dispatched (events marks)).length ≤ setting.table.size := by
  have hfits : Fits setting.table (setting.table.size + 1) state :=
    (Fits.start setting.table {}).of_visited (by simp)
  refine ⟨fun more => ?_, ?_⟩
  · exact Same.chains (visit_tours setting _).lasts (visit_same setting _ more) ids state hfits
  · obtain ⟨marks, hjournal, -, horderly⟩ := (branch_tour setting ids state).descent
    have hdispatched : (dispatched (events marks)).Nodup := by
      rw [horderly.dispatched]
      exact horderly.nodup.filter _
    refine ⟨marks, hjournal, ?_, horderly.closed, hdispatched, length_le_size hdispatched ?_⟩
    · rintro later earlier rfl
      obtain ⟨hstacked, -, hfresh, hnodup, -⟩ := horderly
      rw [events_append] at hstacked hfresh hnodup
      rw [entered_append] at hfresh hnodup
      have hearlier : (entered (events earlier)).Nodup := hnodup.of_append_right
      have hopen := openWalks_sublist (events earlier)
      exact ⟨hearlier.sublist hopen,
        fun id hid => hfresh id (List.mem_append_right _ (hopen.subset hid)),
        hstacked.of_append.length_le hearlier⟩
    · intro id hid
      rw [horderly.dispatched] at hid
      exact (List.mem_filter.1 hid).2

end Walk

end TickScript.Emission
