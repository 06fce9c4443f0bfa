import Mathlib.Logic.Relation
import TickScript.Proofs.Walk.Phases
import TickScript.Proofs.Walk.Reach

/-!
# Moments of a walk

A walk is a recursive function, and what it does on the way does not show in its result. Here it is a
machine that takes one small step after another. A moment is a state with an agenda of what is still
to be done, and `Advances` lists the steps. `walk_reaches` proves that a walk of a plain setting is a
run of the machine, so that an invariant of the machine holds at every moment of the walk.
`values_exact` states one: at every moment just those nodes have a value whose statements have
recorded it by then.
-/

namespace TickScript.Emission.Walk

/-- A node that is being written: its id, what its slots share, and the join points from before. -/
structure Writing where
  id : String
  node : Node
  shared : List String
  joins : List String

/-- Something that is still to be done. -/
inductive Duty where
  /-- To write the chain from an id. -/
  | visit (id : String)
  /-- To go on with the statements of a node, with the given phases to come. -/
  | statements (writing : Writing) (phases : List Phase)
  /-- To leave an id after all that follows it. -/
  | leave (id : String)

/-- A state of a walk and what is still to be done, the next duty first. -/
structure Moment where
  state : State
  agenda : List Duty

/-- One small step of a walk. The statements of a node change the context in ways that record nothing,
record the value of the node, or come to a slot; all other steps concern the ids that the walk comes
to. -/
inductive Advances (setting : Setting) : Moment → Moment → Prop where
  | edit {state : State} {context : Context} {writing : Writing} {phases : List Phase}
      {agenda : List Duty} : Edit state.context context →
        Advances setting ⟨state, .statements writing phases :: agenda⟩
          ⟨{ state with context }, .statements writing phases :: agenda⟩
  | record {state : State} {writing : Writing} {phases : List Phase} {agenda : List Duty}
      {expr : String} : MayRecord writing.node state.context expr →
        Advances setting ⟨state, .statements writing (.record :: phases) :: agenda⟩
          ⟨{ state with context := state.context.record writing.node.id expr },
            .statements writing phases :: agenda⟩
  | slot {state : State} {writing : Writing} {name : String} {phases : List Phase}
      {agenda : List Duty} :
        Advances setting ⟨state, .statements writing (.slot name :: phases) :: agenda⟩
          ⟨state, (writing.node.slot name).map .visit ++ .statements writing phases :: agenda⟩
  | finish {state : State} {writing : Writing} {agenda : List Duty} :
      Advances setting ⟨state, .statements writing [] :: agenda⟩
        ⟨state.resume writing.id (continuationOf writing.node.kind) writing.joins,
          (if writing.node.kind.endsChain then [] else writing.node.outputs ++ writing.shared).map
            .visit ++ .leave writing.id :: agenda⟩
  | passed {state : State} {id : String} {agenda : List Duty} : id ∈ state.visited →
      Advances setting ⟨state, .visit id :: agenda⟩ ⟨state, agenda⟩
  | postponed {state : State} {id : String} {agenda : List Duty} : id ∉ state.visited →
      id ∈ state.joins →
        Advances setting ⟨state, .visit id :: agenda⟩ ⟨state.note (.postponed id), agenda⟩
  | missing {state : State} {id : String} {agenda : List Duty} : id ∉ state.visited →
      id ∉ state.joins → setting.table.get? id = none →
        Advances setting ⟨state, .visit id :: agenda⟩ ⟨state.enter id, .leave id :: agenda⟩
  | entered {state : State} {id : String} {node : Node} {agenda : List Duty} : id ∉ state.visited →
      id ∉ state.joins → setting.table.get? id = some node →
        Advances setting ⟨state, .visit id :: agenda⟩
          ⟨(state.enter id).opened setting id node,
            .statements ⟨id, node, sharedAfter setting (id :: state.visited) node, state.joins⟩
              node.phases :: agenda⟩
  | left {state : State} {id : String} {agenda : List Duty} :
      Advances setting ⟨state, .leave id :: agenda⟩ ⟨state.note (.left id), agenda⟩

/-- A moment can be reached from another one by small steps. -/
abbrev Reaches (setting : Setting) : Moment → Moment → Prop :=
  Relation.ReflTransGen (Advances setting)

/-! ## Walks as runs -/

variable {setting : Setting} {budget : Nat} {follow : String → Walk Unit}

/-- Following a chain is a run, whatever is still to be done after it, as long as the budget is above
the number of nodes to be visited. -/
def FollowsSteps (setting : Setting) (budget : Nat) (follow : String → Walk Unit) : Prop :=
  ∀ id state agenda, Fits setting.table budget state →
    Reaches setting ⟨state, .visit id :: agenda⟩ ⟨after (follow id) state, agenda⟩ ∧
      Fits setting.table budget (after (follow id) state)

/-- Following several chains is a run. -/
theorem FollowsSteps.chains (hfollow : FollowsSteps setting budget follow) (ids : List String)
    (agenda : List Duty) {state : State} (hfits : Fits setting.table budget state) :
    Reaches setting ⟨state, ids.map .visit ++ agenda⟩ ⟨after (ids.forM follow) state, agenda⟩ ∧
      Fits setting.table budget (after (ids.forM follow) state) := by
  induction ids generalizing state with
  | nil => exact ⟨.refl, hfits⟩
  | cons id ids ih =>
      obtain ⟨hid, hmiddle⟩ := hfollow id state (ids.map .visit ++ agenda) hfits
      obtain ⟨hids, hfinal⟩ := ih hmiddle
      exact ⟨hid.trans hids, hfinal⟩

/-- What goes through the phases of a node is a run. -/
theorem Runs.reaches (hfollow : FollowsSteps setting budget follow) {writing : Writing}
    {phases : List Phase} {state final : State} (h : Runs follow writing.node phases state final)
    (agenda : List Duty) (hfits : Fits setting.table budget state) :
    Reaches setting ⟨state, .statements writing phases :: agenda⟩
        ⟨final, .statements writing [] :: agenda⟩ ∧
      Fits setting.table budget final := by
  induction h with
  | done => exact ⟨.refl, hfits⟩
  | edit hedit _ ih => exact ⟨.head (.edit hedit) (ih hfits).1, (ih hfits).2⟩
  | record hexpr _ ih => exact ⟨.head (.record hexpr) (ih hfits).1, (ih hfits).2⟩
  | @slot phases _ _ name _ ih =>
      obtain ⟨hchains, hmiddle⟩ := hfollow.chains (writing.node.slot name)
        (.statements writing phases :: agenda) hfits
      exact ⟨.head .slot (hchains.trans (ih hmiddle).1), (ih hmiddle).2⟩

/-- To write a node is a run, if to follow chains is. -/
theorem write_reaches {id : String} {node : Node} {state : State}
    (hfollow : FollowsSteps setting budget follow) (hplain : setting.isPlain node = true)
    (hid : id ∉ state.visited) (hjoin : id ∉ state.joins)
    (hnode : setting.table.get? id = some node) (agenda : List Duty)
    (hfits : Fits setting.table budget (state.enter id)) :
    Reaches setting ⟨state, .visit id :: agenda⟩
        ⟨(after (write setting follow id node) (state.enter id)).note (.left id), agenda⟩ ∧
      Fits setting.table budget
        ((after (write setting follow id node) (state.enter id)).note (.left id)) := by
  let writing : Writing := ⟨id, node, sharedAfter setting (id :: state.visited) node, state.joins⟩
  have hruns : Runs follow writing.node node.phases ((state.enter id).opened setting id node)
      (after (dispatch setting (·.forM follow) node) ((state.enter id).opened setting id node)) :=
    (dispatch_plays hplain _ trivial).1
  obtain ⟨hstatements, hclosed⟩ := hruns.reaches hfollow agenda hfits
  have hwritten := after_write follow id (state.enter id) hplain
  generalize after (dispatch setting (·.forM follow) node)
    ((state.enter id).opened setting id node) = closed at hstatements hclosed hwritten
  have hresumed : Fits setting.table budget
      (closed.resume id (continuationOf node.kind) state.joins) := hclosed
  obtain ⟨hrest, hfinal⟩ := hfollow.chains
    (if node.kind.endsChain then [] else node.outputs ++ writing.shared) (.leave id :: agenda)
    hresumed
  have hfollowed : after (write setting follow id node) (state.enter id) =
      after ((if node.kind.endsChain then [] else node.outputs ++ writing.shared).forM follow)
        (closed.resume id (continuationOf node.kind) state.joins) := by
    rw [hwritten]
    cases node.kind.endsChain <;> rfl
  rw [hfollowed]
  refine ⟨.head (.entered hid hjoin hnode) (hstatements.trans ?_), hfinal⟩
  exact .head .finish (hrest.trans (.single .left))

/-- A visit is a run, if the budget is above the number of nodes to be visited. -/
theorem visit_reaches (hplain : setting.Plain) (budget : Nat) :
    FollowsSteps setting budget (visit setting budget) := by
  induction budget with
  | zero => exact fun id state agenda hfits => absurd hfits (Nat.not_lt_zero _)
  | succ budget ih =>
      intro id state agenda hfits
      rw [after_visit]
      split
      · next hid => exact ⟨.single (.passed hid), hfits⟩
      · next hid =>
        split
        · next hjoin => exact ⟨.single (.postponed hid hjoin), hfits⟩
        · next hjoin =>
          cases hnode : setting.table.get? id with
          | none =>
              refine ⟨.head (.missing hid hjoin hnode) (.single .left), hfits.of_visited ?_⟩
              exact fun other hother => List.mem_cons_of_mem id hother
          | some node =>
              have hbudget := hfits.enter hnode hid
              obtain ⟨hreaches, hfinal⟩ :=
                write_reaches ih (hplain.isPlain hnode) hid hjoin hnode agenda hbudget
              exact ⟨hreaches, Nat.lt_succ_of_lt hfinal⟩

/-- A walk of a plain setting is a run of the machine, which ends with nothing left to do. -/
theorem walk_reaches (hplain : setting.Plain) (context : Context) (entry : String) :
    Reaches setting ⟨{ context }, [.visit entry]⟩ ⟨after (walk setting entry) { context }, []⟩ :=
  (visit_reaches hplain _ entry _ [] (Fits.start setting.table context)).1

/-! ## Nodes that have recorded their value -/

/-- The statements of a node are being written, and recording its value is not among the phases to
come. -/
def Duty.IsPast (id : String) (node : Node) : Duty → Prop
  | .statements writing phases => writing.id = id ∧ writing.node = node ∧ .record ∉ phases
  | _ => False

/-- The statements of a node have ended, or they have come past the recording of its value. -/
def Moment.IsPast (moment : Moment) (id : String) (node : Node) : Prop :=
  (∃ continuation, .ended id continuation ∈ moment.state.trace) ∨
    ∃ duty ∈ moment.agenda, duty.IsPast id node

/-- A node with an id has recorded its value: recording is one of its phases, and lies behind. -/
def Moment.HasRecorded (table : NodeTable) (moment : Moment) (nodeId : String) : Prop :=
  ∃ id node, table.get? id = some node ∧ node.id = nodeId ∧ .record ∈ node.phases ∧
    moment.IsPast id node

section IsPast

variable {state final : State} {duty : Duty} {agenda : List Duty} {id : String} {node : Node}

@[simp] theorem Duty.not_isPast_visit (next : String) : ¬ (Duty.visit next).IsPast id node :=
  fun h => h

@[simp] theorem Duty.not_isPast_leave (next : String) : ¬ (Duty.leave next).IsPast id node :=
  fun h => h

theorem Moment.isPast_cons : Moment.IsPast ⟨state, duty :: agenda⟩ id node ↔
    duty.IsPast id node ∨ Moment.IsPast ⟨state, agenda⟩ id node := by
  simp [Moment.IsPast, or_left_comm]

@[simp] theorem Moment.isPast_visit (next : String) :
    Moment.IsPast ⟨state, .visit next :: agenda⟩ id node ↔ Moment.IsPast ⟨state, agenda⟩ id node := by
  simp [isPast_cons]

@[simp] theorem Moment.isPast_leave (next : String) :
    Moment.IsPast ⟨state, .leave next :: agenda⟩ id node ↔ Moment.IsPast ⟨state, agenda⟩ id node := by
  simp [isPast_cons]

@[simp] theorem Moment.isPast_visits (ids : List String) :
    Moment.IsPast ⟨state, ids.map .visit ++ agenda⟩ id node ↔
      Moment.IsPast ⟨state, agenda⟩ id node := by
  induction ids with
  | nil => rfl
  | cons next ids ih => simpa using ih

/-- It makes no difference what else has happened than the end of statements. -/
theorem Moment.isPast_congr
    (h : ∀ continuation, .ended id continuation ∈ final.trace ↔ .ended id continuation ∈ state.trace) :
    Moment.IsPast ⟨final, agenda⟩ id node ↔ Moment.IsPast ⟨state, agenda⟩ id node :=
  or_congr_left (exists_congr h)

end IsPast

/-- A node is written that stands in the table, and the phases to come are the last of its phases. -/
def Duty.Sound (table : NodeTable) : Duty → Prop
  | .statements writing phases =>
    table.get? writing.id = some writing.node ∧ phases <:+ writing.node.phases
  | _ => True

/-- A moment of a walk that began with a context: its duties are sound, and the nodes with a value are
those that had one at the beginning and those that have recorded one. -/
structure Moment.Exact (table : NodeTable) (context : Context) (moment : Moment) : Prop where
  duties : ∀ duty ∈ moment.agenda, duty.Sound table
  values : ∀ nodeId, (moment.state.context.valueOf? nodeId).isSome ↔
    (context.valueOf? nodeId).isSome ∨ moment.HasRecorded table nodeId

theorem Duty.visit_sound {table : NodeTable} (ids : List String) :
    ∀ duty ∈ ids.map Duty.visit, duty.Sound table := by
  intro duty hduty
  obtain ⟨id, -, rfl⟩ := List.mem_map.1 hduty
  trivial

/-- After its value is recorded a node records no other one. -/
theorem record_notMem_of_suffix {node : Node} {phases : List Phase}
    (h : .record :: phases <:+ node.phases) : .record ∉ phases := by
  have hcount := Nat.le_trans (h.sublist.count_le .record) node.count_record_phases
  rw [List.count_cons_self] at hcount
  exact List.count_eq_zero.1 (Nat.le_zero.1 (Nat.le_of_succ_le_succ hcount))

namespace Moment.Exact

variable {table : NodeTable} {context : Context} {moment next : Moment}

/-- A moment stays exact when no value is recorded and the same nodes lie behind. -/
theorem keep (h : moment.Exact table context) (hduties : ∀ duty ∈ next.agenda, duty.Sound table)
    (hvalues : next.state.context.values = moment.state.context.values)
    (hpast : ∀ id node, table.get? id = some node → .record ∈ node.phases →
      (next.IsPast id node ↔ moment.IsPast id node)) : next.Exact table context where
  duties := hduties
  values := by
    intro nodeId
    have hrecorded : next.HasRecorded table nodeId ↔ moment.HasRecorded table nodeId :=
      exists_congr fun id => exists_congr fun node => and_congr_right fun hnode =>
        and_congr_right fun _ => and_congr_right fun hrecord => hpast id node hnode hrecord
    rw [hrecorded, ← h.values nodeId, Context.valueOf?, Context.valueOf?, hvalues]

/-- A moment stays exact when a node records its value. -/
theorem record {state : State} {writing : Writing} {phases : List Phase} {agenda : List Duty}
    (h : Moment.Exact table context ⟨state, .statements writing (.record :: phases) :: agenda⟩)
    (expr : String) :
    Moment.Exact table context
      ⟨{ state with context := state.context.record writing.node.id expr },
        .statements writing phases :: agenda⟩ := by
  obtain ⟨⟨hnode, hphases⟩, hagenda⟩ := List.forall_mem_cons.1 h.duties
  refine ⟨List.forall_mem_cons.2 ⟨⟨hnode, (List.suffix_cons _ _).trans hphases⟩, hagenda⟩, ?_⟩
  intro nodeId
  by_cases hsame : nodeId = writing.node.id
  · have hpast : (Duty.statements writing phases).IsPast writing.id writing.node :=
      ⟨rfl, rfl, record_notMem_of_suffix hphases⟩
    refine iff_of_true ?_ (.inr ⟨writing.id, writing.node, hnode, hsame.symm,
      hphases.subset List.mem_cons_self, .inr ⟨_, List.mem_cons_self, hpast⟩⟩)
    simp [Context.valueOf?, Context.record, hsame]
  · have hother (id : String) (node : Node) (hid : node.id = nodeId) (rest : List Phase) :
        ¬ (Duty.statements writing rest).IsPast id node := by
      rintro ⟨-, rfl, -⟩
      exact hsame hid.symm
    have hrecorded : Moment.HasRecorded table
        ⟨{ state with context := state.context.record writing.node.id expr },
          .statements writing phases :: agenda⟩ nodeId ↔
        Moment.HasRecorded table ⟨state, .statements writing (.record :: phases) :: agenda⟩
          nodeId := by
      refine exists_congr fun id => exists_congr fun node => and_congr_right fun _ =>
        and_congr_right fun hid => and_congr_right fun _ => ?_
      simp [Moment.IsPast, hother id node hid, State.trace]
    have hvalue : (state.context.record writing.node.id expr).valueOf? nodeId =
        state.context.valueOf? nodeId := by
      simp [Context.valueOf?, Context.record, List.lookup_cons, beq_eq_false_iff_ne.2 hsame]
    rw [hvalue, hrecorded]
    exact h.values nodeId

end Moment.Exact

/-- Every step keeps a moment exact. -/
theorem Advances.exact {context : Context} {moment next : Moment} (h : Advances setting moment next)
    (hexact : moment.Exact setting.table context) : next.Exact setting.table context := by
  have hduties := hexact.duties
  cases h with
  | edit hedit => exact hexact.keep hduties hedit.values_eq fun _ _ _ _ => .rfl
  | record hexpr => exact hexact.record _
  | slot =>
      obtain ⟨⟨hnode, hphases⟩, hagenda⟩ := List.forall_mem_cons.1 hduties
      refine hexact.keep ?_ rfl fun id node _ _ => ?_
      · refine List.forall_mem_append.2 ⟨Duty.visit_sound _, List.forall_mem_cons.2 ⟨?_, hagenda⟩⟩
        exact ⟨hnode, (List.suffix_cons _ _).trans hphases⟩
      · rw [Moment.isPast_visits, Moment.isPast_cons, Moment.isPast_cons]
        simp [Duty.IsPast]
  | @finish state writing agenda =>
      obtain ⟨⟨hnode, -⟩, hagenda⟩ := List.forall_mem_cons.1 hduties
      refine hexact.keep ?_ rfl fun id node hfound _ => ?_
      · exact List.forall_mem_append.2 ⟨Duty.visit_sound _,
          List.forall_mem_cons.2 ⟨trivial, hagenda⟩⟩
      · -- The node under the id is the one whose statements end.
        have hduty : (Duty.statements writing []).IsPast id node ↔ id = writing.id := by
          refine ⟨fun h => h.1.symm, ?_⟩
          rintro rfl
          exact ⟨rfl, Option.some.inj (hnode.symm.trans hfound), List.not_mem_nil⟩
        have hended : Moment.IsPast ⟨state.resume writing.id (continuationOf writing.node.kind)
            writing.joins, agenda⟩ id node ↔
              id = writing.id ∨ Moment.IsPast ⟨state, agenda⟩ id node := by
          simp [Moment.IsPast, State.trace, State.resume, State.note, exists_or, or_assoc]
        rw [Moment.isPast_visits, Moment.isPast_leave, Moment.isPast_cons, hduty, hended]
  | passed hid =>
      exact hexact.keep (List.forall_mem_cons.1 hduties).2 rfl fun id node _ _ => by simp
  | postponed hid hjoin =>
      refine hexact.keep (List.forall_mem_cons.1 hduties).2 rfl fun id node _ _ => ?_
      rw [Moment.isPast_visit]
      exact Moment.isPast_congr (by simp [State.trace, State.note])
  | missing hid hjoin hnode =>
      refine hexact.keep ?_ rfl fun id node _ _ => ?_
      · exact List.forall_mem_cons.2 ⟨trivial, (List.forall_mem_cons.1 hduties).2⟩
      · rw [Moment.isPast_leave, Moment.isPast_visit]
        exact Moment.isPast_congr (by simp [State.trace, State.enter, State.note])
  | @entered _ _ entered _ hid hjoin hnode =>
      refine hexact.keep ?_ rfl fun id node _ hrecord => ?_
      · exact List.forall_mem_cons.2 ⟨⟨hnode, List.suffix_rfl⟩, (List.forall_mem_cons.1 hduties).2⟩
      · -- No phase of the node lies behind yet.
        have hduty (writing : Writing) (hwriting : writing.node = entered) :
            ¬ (Duty.statements writing entered.phases).IsPast id node := by
          rintro ⟨-, rfl, hpast⟩
          exact hpast (hwriting ▸ hrecord)
        rw [Moment.isPast_cons, Moment.isPast_visit, or_iff_right (hduty _ rfl)]
        exact Moment.isPast_congr
          (by simp [State.trace, State.opened, State.suspend, State.enter, State.note])
  | left =>
      refine hexact.keep (List.forall_mem_cons.1 hduties).2 rfl fun id node _ _ => ?_
      rw [Moment.isPast_leave]
      exact Moment.isPast_congr (by simp [State.trace, State.note])

/-- Every moment of a run is exact that begins at an exact one. -/
theorem Reaches.exact {context : Context} {moment next : Moment} (h : Reaches setting moment next)
    (hexact : moment.Exact setting.table context) : next.Exact setting.table context := by
  induction h with
  | refl => exact hexact
  | tail _ hstep ih => exact hstep.exact ih

/-- At the beginning of a walk nothing has been recorded. -/
theorem Moment.Exact.start (table : NodeTable) (context : Context) (entry : String) :
    Moment.Exact table context ⟨{ context }, [.visit entry]⟩ where
  duties := by simp [Duty.Sound]
  values := by simp [Moment.HasRecorded, Moment.IsPast, State.trace]

/-- An input that is connected to a node is undefined, with one more warning, just if the node has no
value. Beside the accesses that are remembered, nothing else of the context changes in this case, and
nothing at all if there is a value. -/
theorem resolve_edge_iff (context : Context) (consumer source port : String) (fallback : Literal) :
    let resolved := (Emit.resolve consumer (some (.edge source port)) fallback).run context
    (resolved.1 = unresolved ∧ resolved.2.diagnostics.warnings =
        context.diagnostics.warnings ++ [⟨some consumer, missingValue source port⟩] ↔
      context.valueOf? source = none) ∧
    (context.valueOf? source = none →
      { resolved.2 with accesses := context.accesses } =
        context.warn consumer (missingValue source port)) ∧
    ∀ expr, context.valueOf? source = some expr →
      resolved.1 = expr ∧ { resolved.2 with accesses := context.accesses } = context := by
  rw [Emit.resolve_edge]
  cases hvalue : context.valueOf? source with
  | none => exact ⟨iff_of_true ⟨rfl, rfl⟩ rfl, fun _ => rfl, nofun⟩
  | some expr =>
      refine ⟨iff_of_false (fun h => ?_) nofun, nofun, ?_⟩
      · have hlength := congrArg List.length h.2
        simp [Context.ask] at hlength
      · rintro other hother
        exact ⟨Option.some.inj hother, rfl⟩

/-- A walk of a plain setting is a run of small steps, and at every moment of such a run the nodes with
a value are those that had one before the walk and those whose statements have come past the
recording of their value. An input that is connected to a node is undefined at that moment, with one
more warning that names the node and the port, just if the node has no value then. -/
theorem values_exact (hplain : setting.Plain) (context : Context) (entry : String) :
    let start : Moment := ⟨{ context }, [.visit entry]⟩
    Reaches setting start ⟨after (walk setting entry) { context }, []⟩ ∧
    ∀ moment, Reaches setting start moment →
      (∀ nodeId, (moment.state.context.valueOf? nodeId).isSome ↔
        (context.valueOf? nodeId).isSome ∨ moment.HasRecorded setting.table nodeId) ∧
      ∀ consumer source port fallback,
        let now := moment.state.context
        let resolved := (Emit.resolve consumer (some (.edge source port)) fallback).run now
        (resolved.1 = unresolved ∧ resolved.2.diagnostics.warnings =
            now.diagnostics.warnings ++ [⟨some consumer, missingValue source port⟩] ↔
          now.valueOf? source = none) ∧
        (now.valueOf? source = none → { resolved.2 with accesses := now.accesses } =
          now.warn consumer (missingValue source port)) ∧
        ∀ expr, now.valueOf? source = some expr →
          resolved.1 = expr ∧ { resolved.2 with accesses := now.accesses } = now := by
  intro start
  refine ⟨walk_reaches hplain context entry, fun moment hmoment => ⟨?_, ?_⟩⟩
  · exact (hmoment.exact (.start setting.table context entry)).values
  · exact resolve_edge_iff moment.state.context

/-- At the end of a walk over a gate with a branch in it, the gate has recorded its value, and the
branch has none. -/
theorem gatedDiamond_values :
    (Setting.mk gatedDiamond .empty).Plain ∧
      let final := after (walk ⟨gatedDiamond, .empty⟩ "start") {}
      Moment.HasRecorded gatedDiamond ⟨final, []⟩ "gate" ∧
        ¬ Moment.HasRecorded gatedDiamond ⟨final, []⟩ "check" := by
  have hplain : (Setting.mk gatedDiamond .empty).Plain := by decide +kernel
  obtain ⟨hreaches, hall⟩ := values_exact hplain {} "start"
  have hvalues := (hall _ hreaches).1
  refine ⟨hplain, ?_, fun hcheck => ?_⟩
  · exact ((hvalues "gate").1 (by decide +kernel)).resolve_left (by decide)
  · have hsome := (hvalues "check").2 (.inr hcheck)
    revert hsome
    decide +kernel

end TickScript.Emission.Walk
