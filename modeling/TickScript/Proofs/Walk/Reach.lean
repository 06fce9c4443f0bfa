import TickScript.Proofs.Walk.Progress

/-!
# What a walk reaches

`Reach table entry id` is the reachability that a reader of a graph has in mind: from the entry
through the outputs of nodes that do not end their chain and through the slots that nodes write.
`walk_writes_reach_once` says that a walk writes all of it, each node once, however often branches
stop at join points on the way.
-/

namespace TickScript.Emission

/-- `Reach table entry id` says that the id can be reached from the entry, through the outputs of
nodes that do not end their chain and the heads of the slots that nodes write. -/
inductive Reach (table : NodeTable) (entry : String) : String → Prop where
  | entry : Reach table entry entry
  | output {id next : String} {node : Node} :
      Reach table entry id → table.get? id = some node → node.kind.endsChain = false →
        next ∈ node.outputs → Reach table entry next
  | head {id next : String} {node : Node} :
      Reach table entry id → table.get? id = some node → next ∈ node.heads →
        Reach table entry next

namespace Walk

variable {setting : Setting} {entry id : String} {context : Context}

/-- The whole walk makes progress with nothing waiting, and visits its entry. -/
theorem walk_progress (hplain : setting.Plain) (context : Context) (entry : String) :
    let final := after (walk setting entry) { context }
    Progress setting.table [] final.trace { context } final ∧ entry ∈ final.visited := by
  intro final
  obtain ⟨events, hprogress, hentry⟩ :=
    (visit_settles hplain (setting.table.size + 1)).progress entry { context }
      (.start setting.table context)
  have htrace : final.trace = events := hprogress.trace.trans (List.append_nil events)
  exact ⟨htrace ▸ hprogress, hentry.resolve_right List.not_mem_nil⟩

/-- The nodes that a walk writes are those of the table under the ids that it visits. -/
theorem dispatched_iff_visited (hplain : setting.Plain) :
    let final := after (walk setting entry) { context }
    id ∈ dispatched final.trace ↔ id ∈ final.visited ∧ setting.table.contains id = true := by
  intro final
  have hprogress := (walk_progress hplain context entry).1
  rw [hprogress.dispatched, List.mem_filter, hprogress.visited, List.append_nil]

/-- The visited ids are closed under what the written nodes lead to. -/
theorem leadsTo_visited (hplain : setting.Plain) {shared : List String} {node : Node} :
    let final := after (walk setting entry) { context }
    .began id shared ∈ final.trace → setting.table.get? id = some node →
      ∀ next ∈ node.leadsTo shared, next ∈ final.visited := by
  intro final hbegan hnode next hnext
  have hsettled := (walk_progress hplain context entry).1.settled _ hbegan node hnode next hnext
  exact hsettled.resolve_right List.not_mem_nil

/-- All that can be reached from its entry is visited by a walk. -/
theorem reach_visited (hplain : setting.Plain) (h : Reach setting.table entry id) :
    id ∈ (after (walk setting entry) { context }).visited := by
  -- A visited node of the table was written, with whatever shared continuations it had.
  have hstep {id next : String} {node : Node}
      (hid : id ∈ (after (walk setting entry) { context }).visited)
      (hnode : setting.table.get? id = some node)
      (hnext : ∀ shared, next ∈ node.leadsTo shared) :
      next ∈ (after (walk setting entry) { context }).visited := by
    have hmem : id ∈ dispatched (after (walk setting entry) { context }).trace :=
      (dispatched_iff_visited hplain).2 ⟨hid, by simp [Keyed.contains, hnode]⟩
    obtain ⟨shared, hbegan⟩ := mem_dispatched.1 hmem
    exact leadsTo_visited hplain hbegan hnode next (hnext shared)
  induction h with
  | entry => exact (walk_progress hplain context entry).2
  | output _ hnode hends hnext ih =>
      exact hstep ih hnode fun shared => by simp [Node.leadsTo, hends, hnext]
  | head _ hnode hnext ih =>
      exact hstep ih hnode fun shared => by simp [Node.leadsTo, hnext]

/-- A walk writes every node at most once, it writes all nodes that can be reached from its entry,
and it writes all nodes that a branch left for later. -/
theorem walk_writes_reach_once (hplain : setting.Plain) (context : Context) (entry : String) :
    let trace := (after (walk setting entry) { context }).trace
    (dispatched trace).Nodup ∧
      (∀ id, Reach setting.table entry id → setting.table.contains id = true →
        id ∈ dispatched trace) ∧
      ∀ id ∈ postponed trace, setting.table.contains id = true → id ∈ dispatched trace := by
  obtain ⟨hprogress, -⟩ := walk_progress hplain context entry
  refine ⟨?_, ?_, ?_⟩
  · have hvisited := hprogress.nodup List.nodup_nil
    rw [hprogress.visited, List.append_nil] at hvisited
    rw [hprogress.dispatched]
    exact hvisited.filter _
  · intro id hreach hnode
    exact (dispatched_iff_visited hplain).2 ⟨reach_visited hplain hreach, hnode⟩
  · intro id hid hnode
    have hsettled := hprogress.settled _ (mem_postponed.1 hid)
    exact (dispatched_iff_visited hplain).2 ⟨hsettled.resolve_right List.not_mem_nil, hnode⟩

/-- A gate whose body branches. Both arms lead to the node behind the gate; one of them also leads
back to the gate and to a missing node. -/
def gatedDiamond : NodeTable := .ofList [
  ("start", { id := "start", kind := .start, outputs := ["gate"] }),
  ("gate",
    { id := "gate", kind := .tick {}, outputs := ["join"],
      slots := .ofList [("body", ["check"])] }),
  ("check",
    { id := "check", kind := .branch,
      slots := .ofList [("true", ["left"]), ("false", ["right"])] }),
  ("left", { id := "left", kind := .merge, outputs := ["join"] }),
  ("right", { id := "right", kind := .merge, outputs := ["gate", "join", "lost"] }),
  ("join", { id := "join", kind := .merge, outputs := ["start"] })]

/-- The arms of the inner branch leave the join point to the gate, which writes it once. -/
theorem gatedDiamond_join_written :
    (Setting.mk gatedDiamond .empty).Plain ∧
      "join" ∈ postponed (after (walk ⟨gatedDiamond, .empty⟩ "start") {}).trace ∧
      "join" ∈ dispatched (after (walk ⟨gatedDiamond, .empty⟩ "start") {}).trace := by
  have hplain : (Setting.mk gatedDiamond .empty).Plain := by decide +kernel
  have hpostponed : "join" ∈ postponed (after (walk ⟨gatedDiamond, .empty⟩ "start") {}).trace := by
    decide +kernel
  exact ⟨hplain, hpostponed,
    (walk_writes_reach_once hplain {} "start").2.2 "join" hpostponed (by decide +kernel)⟩

end Walk

end TickScript.Emission
