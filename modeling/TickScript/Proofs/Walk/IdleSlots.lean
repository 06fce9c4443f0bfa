import TickScript.Program
import TickScript.Proofs.Walk.Constructs
import TickScript.Proofs.Walk.Joins
import TickScript.Proofs.Walk.Phases
import TickScript.Proofs.Walk.Reach

/-!
# Slots that are searched but not written

The search for shared continuations begins at every slot of a node that has heads, while the
statements of the node write the slots that its kind knows: a branch those for true and false, a
switch none for a case whose value it has seen before. `shared_led_by_two_slots` says what this comes
to: what is written behind a node is led to by two of its slots, and by two slots that are written
unless an idle slot leads there too. In `idleArm` an idle slot moves a node out of the only branch
that is written before it.
-/

namespace TickScript.Emission.Walk

/-- Two slots of a node that are of some sort lead to an id. -/
def LedByTwo (table : NodeTable) (barred : List String) (node : Node) (sort : String → Prop)
    (next : String) : Prop :=
  ∃ first second, first ≠ second ∧ sort first ∧ sort second ∧
    Leads table barred (node.slot first) next ∧ Leads table barred (node.slot second) next

variable {setting : Setting} {table : NodeTable} {visited : List String} {node : Node}
  {next : String}

/-- Two slots lead to what follows a node. -/
theorem ledByTwo_of_mem_sharedAfter (h : next ∈ sharedAfter setting visited node) :
    LedByTwo setting.table (node.id :: visited) node (fun _ => True) next := by
  rw [sharedAfter_eq_sharedContinuations] at h
  have hcount := of_decide_eq_true (List.mem_filter.1 h).2
  obtain ⟨first, second, hne, hfirst, hsecond⟩ :=
    (one_lt_countP_branches_iff _ _ node next).1 hcount
  exact ⟨first, second, hne, trivial, trivial, hfirst, hsecond⟩

/-- Of two slots that lead to an id both are written, or one is idle. -/
theorem LedByTwo.written_or_idle {barred : List String}
    (h : LedByTwo table barred node (fun _ => True) next) :
    LedByTwo table barred node (· ∈ node.writtenSlots) next ∨
      ∃ idle, idle ∉ node.writtenSlots ∧ Leads table barred (node.slot idle) next := by
  obtain ⟨first, second, hne, -, -, hfirst, hsecond⟩ := h
  by_cases hone : first ∈ node.writtenSlots
  · by_cases htwo : second ∈ node.writtenSlots
    · exact .inl ⟨first, second, hne, hone, htwo, hfirst, hsecond⟩
    · exact .inr ⟨second, htwo, hsecond⟩
  · exact .inr ⟨first, hone, hfirst⟩

/-- Whatever a walk begins with, what is to be written behind a node is led to by two slots of the
node along flow outputs. Two of the slots that its statements write do so, or else a slot leads there
that has heads and is not written; so if all slots with heads are written, two of them do. -/
theorem shared_led_by_two_slots (setting : Setting) (ids : List String) (state : State) :
    (∀ node, setting.isPlain node = true → ∀ follow,
      Follows follow (node.writtenSlots.flatMap node.slot) (dispatch setting (·.forM follow) node)) ∧
    ∃ journal, (after (branch setting ids) state).journal = journal ++ state.journal ∧
      ∀ later before id shared start, journal = later ++ ⟨.began id shared, start⟩ :: before →
        Completed setting (entered (events before) ++ state.visited)
          (state.joins ++ pending setting.table (events before)) id shared later ∧
        ∀ node, setting.table.get? id = some node → ∀ next ∈ shared,
          let barred := node.id :: (entered (events before) ++ state.visited)
          LedByTwo setting.table barred node (fun _ => True) next ∧
          (LedByTwo setting.table barred node (· ∈ node.writtenSlots) next ∨
            ∃ idle, idle ∉ node.writtenSlots ∧ Leads setting.table barred (node.slot idle) next) ∧
          ((∀ name, node.slot name ≠ [] → name ∈ node.writtenSlots) →
            LedByTwo setting.table barred node (· ∈ node.writtenSlots) next) := by
  obtain ⟨journal, ⟨hpassage, -, haccounts⟩, -⟩ := (branch_tour setting ids state).stretch
  refine ⟨fun node hplain follow => ?_, journal, hpassage.journal, ?_⟩
  · rw [← node.heads_eq_writtenSlots]
    exact dispatch_follows hplain
  · intro later before id shared start hsplit
    have hcompleted := haccounts later before id shared start hsplit
    rw [List.nil_append] at hcompleted
    refine ⟨hcompleted, fun node hnode next hnext => ?_⟩
    obtain ⟨found, -, -, -, -, -, -, hfound, rfl, -⟩ := hcompleted
    obtain rfl : node = found := Option.some.inj (hnode.symm.trans hfound)
    have htwo := ledByTwo_of_mem_sharedAfter hnext
    refine ⟨htwo, htwo.written_or_idle, fun hwritten => ?_⟩
    refine htwo.written_or_idle.resolve_right ?_
    rintro ⟨idle, hidle, hleads⟩
    refine hidle (hwritten idle fun hempty => ?_)
    rw [hempty] at hleads
    exact Leads.not_nil hleads

/-- The two arms of the branch inside of the gate lead to its join point. -/
theorem gatedDiamond_join_led_by_arms :
    let journal := (after (branch ⟨gatedDiamond, .empty⟩ ["start"]) {}).journal
    journal = journal.take 22 ++ ⟨.began "check" ["join"], 2⟩ :: journal.drop 23 ∧
      ∃ node, gatedDiamond.get? "check" = some node ∧
        LedByTwo gatedDiamond (node.id :: entered (events (journal.drop 23))) node
          (· ∈ node.writtenSlots) "join" := by
  intro journal
  have hsplit : journal = journal.take 22 ++ ⟨.began "check" ["join"], 2⟩ :: journal.drop 23 := by
    decide +kernel
  obtain ⟨-, marks, hmarks, hall⟩ := shared_led_by_two_slots ⟨gatedDiamond, .empty⟩ ["start"] {}
  obtain rfl : journal = marks := hmarks.trans (List.append_nil _)
  obtain ⟨-, hshared⟩ := hall _ _ _ _ _ hsplit
  obtain ⟨node, hnode, hslots⟩ : ∃ node, gatedDiamond.get? "check" = some node ∧
      node.slots.keys = node.writtenSlots.reverse := ⟨_, rfl, by decide +kernel⟩
  obtain ⟨-, -, htwo⟩ := hshared node hnode "join" List.mem_cons_self
  refine ⟨hsplit, node, hnode, ?_⟩
  rw [List.append_nil] at htwo
  refine htwo fun name hname => List.mem_reverse.1 (hslots ▸ ?_)
  cases hget : node.slots.get? name with
  | none => exact absurd (by rw [Node.slot, hget, Option.getD_none]) hname
  | some heads => exact List.mem_map_of_mem (Keyed.mem_entries_of_get? hget)

/-- A branch with one chain in a slot that it writes and in one that it does not write. -/
def halfIdle : Node where
  id := "check"
  kind := .branch
  inputs := .ofList [("condition", .literal (.text "x"))]
  slots := .ofList [("true", ["up"]), ("maybe", ["up"])]

/-- A program with a branch of which only one slot that is written leads to a node. -/
def idleArm : Program where
  fileId := "idle"
  entry := "start"
  nodes := .ofList [
    ("start", { id := "start", kind := .start, outputs := ["check"] }),
    ("check", halfIdle),
    ("up", { id := "up", kind := .upgrade {} })]

/-- The node is written behind the branch, whether the condition is met or not, although no two slots
that are written lead there. -/
theorem idleArm_moves_node_out :
    idleArm.defects = [] ∧ (Setting.mk idleArm.nodes .empty).Plain ∧
      idleArm.nodes.get? "check" = some halfIdle ∧
      let final := after (walk ⟨idleArm.nodes, .empty⟩ idleArm.entry) {}
      .began "check" ["up"] ∈ final.trace ∧
      final.context.renderedLines =
        ["if (x) \x7b", "\x7d",
          "const upgrade_1 = creep.upgradeController(creep.room.controller);"] ∧
      ∀ barred, ¬ LedByTwo idleArm.nodes barred halfIdle (· ∈ halfIdle.writtenSlots) "up" := by
  refine ⟨by decide +kernel, by decide +kernel, rfl, by decide +kernel, by decide +kernel, ?_⟩
  rintro barred ⟨first, second, hne, hone, htwo, hfirst, hsecond⟩
  have hfalse (name : String) (h : Leads idleArm.nodes barred (halfIdle.slot name) "up") :
      name ≠ "false" := by
    rintro rfl
    exact Leads.not_nil h
  have hslots : halfIdle.writtenSlots = ["true", "false"] := rfl
  rw [hslots] at hone htwo
  have hfirstTrue : first = "true" := by simpa [hfalse first hfirst] using hone
  have hsecondTrue : second = "true" := by simpa [hfalse second hsecond] using htwo
  exact hne (hfirstTrue.trans hsecondTrue.symm)

end TickScript.Emission.Walk
