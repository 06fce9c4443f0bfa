import TickScript.Program
import TickScript.Proofs.Walk.Reach

/-!
# Nodes hoisted out of constructs

A walk comes to nodes in two ways: along the chains that it writes, and through the search for
shared continuations, which it writes after a construct. The search follows the outputs of every
node and looks at every slot, so it can find nodes that no written chain leads to.
`dispatched_reach_iff` says that this is the only way in which a walk leaves what can be reached from
its entry, and `returningArms_writes_unreachable` is a program in which it does.
-/

namespace TickScript.Emission

/-- `Reach` keeps within a set of ids that holds the entry and what its nodes lead to. -/
theorem Reach.mem_of_closed {table : NodeTable} {entry id : String} {ids : List String}
    (h : Reach table entry id) (hentry : entry ∈ ids)
    (hclosed : ∀ id ∈ ids, ∀ node ∈ table.get? id, ∀ next ∈ node.leadsTo [], next ∈ ids) :
    id ∈ ids := by
  induction h with
  | entry => exact hentry
  | output _ hnode hends hnext ih =>
      exact hclosed _ ih _ hnode _ (by simp [Node.leadsTo, hends, hnext])
  | head _ hnode hnext ih => exact hclosed _ ih _ hnode _ (by simp [Node.leadsTo, hnext])

/-- Outputs of reachable nodes can be reached, if reachable nodes that end their chain have none. -/
theorem outputs_reach {table : NodeTable} {entry : String}
    (h : ∀ id node, Reach table entry id → table.get? id = some node →
      node.kind.endsChain = true → node.outputs = []) :
    ∀ id, Reach table entry id → ∀ next ∈ outputsOf table id, Reach table entry next := by
  intro id hid next hnext
  unfold outputsOf at hnext
  split at hnext
  · next node hnode =>
    cases hends : node.kind.endsChain with
    | true => simp [h id node hid hnode hends] at hnext
    | false => exact .output hid hnode hends hnext
  · cases hnext

section Search

variable {table : NodeTable} {inside : String → Prop}

/-- The search keeps within a set of ids that is closed under outputs. -/
theorem explore_inside (hclosed : ∀ id, inside id → ∀ next ∈ outputsOf table id, inside next)
    {barred : List String} {budget : Nat} {stack reached : List String}
    (hstack : ∀ id ∈ stack, inside id) (hreached : ∀ id ∈ reached, inside id) :
    ∀ id ∈ explore table barred budget stack reached, inside id := by
  induction budget generalizing stack reached with
  | zero => exact hreached
  | succ budget ih =>
      cases stack with
      | nil => exact hreached
      | cons id stack =>
          obtain ⟨hid, hstack⟩ := List.forall_mem_cons.1 hstack
          rw [explore]
          split
          · exact ih hstack hreached
          · refine ih ?_ ?_
            · exact List.forall_mem_append.2 ⟨hclosed id hid, hstack⟩
            · exact List.forall_mem_append.2 ⟨hreached, by simpa using hid⟩

/-- The first occurrences are among the ids of the lists. -/
theorem mem_of_mem_firstOccurrences {lists : List (List String)} {id : String}
    (h : id ∈ firstOccurrences lists) : id ∈ lists.flatten := by
  have hfold (ids kept : List String) (h : id ∈ ids.foldl
      (fun kept id => if kept.contains id then kept else kept ++ [id]) kept) :
      id ∈ kept ∨ id ∈ ids := by
    induction ids generalizing kept with
    | nil => exact .inl h
    | cons next ids ih =>
        rw [List.foldl_cons] at h
        rcases ih _ h with h | h
        · split at h
          · exact .inl h
          · rcases List.mem_append.1 h with h | h
            · exact .inl h
            · exact .inr (by simp_all)
        · exact .inr (List.mem_cons_of_mem _ h)
  exact (hfold _ _ h).resolve_left List.not_mem_nil

/-- The shared continuations of a node keep within a set of ids that is closed under outputs and
holds the heads of all its slots. -/
theorem sharedAfter_inside {setting : Setting} {visited : List String} {node : Node}
    (hclosed : ∀ id, inside id → ∀ next ∈ outputsOf setting.table id, inside next)
    (hheads : ∀ children ∈ node.branches, ∀ id ∈ children, inside id) :
    ∀ id ∈ Walk.sharedAfter setting visited node, inside id := by
  intro id hid
  unfold Walk.sharedAfter at hid
  split at hid
  · obtain ⟨reached, hreached, hid⟩ :=
      List.mem_flatten.1 (mem_of_mem_firstOccurrences (List.mem_filter.1 hid).1)
    obtain ⟨children, hchildren, rfl⟩ := List.mem_map.1 hreached
    exact explore_inside hclosed (hheads children hchildren) (List.forall_mem_nil _) id hid
  · cases hid

end Search

namespace Walk

/-- An id is due if it is the entry or if a node that was written leads to it. -/
def Due (table : NodeTable) (entry : String) (trace : List Event) (id : String) : Prop :=
  id = entry ∨ ∃ parent shared node, .began parent shared ∈ trace ∧
    table.get? parent = some node ∧ id ∈ node.leadsTo shared

/-- Every node that was written was due at that moment, and its shared continuations were found by
the search. -/
def Justified (setting : Setting) (entry : String) : List Event → Prop
  | [] => True
  | .began id shared :: earlier =>
      Due setting.table entry earlier id ∧
        (∃ node visited, setting.table.get? id = some node ∧
          shared = sharedAfter setting visited node) ∧
        Justified setting entry earlier
  | _ :: earlier => Justified setting entry earlier

/-- A part of a walk adds to the trace and keeps it justified. -/
structure Extends (setting : Setting) (entry : String) (state final : State) : Prop where
  suffix : state.trace <:+ final.trace
  justified : Justified setting entry state.trace → Justified setting entry final.trace

variable {setting : Setting} {entry id : String} {state middle final : State} {node : Node}
  {follow : String → Walk Unit}

/-- What is due stays due. -/
theorem Due.mono {table : NodeTable} {earlier trace : List Event}
    (h : Due table entry earlier id) (hsuffix : earlier <:+ trace) : Due table entry trace id := by
  rcases h with h | ⟨parent, shared, node, hbegan, hnode, hid⟩
  · exact .inl h
  · exact .inr ⟨parent, shared, node, hsuffix.subset hbegan, hnode, hid⟩

theorem Extends.refl (state : State) : Extends setting entry state state :=
  ⟨List.suffix_rfl, fun h => h⟩

theorem Extends.trans (hfirst : Extends setting entry state middle)
    (hlater : Extends setting entry middle final) : Extends setting entry state final :=
  ⟨hfirst.suffix.trans hlater.suffix, fun h => hlater.justified (hfirst.justified h)⟩

/-- A course keeps the trace justified if its ids are due and following what is due does. -/
theorem Course.extends {ids : List String}
    (hfollow : ∀ id state, Due setting.table entry state.trace id →
      Extends setting entry state (after (follow id) state))
    (h : Course follow ids state final)
    (hdue : ∀ id ∈ ids, Due setting.table entry state.trace id) :
    Extends setting entry state final := by
  induction h with
  | done state => exact .refl state
  | context context _ ih =>
      obtain ⟨hsuffix, hjustified⟩ := ih hdue
      exact ⟨hsuffix, hjustified⟩
  | chain id _ ih =>
      obtain ⟨hid, hids⟩ := List.forall_mem_cons.1 hdue
      have hfirst := hfollow id _ hid
      exact hfirst.trans (ih fun next hnext => (hids next hnext).mono hfirst.suffix)

/-- A node that is due is written with a justified trace. -/
theorem write_extends (hplain : setting.isPlain node = true)
    (hnode : setting.table.get? id = some node)
    (hdue : Due setting.table entry state.trace id)
    (hfollow : ∀ id state, Due setting.table entry state.trace id →
      Extends setting entry state (after (follow id) state)) :
    Extends setting entry state (after (write setting follow id node) state) := by
  have hopened : Extends setting entry state (state.opened setting id node) :=
    ⟨List.suffix_cons _ _, fun h => ⟨hdue, ⟨node, state.visited, hnode, rfl⟩, h⟩⟩
  -- From here on the node stands in the trace, which makes due all that it leads to.
  generalize hshared : sharedAfter setting state.visited node = shared
  have hnext {trace : List Event} (hsuffix : (state.opened setting id node).trace <:+ trace) :
      ∀ next ∈ node.leadsTo shared, Due setting.table entry trace next := fun next hnext =>
    .inr ⟨id, shared, node, hsuffix.subset (hshared ▸ List.mem_cons_self), hnode, hnext⟩
  have hbody : Extends setting entry (state.opened setting id node)
      ((after (dispatch setting (·.forM follow) node)
        (state.opened setting id node)).resume id (continuationOf node.kind) state.joins) := by
    have hcourse := (dispatch_follows hplain (state.opened setting id node)).extends hfollow
      fun next hmem => hnext List.suffix_rfl next (List.mem_append_left _ hmem)
    exact hcourse.trans ⟨List.suffix_cons _ _, fun h => h⟩
  rw [after_write follow id state hplain, hshared]
  generalize (after (dispatch setting (·.forM follow) node)
    (state.opened setting id node)).resume id (continuationOf node.kind) state.joins = resumed at hbody
  cases hends : node.kind.endsChain with
  | true => exact hopened.trans hbody
  | false =>
      refine hopened.trans (hbody.trans ((Follows.chains _ _).extends hfollow ?_))
      intro next hmem
      exact hnext hbody.suffix next (by simpa [Node.leadsTo, hends] using .inr (by simpa using hmem))

/-- A visit of an id that is due keeps the trace justified. -/
theorem visit_extends (hplain : setting.Plain) (budget : Nat) (id : String) (state : State)
    (hdue : Due setting.table entry state.trace id) :
    Extends setting entry state (after (visit setting budget id) state) := by
  induction budget generalizing id state with
  | zero => exact .refl state
  | succ budget ih =>
      have hentered : Extends setting entry state (state.enter id) :=
        ⟨List.suffix_cons _ _, fun h => h⟩
      rw [after_visit]
      split
      · exact .refl state
      · split
        · exact ⟨List.suffix_cons _ _, fun h => h⟩
        · cases hnode : setting.table.get? id with
          | none => exact hentered.trans ⟨List.suffix_cons _ _, fun h => h⟩
          | some node =>
              have hwritten := write_extends (hplain.isPlain hnode) hnode
                (hdue.mono hentered.suffix) ih
              exact hentered.trans (hwritten.trans ⟨List.suffix_cons _ _, fun h => h⟩)

/-- The ids that are written after a construct because several of its slots lead to them. -/
def hoisted (table : NodeTable) (trace : List Event) : List String :=
  trace.flatMap fun
    | .began id shared =>
      match table.get? id with
      | some node => if node.kind.endsChain then [] else shared
      | none => []
    | _ => []

/-- What is hoisted are the shared continuations of the written nodes that do not end their chain. -/
theorem mem_hoisted {table : NodeTable} {trace : List Event} {next : String} :
    next ∈ hoisted table trace ↔ ∃ id shared node, .began id shared ∈ trace ∧
      table.get? id = some node ∧ node.kind.endsChain = false ∧ next ∈ shared := by
  unfold hoisted
  rw [List.mem_flatMap]
  constructor
  · rintro ⟨event, hevent, hnext⟩
    cases event with
    | began id shared =>
        cases hnode : table.get? id with
        | none => simp [hnode] at hnext
        | some node =>
            cases hends : node.kind.endsChain with
            | true => simp [hnode, hends] at hnext
            | false => exact ⟨id, shared, node, hevent, hnode, hends, by simpa [hnode, hends] using hnext⟩
    | _ => cases hnext
  · rintro ⟨id, shared, node, hbegan, hnode, hends, hnext⟩
    exact ⟨_, hbegan, by simp [hnode, hends, hnext]⟩

/-- The trace of a walk is justified. -/
theorem walk_justified (hplain : setting.Plain) (context : Context) (entry : String) :
    Justified setting entry (after (walk setting entry) { context }).trace :=
  (visit_extends hplain (setting.table.size + 1) entry { context } (.inl rfl)).justified trivial

/-- The shared continuations in a justified trace were found by the search. -/
theorem Justified.shared_eq {trace : List Event} (h : Justified setting entry trace)
    {shared : List String} (hbegan : .began id shared ∈ trace) :
    ∃ node visited, setting.table.get? id = some node ∧
      shared = sharedAfter setting visited node := by
  induction trace with
  | nil => cases hbegan
  | cons event earlier ih =>
      cases event with
      | began written found =>
          obtain ⟨-, hfound, h⟩ := h
          rcases List.mem_cons.1 hbegan with heq | hbegan
          · cases heq
            exact hfound
          · exact ih h hbegan
      | _ => exact ih h ((List.mem_cons.1 hbegan).resolve_left (by simp))

/-- A justified trace writes only what can be reached, if what reachable nodes hoist can be. -/
theorem Justified.reach {trace : List Event} (h : Justified setting entry trace)
    (hshared : ∀ id shared node, .began id shared ∈ trace → Reach setting.table entry id →
      setting.table.get? id = some node → node.kind.endsChain = false →
        ∀ next ∈ shared, setting.table.contains next = true → Reach setting.table entry next) :
    ∀ id shared, .began id shared ∈ trace → Reach setting.table entry id := by
  induction trace with
  | nil => simp
  | cons event earlier ih =>
      have hearlier (h : Justified setting entry earlier) := ih h fun id shared node hbegan =>
        hshared id shared node (List.mem_cons_of_mem _ hbegan)
      intro id shared hbegan
      cases event with
      | began written found =>
          obtain ⟨hdue, ⟨node, _, hnode, _⟩, h⟩ := h
          rcases List.mem_cons.1 hbegan with heq | hbegan
          · cases heq
            -- The parent was written earlier, so the induction hypothesis reaches it.
            rcases hdue with rfl | ⟨parent, others, host, hparent, hhost, hid⟩
            · exact .entry
            · have hreach := hearlier h parent others hparent
              rcases List.mem_append.1 hid with hid | hid
              · exact .head hreach hhost hid
              · cases hends : host.kind.endsChain with
                | true => simp [hends] at hid
                | false =>
                    rw [hends] at hid
                    rcases List.mem_append.1 hid with hid | hid
                    · exact .output hreach hhost hends hid
                    · exact hshared parent others host (List.mem_cons_of_mem _ hparent) hreach hhost
                        hends id hid (by simp [Keyed.contains, hnode])
          · exact hearlier h id shared hbegan
      | _ => exact hearlier h id shared ((List.mem_cons.1 hbegan).resolve_left (by simp))

/-- A walk writes only what can be reached from its entry exactly when all nodes that it hoists can
be reached. That is so in particular when reachable nodes that end their chain have no outputs and
all other reachable nodes write every slot that is not empty. -/
theorem dispatched_reach_iff (hplain : setting.Plain) (context : Context) (entry : String) :
    let trace := (after (walk setting entry) { context }).trace
    ((∀ id ∈ dispatched trace, Reach setting.table entry id) ↔
      ∀ id ∈ hoisted setting.table trace, setting.table.contains id = true →
        Reach setting.table entry id) ∧
    ((∀ id node, Reach setting.table entry id → setting.table.get? id = some node →
        (node.kind.endsChain = true → node.outputs = []) ∧
          (node.kind.endsChain = false →
            ∀ children ∈ node.branches, ∀ next ∈ children, next ∈ node.heads)) →
      ∀ id ∈ dispatched trace, Reach setting.table entry id) := by
  intro trace
  have hjustified : Justified setting entry trace := walk_justified hplain context entry
  refine ⟨⟨?_, ?_⟩, ?_⟩
  · intro hreach next hnext hcontains
    obtain ⟨id, shared, node, hbegan, hnode, hends, hnext⟩ := mem_hoisted.1 hnext
    have hvisited := leadsTo_visited hplain hbegan hnode next (by simp [Node.leadsTo, hends, hnext])
    exact hreach next ((dispatched_iff_visited hplain).2 ⟨hvisited, hcontains⟩)
  · intro hreach id hid
    obtain ⟨shared, hbegan⟩ := mem_dispatched.1 hid
    refine hjustified.reach (fun id shared node hbegan _ hnode hends next hnext => ?_) id shared hbegan
    exact hreach next (mem_hoisted.2 ⟨id, shared, node, hbegan, hnode, hends, hnext⟩)
  · intro hslots id hid
    obtain ⟨shared, hbegan⟩ := mem_dispatched.1 hid
    refine hjustified.reach (fun id shared node hbegan hid hnode hends next hnext _ => ?_) id shared
      hbegan
    -- Under the condition on slots and outputs the search keeps within what can be reached.
    obtain ⟨found, visited, hfound, rfl⟩ := hjustified.shared_eq hbegan
    obtain rfl : node = found := Option.some.inj (hnode.symm.trans hfound)
    refine sharedAfter_inside (outputs_reach fun id node hid hnode => (hslots id node hid hnode).1) ?_
      next hnext
    intro children hchildren head hhead
    exact .head hid hnode ((hslots id node hid hnode).2 hends children hchildren head hhead)

/-- The gate writes its join point behind its body, and all that it writes can be reached. -/
theorem gatedDiamond_writes_reach :
    (Setting.mk gatedDiamond .empty).Plain ∧
      "join" ∈ hoisted gatedDiamond (after (walk ⟨gatedDiamond, .empty⟩ "start") {}).trace ∧
      ∀ id ∈ dispatched (after (walk ⟨gatedDiamond, .empty⟩ "start") {}).trace,
        Reach gatedDiamond "start" id := by
  have hplain : (Setting.mk gatedDiamond .empty).Plain := by decide +kernel
  have hslots : ∀ entry ∈ gatedDiamond.entries,
      (entry.2.kind.endsChain = true → entry.2.outputs = []) ∧
        (entry.2.kind.endsChain = false →
          ∀ children ∈ entry.2.branches, ∀ next ∈ children, next ∈ entry.2.heads) := by
    decide +kernel
  refine ⟨hplain, by decide +kernel, (dispatched_reach_iff hplain {} "start").2 ?_⟩
  intro id node _ hnode
  exact hslots (id, node) (Keyed.mem_entries_of_get? hnode)

/-- Two arms of a branch that return. Both have an output to the same node, which should not be
written. -/
def returningArms : Program where
  fileId := "returns"
  entry := "start"
  nodes := .ofList [
    ("start", { id := "start", kind := .start, outputs := ["check"] }),
    ("check",
      { id := "check", kind := .branch, inputs := .ofList [("condition", .literal (.text "x"))],
        slots := .ofList [("true", ["left"]), ("false", ["right"])] }),
    ("left", { id := "left", kind := .return {}, outputs := ["behind"] }),
    ("right", { id := "right", kind := .return {}, outputs := ["behind"] }),
    ("behind", { id := "behind", kind := .upgrade {} })]

/-- The node behind the two returns is written although it cannot be reached. -/
theorem returningArms_writes_unreachable :
    returningArms.defects = [] ∧ (Setting.mk returningArms.nodes .empty).Plain ∧
      "behind" ∈ dispatched
        (after (walk ⟨returningArms.nodes, .empty⟩ returningArms.entry) {}).trace ∧
      ¬ Reach returningArms.nodes returningArms.entry "behind" := by
  refine ⟨by decide +kernel, by decide +kernel, by decide +kernel, fun h => ?_⟩
  have hmem : "behind" ∈ ["start", "check", "left", "right"] :=
    h.mem_of_closed (by decide) (by decide +kernel)
  exact absurd hmem (by decide)

end Walk

end TickScript.Emission
