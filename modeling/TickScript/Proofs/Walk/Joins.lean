import Mathlib.Data.Finset.Card
import Mathlib.Logic.Function.Iterate
import TickScript.Proofs.Walk.Agreement

/-!
# What several slots lead to

`sharedContinuations` searches a graph from each slot of a node with a stack. `Leads` says what can be
reached, without a search, and `DepthFirst` in which order a recursive search comes to it.
`sharedContinuations_are_joins` says that the search finds just the ids to which two slots lead, in the
order of a recursive search slot by slot, and that its stack runs empty on every graph.
-/

namespace TickScript.Emission

variable {table : NodeTable} {barred : List String}

/-! ## Reachability -/

/-- An id that can be reached from one of several heads along flow outputs. Neither it nor any id on
the way is barred. -/
inductive Leads (table : NodeTable) (barred heads : List String) : String → Prop where
  | head {id : String} : id ∈ heads → id ∉ barred → Leads table barred heads id
  | output {id next : String} : Leads table barred heads id → next ∈ outputsOf table id →
      next ∉ barred → Leads table barred heads next

namespace Leads

variable {heads : List String} {id next : String}

/-- What more heads lead to includes what some of them lead to. -/
theorem mono {more : List String} (h : Leads table barred heads id) (hsub : heads ⊆ more) :
    Leads table barred more id := by
  induction h with
  | head hmem hopen => exact .head (hsub hmem) hopen
  | output _ hnext hopen ih => exact .output ih hnext hopen

/-- A head leads to what its outputs lead to. -/
theorem of_outputs (h : Leads table barred (outputsOf table id) next) (hmem : id ∈ heads)
    (hopen : id ∉ barred) : Leads table barred heads next := by
  induction h with
  | head hnext hnextOpen => exact .output (.head hmem hopen) hnext hnextOpen
  | output _ hnext hnextOpen ih => exact .output ih hnext hnextOpen

/-- From no heads nothing can be reached. -/
theorem not_nil : ¬ Leads table barred [] id := by
  intro h
  generalize hheads : ([] : List String) = heads at h
  induction h with
  | head hmem => simp [← hheads] at hmem
  | output _ _ _ ih => exact ih

end Leads

/-! ## Recursive search -/

/-- `DepthFirst table barred ids reached found` says that a recursive search which goes to the ids from
left to right, and from each id that is new first to all its outputs, comes from the ids reached before
to those found, each new one being put at the end. -/
inductive DepthFirst (table : NodeTable) (barred : List String) :
    List String → List String → List String → Prop where
  | done (reached : List String) : DepthFirst table barred [] reached reached
  | pass {id : String} {ids reached found : List String} : id ∈ barred ∨ id ∈ reached →
      DepthFirst table barred ids reached found → DepthFirst table barred (id :: ids) reached found
  | enter {id : String} {ids reached inner found : List String} : id ∉ barred → id ∉ reached →
      DepthFirst table barred (outputsOf table id) (reached ++ [id]) inner →
        DepthFirst table barred ids inner found → DepthFirst table barred (id :: ids) reached found

namespace DepthFirst

variable {ids later reached found : List String}

/-- A search from a list of ids is one from its front and then one from the rest. -/
theorem split (h : DepthFirst table barred (ids ++ later) reached found) :
    ∃ middle, DepthFirst table barred ids reached middle ∧
      DepthFirst table barred later middle found := by
  generalize hall : ids ++ later = all at h
  induction h generalizing ids with
  | done reached =>
      obtain ⟨rfl, rfl⟩ := List.append_eq_nil_iff.1 hall
      exact ⟨reached, .done reached, .done reached⟩
  | @pass id rest reached found hold hrest ih =>
      cases ids with
      | nil =>
          obtain rfl : later = id :: rest := hall
          exact ⟨reached, .done reached, .pass hold hrest⟩
      | cons first ids =>
          obtain ⟨rfl, htail⟩ := List.cons.inj hall
          obtain ⟨middle, hfirst, hlater⟩ := ih htail
          exact ⟨middle, .pass hold hfirst, hlater⟩
  | @enter id rest reached inner found hopen hnew hinner hrest _ ih =>
      cases ids with
      | nil =>
          obtain rfl : later = id :: rest := hall
          exact ⟨reached, .done reached, .enter hopen hnew hinner hrest⟩
      | cons first ids =>
          obtain ⟨rfl, htail⟩ := List.cons.inj hall
          obtain ⟨middle, hfirst, hlater⟩ := ih htail
          exact ⟨middle, .enter hopen hnew hinner hfirst, hlater⟩

/-- A search finds only one list. -/
theorem unique {other : List String} (h : DepthFirst table barred ids reached found)
    (hother : DepthFirst table barred ids reached other) : found = other := by
  induction h generalizing other with
  | done => cases hother; rfl
  | pass hold _ ih =>
      cases hother with
      | pass _ hrest => exact ih hrest
      | enter hopen hnew => exact absurd hold (by simp [hopen, hnew])
  | enter hopen hnew _ _ ihinner ih =>
      cases hother with
      | pass hold => exact absurd hold (by simp [hopen, hnew])
      | enter _ _ hinner hrest =>
          obtain rfl := ihinner hinner
          exact ih hrest

/-- The ids reached before are found. -/
theorem subset (h : DepthFirst table barred ids reached found) : reached ⊆ found := by
  induction h with
  | done => exact List.Subset.refl _
  | pass _ _ ih => exact ih
  | enter _ _ _ _ ihinner ih =>
      exact fun next hnext => ih (ihinner (List.mem_append_left _ hnext))

/-- What is found was reached before or is led to. -/
theorem leads (h : DepthFirst table barred ids reached found) :
    ∀ next ∈ found, next ∈ reached ∨ Leads table barred ids next := by
  induction h with
  | done => exact fun next hnext => .inl hnext
  | pass _ _ ih =>
      exact fun next hnext => (ih next hnext).imp_right (·.mono (List.subset_cons_self _ _))
  | @enter id ids reached inner found hopen _ _ _ ihinner ih =>
      intro next hnext
      rcases ih next hnext with hnext | hnext
      · rcases ihinner next hnext with hnext | hnext
        · rcases List.mem_append.1 hnext with hnext | hnext
          · exact .inl hnext
          · rw [List.mem_singleton.1 hnext]
            exact .inr (.head List.mem_cons_self hopen)
        · exact .inr (hnext.of_outputs List.mem_cons_self hopen)
      · exact .inr (hnext.mono (List.subset_cons_self _ _))

/-- The ids themselves are found, but for barred ones. -/
theorem mem_found (h : DepthFirst table barred ids reached found) :
    ∀ id ∈ ids, id ∉ barred → id ∈ found := by
  induction h with
  | done => simp
  | pass hold hrest ih =>
      refine List.forall_mem_cons.2 ⟨fun hopen => ?_, ih⟩
      exact hrest.subset (hold.resolve_left hopen)
  | enter _ _ hinner hrest _ ih =>
      refine List.forall_mem_cons.2 ⟨fun _ => ?_, ih⟩
      exact hrest.subset (hinner.subset (by simp))

/-- With an id that was not reached before its outputs are found. -/
theorem outputs_found (h : DepthFirst table barred ids reached found) :
    ∀ id ∈ found, id ∈ reached ∨ ∀ next ∈ outputsOf table id, next ∉ barred → next ∈ found := by
  induction h with
  | done => exact fun id hid => .inl hid
  | pass _ _ ih => exact ih
  | @enter id ids reached inner found _ _ hinner hrest ihinner ih =>
      intro other hother
      rcases ih other hother with hother | houtputs
      · -- an id of the inner search: its outputs were found there, and they stay
        rcases ihinner other hother with hother | houtputs
        · rcases List.mem_append.1 hother with hother | hother
          · exact .inl hother
          · rw [List.mem_singleton.1 hother]
            exact .inr fun next hnext hopen => hrest.subset (hinner.mem_found next hnext hopen)
        · exact .inr fun next hnext hopen => hrest.subset (houtputs next hnext hopen)
      · exact .inr houtputs

/-- A search from nothing finds just what its ids lead to. -/
theorem mem_iff (h : DepthFirst table barred ids [] found) {id : String} :
    id ∈ found ↔ Leads table barred ids id := by
  refine ⟨fun hid => (h.leads id hid).resolve_left List.not_mem_nil, fun hleads => ?_⟩
  induction hleads with
  | head hmem hopen => exact h.mem_found _ hmem hopen
  | output _ hnext hopen ih =>
      exact ((h.outputs_found _ ih).resolve_left List.not_mem_nil) _ hnext hopen

end DepthFirst

/-! ## Search with a stack -/

/-- One step of the search: an id is taken from the stack, and if it is new its outputs take its
place. -/
def searchStep (table : NodeTable) (barred : List String) :
    List String × List String → List String × List String
  | ([], reached) => ([], reached)
  | (id :: stack, reached) =>
    if barred.contains id || reached.contains id then (stack, reached)
    else (outputsOf table id ++ stack, reached ++ [id])

/-- With budget for the stack and for all outputs to come, the search takes steps until the stack is
empty, and finds what a recursive search finds. -/
theorem explore_spec (budget : Nat) (stack reached : List String)
    (hbudget : stack.length + pendingOutputs reached table.entries ≤ budget) :
    let found := explore table barred budget stack reached
    (searchStep table barred)^[budget] (stack, reached) = ([], found) ∧
      DepthFirst table barred stack reached found := by
  induction budget generalizing stack reached with
  | zero =>
      obtain rfl : stack = [] := List.length_eq_zero_iff.1 (by omega)
      exact ⟨rfl, .done reached⟩
  | succ budget ih =>
      cases stack with
      | nil => exact ⟨Function.iterate_fixed rfl _, .done reached⟩
      | cons id stack =>
          rw [List.length_cons] at hbudget
          rw [Function.iterate_succ_apply, searchStep, explore]
          split
          · next hold =>
            obtain ⟨hsteps, hfound⟩ := ih stack reached (by omega)
            exact ⟨hsteps, .pass (by simpa using hold) hfound⟩
          · next hnew =>
            obtain ⟨hopen, hnew⟩ : id ∉ barred ∧ id ∉ reached := by simpa using hnew
            have hused := outputsOf_add_pendingOutputs_le table
              (List.contains_eq_mem id reached ▸ decide_eq_false hnew)
            obtain ⟨hsteps, hfound⟩ := ih (outputsOf table id ++ stack) (reached ++ [id]) (by
              rw [List.length_append]
              omega)
            -- the outputs lie on top of the stack, so they are dealt with before what is below
            obtain ⟨inner, hinner, hrest⟩ := hfound.split
            exact ⟨hsteps, .enter hopen hnew hinner hrest⟩

/-- The search from the heads of a slot ends, and finds what a recursive search finds. -/
theorem reachable_spec (table : NodeTable) (barred heads : List String) :
    let found := reachable table barred heads
    (searchStep table barred)^[heads.length + totalOutputs table] (heads, []) = ([], found) ∧
      DepthFirst table barred heads [] found :=
  explore_spec _ heads [] (by rw [pendingOutputs_nil])

/-! ## First occurrences -/

/-- The ids of several lists, in the order in which they first occur. -/
theorem firstOccurrences_spec (lists : List (List String)) :
    (∀ id, id ∈ firstOccurrences lists ↔ id ∈ lists.flatten) ∧
      (firstOccurrences lists).Pairwise fun id next =>
        lists.flatten.idxOf id < lists.flatten.idxOf next := by
  unfold firstOccurrences
  induction lists.flatten using List.reverseRecOn with
  | nil => simp
  | append_singleton ids last ih =>
      obtain ⟨hmem, horder⟩ := ih
      rw [List.foldl_append, List.foldl_cons, List.foldl_nil]
      generalize ids.foldl _ [] = kept at hmem horder
      -- places in the shorter list stay places in the longer one
      have hplace (id : String) (hid : id ∈ kept) : (ids ++ [last]).idxOf id = ids.idxOf id :=
        List.idxOf_append_of_mem ((hmem id).1 hid)
      have horder : kept.Pairwise fun id next =>
          (ids ++ [last]).idxOf id < (ids ++ [last]).idxOf next :=
        horder.imp_of_mem fun hid hnext hlt => by rwa [hplace _ hid, hplace _ hnext]
      split
      · next hold =>
        have hlast : last ∈ ids := (hmem last).1 (by simpa using hold)
        refine ⟨fun id => ?_, horder⟩
        rw [hmem, List.mem_append, List.mem_singleton]
        exact ⟨.inl, fun h => h.elim (fun h => h) (fun h => h ▸ hlast)⟩
      · next hnew =>
        have hlast : last ∉ ids := fun h => hnew (by simpa using (hmem last).2 h)
        refine ⟨fun id => by simp [hmem], List.pairwise_append.2 ⟨horder, by simp, ?_⟩⟩
        intro id hid next hnext
        rw [List.mem_singleton.1 hnext, hplace id hid, List.idxOf_append_of_notMem hlast]
        exact Nat.lt_add_right _ (List.idxOf_lt_length_of_mem ((hmem id).1 hid))

/-! ## Joins -/

/-- Something is counted twice in a list without repetitions if it is true of two items. -/
theorem one_lt_countP_iff {α : Type} [DecidableEq α] {items : List α} (hnodup : items.Nodup)
    (test : α → Bool) : 1 < items.countP test ↔
      ∃ first ∈ items, ∃ second ∈ items, first ≠ second ∧ test first = true ∧ test second = true := by
  rw [List.countP_eq_length_filter, ← List.toFinset_card_of_nodup (hnodup.filter test),
    Finset.one_lt_card]
  simp only [List.mem_toFinset, List.mem_filter]
  constructor
  · rintro ⟨first, ⟨hfirst, hone⟩, second, ⟨hsecond, htwo⟩, hne⟩
    exact ⟨first, hfirst, second, hsecond, hne, hone, htwo⟩
  · rintro ⟨first, hfirst, second, hsecond, hne, hone, htwo⟩
    exact ⟨first, ⟨hfirst, hone⟩, second, ⟨hsecond, htwo⟩, hne⟩

/-- More than one search from the slots of a node comes to an id just if two of its slots lead there. -/
theorem one_lt_countP_branches_iff (table : NodeTable) (barred : List String) (node : Node)
    (id : String) :
    1 < (node.branches.map (reachable table barred)).countP (·.contains id) ↔
      ∃ first second, first ≠ second ∧ Leads table barred (node.slot first) id ∧
        Leads table barred (node.slot second) id := by
  have hslot {name : String} {heads : List String} (h : (name, heads) ∈ node.slots.entries) :
      node.slot name = heads := by
    rw [Node.slot, Keyed.get?_of_mem h, Option.getD_some]
  have hentry {name : String} (h : Leads table barred (node.slot name) id) :
      (name, node.slot name) ∈ node.slots.entries := by
    cases hheads : node.slots.get? name with
    | none =>
        rw [Node.slot, hheads, Option.getD_none] at h
        exact absurd h Leads.not_nil
    | some heads =>
        rw [Node.slot, hheads, Option.getD_some]
        exact Keyed.mem_entries_of_get? hheads
  have htest (heads : List String) :
      ((reachable table barred heads).contains id && !heads.isEmpty) = true ↔
        Leads table barred heads id := by
    rw [Bool.and_eq_true, List.contains_iff_mem, (reachable_spec table barred heads).2.mem_iff]
    refine and_iff_left_of_imp fun h => ?_
    cases heads with
    | nil => exact absurd h Leads.not_nil
    | cons => rfl
  have hcount : (node.branches.map (reachable table barred)).countP (·.contains id) =
      node.slots.entries.countP fun entry =>
        (reachable table barred entry.2).contains id && !entry.2.isEmpty := by
    rw [List.countP_map, Node.branches, List.countP_filter, Keyed.values, List.countP_map]
    rfl
  rw [hcount, one_lt_countP_iff (List.Nodup.of_map _ node.slots.keys_nodup)]
  simp only [htest]
  constructor
  · rintro ⟨⟨first, heads⟩, hfirst, ⟨second, others⟩, hsecond, hne, hone, htwo⟩
    refine ⟨first, second, ?_, (hslot hfirst).symm ▸ hone, (hslot hsecond).symm ▸ htwo⟩
    rintro rfl
    exact hne (congrArg (Prod.mk first) ((hslot hfirst).symm.trans (hslot hsecond)))
  · rintro ⟨first, second, hne, hone, htwo⟩
    exact ⟨_, hentry hone, _, hentry htwo, fun heq => hne (congrArg Prod.fst heq), hone, htwo⟩

/-- The shared continuations of a node are the ids to which two slots of it lead, without repetitions.
They stand in the order in which a recursive search comes to them that goes through the slots in the
order of their names. The search with a stack ends on every graph. -/
theorem sharedContinuations_are_joins (table : NodeTable) (visited : List String) (node : Node) :
    let barred := node.id :: visited
    let shared := sharedContinuations table visited node
    shared.Nodup ∧
    (∀ id, id ∈ shared ↔ ∃ first second, first ≠ second ∧
      Leads table barred (node.slot first) id ∧ Leads table barred (node.slot second) id) ∧
    (∃ found : List (List String),
      (∀ lists, List.Forall₂ (DepthFirst table barred · []) node.branches lists ↔ lists = found) ∧
      shared.Pairwise fun id next => found.flatten.idxOf id < found.flatten.idxOf next) ∧
    ∀ heads, (searchStep table barred)^[heads.length + totalOutputs table] (heads, []) =
      ([], reachable table barred heads) := by
  intro barred shared
  obtain ⟨hmem, horder⟩ := firstOccurrences_spec (node.branches.map (reachable table barred))
  have hshared : shared.Pairwise fun id next =>
      (node.branches.map (reachable table barred)).flatten.idxOf id <
        (node.branches.map (reachable table barred)).flatten.idxOf next := horder.filter _
  have hnodup : shared.Nodup := by
    refine hshared.imp ?_
    rintro id next hlt rfl
    exact Nat.lt_irrefl _ hlt
  have hsearch : (DepthFirst table barred · []) = fun heads list => reachable table barred heads = list :=
    funext fun heads => funext fun list => propext
      ⟨fun h => (reachable_spec table barred heads).2.unique h,
        fun h => h ▸ (reachable_spec table barred heads).2⟩
  refine ⟨hnodup, fun id => ?_, ⟨_, fun lists => ?_, hshared⟩,
    fun heads => (reachable_spec table barred heads).1⟩
  · rw [← one_lt_countP_branches_iff]
    refine List.mem_filter.trans ?_
    rw [decide_eq_true_eq, hmem]
    -- an id that is counted stands in one of the lists
    refine and_iff_right_of_imp fun hcount => ?_
    obtain ⟨list, hlist, hid⟩ := List.countP_pos_iff.1 (Nat.lt_of_succ_lt hcount)
    exact List.mem_flatten.2 ⟨list, hlist, List.contains_iff_mem.1 hid⟩
  · rw [hsearch, ← List.forall₂_map_left_iff, List.forall₂_eq_eq_eq]
    exact eq_comm

end TickScript.Emission
