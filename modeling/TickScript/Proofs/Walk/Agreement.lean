import TickScript.Proofs.Emission.Parallel
import TickScript.Proofs.Walk.Hoist

/-!
# Tables that agree

Two tables agree on a set of ids if they hold the same nodes under them and these nodes lead to no id
outside of it. The search for shared continuations runs on a budget that depends on the whole table.
`explore_eq` says that the budget is never used up, so that a search inside the set finds the same in
both tables, in the same order.
-/

namespace TickScript

/-- Two tables hold the same nodes under the ids of a set, or both none, and the outputs and slots of
these nodes do not lead out of the set. -/
structure NodeTable.Agree (inside : String → Prop) (table table' : NodeTable) : Prop where
  same : ∀ id, inside id → table'.get? id = table.get? id
  outputs : ∀ id node, inside id → table.get? id = some node → ∀ next ∈ node.outputs, inside next
  children : ∀ id node, inside id → table.get? id = some node → ∀ next ∈ node.children, inside next

/-- A table agrees with itself. -/
theorem NodeTable.Agree.refl (table : NodeTable) : table.Agree (fun _ => True) table :=
  ⟨fun _ _ => rfl, fun _ _ _ _ _ _ => trivial, fun _ _ _ _ _ _ => trivial⟩

namespace Emission

variable {table table' : NodeTable} {inside : String → Prop}

theorem outputsOf_eq (h : table.Agree inside table') {id : String} (hid : inside id) :
    outputsOf table' id = outputsOf table id := by
  unfold outputsOf
  rw [h.same id hid]

theorem outputsOf_inside (h : table.Agree inside table') :
    ∀ id, inside id → ∀ next ∈ outputsOf table id, inside next := by
  intro id hid next hnext
  unfold outputsOf at hnext
  split at hnext
  · next node hnode => exact h.outputs id node hid hnode next hnext
  · cases hnext

/-! ## The budget of a search -/

/-- The number of outputs of the nodes of a list that have not been reached. -/
def pendingOutputs (reached : List String) : List (String × Node) → Nat
  | [] => 0
  | entry :: entries =>
    (if reached.contains entry.1 then 0 else entry.2.outputs.length) + pendingOutputs reached entries

/-- With more ids reached there are no more outputs to come. -/
theorem pendingOutputs_append_le (reached : List String) (id : String)
    (entries : List (String × Node)) :
    pendingOutputs (reached ++ [id]) entries ≤ pendingOutputs reached entries := by
  induction entries with
  | nil => exact Nat.le_refl _
  | cons entry entries ih =>
      rw [pendingOutputs, pendingOutputs]
      by_cases hold : reached.contains entry.1 = true
      · have hnew : (reached ++ [id]).contains entry.1 = true := by simp_all
        rw [if_pos hold, if_pos hnew]
        omega
      · rw [if_neg hold]
        split <;> omega

/-- The outputs of a node that is reached are no longer to come. -/
theorem outputs_add_pendingOutputs_le {reached : List String} {id : String} {node : Node}
    {entries : List (String × Node)} (hnode : entries.lookup id = some node)
    (hnew : reached.contains id = false) :
    node.outputs.length + pendingOutputs (reached ++ [id]) entries ≤
      pendingOutputs reached entries := by
  induction entries with
  | nil => cases hnode
  | cons entry entries ih =>
      rw [pendingOutputs, pendingOutputs]
      rw [List.lookup_cons] at hnode
      by_cases hid : id = entry.1
      · subst hid
        rw [beq_self_eq_true] at hnode
        cases hnode
        have hrest := pendingOutputs_append_le reached entry.1 entries
        have hnow : (reached ++ [entry.1]).contains entry.1 = true := by simp
        rw [if_pos hnow, if_neg (by simp_all)]
        omega
      · rw [beq_eq_false_iff_ne.2 hid] at hnode
        have hrest := ih hnode
        have hsame : (reached ++ [id]).contains entry.1 = reached.contains entry.1 := by
          simp [Ne.symm hid]
        rw [hsame]
        omega

/-- At first all outputs are to come. -/
theorem pendingOutputs_nil (table : NodeTable) : pendingOutputs [] table.entries = totalOutputs table := by
  have hfold (entries : List (String × Node)) (total : Nat) :
      (entries.map (·.2)).foldl (fun total node => total + node.outputs.length) total =
        total + pendingOutputs [] entries := by
    induction entries generalizing total with
    | nil => rfl
    | cons entry entries ih =>
        rw [List.map_cons, List.foldl_cons, ih, pendingOutputs]
        simp [Nat.add_assoc]
  have h := hfold table.entries 0
  rw [Nat.zero_add] at h
  exact h.symm

/-- A step of the search uses up one unit of the budget: an id is taken from the stack, and the
outputs that replace it are no longer to come. -/
theorem outputsOf_add_pendingOutputs_le (table : NodeTable) {reached : List String} {id : String}
    (hnew : reached.contains id = false) :
    (outputsOf table id).length + pendingOutputs (reached ++ [id]) table.entries ≤
      pendingOutputs reached table.entries := by
  unfold outputsOf
  split
  · next node hnode => exact outputs_add_pendingOutputs_le hnode hnew
  · rw [List.length_nil, Nat.zero_add]
    exact pendingOutputs_append_le reached id table.entries

/-- Searches from the same stack find the same in tables that agree, if both have budget for the stack
and for all outputs to come. -/
theorem explore_eq (h : table.Agree inside table') (barred : List String) (budget budget' : Nat)
    (stack reached : List String) (hstack : ∀ id ∈ stack, inside id)
    (hbudget : stack.length + pendingOutputs reached table.entries ≤ budget)
    (hbudget' : stack.length + pendingOutputs reached table'.entries ≤ budget') :
    explore table' barred budget' stack reached = explore table barred budget stack reached := by
  induction budget generalizing budget' stack reached with
  | zero =>
      obtain rfl : stack = [] := List.length_eq_zero_iff.1 (by omega)
      cases budget' <;> rfl
  | succ budget ih =>
      cases stack with
      | nil => cases budget' <;> rfl
      | cons id stack =>
          rw [List.length_cons] at hbudget hbudget'
          obtain ⟨budget', rfl⟩ : ∃ rest, budget' = rest + 1 := ⟨budget' - 1, by omega⟩
          obtain ⟨hid, hrest⟩ := List.forall_mem_cons.1 hstack
          rw [explore, explore, outputsOf_eq h hid]
          split
          · exact ih budget' stack reached hrest (by omega) (by omega)
          · next hseen =>
            have hnew : reached.contains id = false := by
              rw [Bool.or_eq_true, not_or, Bool.not_eq_true, Bool.not_eq_true] at hseen
              exact hseen.2
            have hused := outputsOf_add_pendingOutputs_le table hnew
            have hused' := outputsOf_add_pendingOutputs_le table' hnew
            rw [outputsOf_eq h hid] at hused'
            refine ih budget' _ _ (List.forall_mem_append.2 ⟨outputsOf_inside h id hid, hrest⟩) ?_ ?_
            · rw [List.length_append]
              omega
            · rw [List.length_append]
              omega

/-- The same ids are reached from heads in the set. -/
theorem reachable_eq (h : table.Agree inside table') (barred heads : List String)
    (hheads : ∀ id ∈ heads, inside id) :
    reachable table' barred heads = reachable table barred heads := by
  refine explore_eq h barred _ _ heads [] hheads (Nat.le_of_eq ?_) (Nat.le_of_eq ?_)
  · rw [pendingOutputs_nil]
  · rw [pendingOutputs_nil]

/-- A node whose slots lead into the set has the same shared continuations. -/
theorem Walk.sharedAfter_eq {registry registry' : Registry} (h : table.Agree inside table')
    (visited : List String) (node : Node) (hchildren : ∀ id ∈ node.children, inside id) :
    sharedAfter ⟨table', registry'⟩ visited node = sharedAfter ⟨table, registry⟩ visited node := by
  have hreached : node.branches.map (reachable table' (node.id :: visited)) =
      node.branches.map (reachable table (node.id :: visited)) := by
    refine List.map_congr_left fun heads hheads => reachable_eq h _ heads fun id hid => ?_
    exact hchildren id (List.mem_flatten.2 ⟨heads, (List.mem_filter.1 hheads).1, hid⟩)
  unfold sharedAfter sharedContinuations
  rw [hreached]

/-- The shared continuations of a node are in the set if its slots lead into it. -/
theorem Walk.sharedAfter_mem {registry : Registry} (h : table.Agree inside table')
    (visited : List String) (node : Node) (hchildren : ∀ id ∈ node.children, inside id) :
    ∀ id ∈ sharedAfter ⟨table, registry⟩ visited node, inside id := by
  refine sharedAfter_inside (outputsOf_inside h) fun heads hheads id hid => ?_
  exact hchildren id (List.mem_flatten.2 ⟨heads, (List.mem_filter.1 hheads).1, hid⟩)

end Emission

end TickScript
