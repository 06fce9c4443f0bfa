import TickScript.Proofs.Graph.Acceptance

/-!
# Nodes that are kept

The build of a graph goes on after a node with a defect, with a table from which that node is missing.
`kept` says which nodes are in the table: the first one of each id, if it has a kind. `Keeps` is the
invariant of the build: it mirrors the kept nodes, whatever else was found wrong so far.
-/

namespace TickScript.Graph

variable {names : KindNames} {registry : Emission.Registry} {nodes : List Graph.Node}

/-- The nodes of a list whose ids have not come before. -/
def firsts : List Graph.Node → List Graph.Node
  | [] => []
  | node :: nodes => node :: (firsts nodes).filter fun other => other.id != node.id

/-- The nodes that get into the table: the first one of each id, if it has a kind. -/
def kept (names : KindNames) (registry : Emission.Registry) (nodes : List Graph.Node) :
    List Graph.Node :=
  (firsts nodes).filter fun node => (node.kind? names registry).isSome

/-! ## First nodes -/

theorem firsts_sublist (nodes : List Graph.Node) : (firsts nodes).Sublist nodes := by
  induction nodes with
  | nil => exact List.Sublist.refl _
  | cons node nodes ih => exact (List.filter_sublist.trans ih).cons_cons node

/-- Every id is that of a first node. -/
theorem mem_ids_firsts {id : String} :
    id ∈ (firsts nodes).map (·.id) ↔ id ∈ nodes.map (·.id) := by
  refine ⟨fun h => ((firsts_sublist nodes).map _).subset h, fun h => ?_⟩
  induction nodes with
  | nil => cases h
  | cons node nodes ih =>
      rw [firsts, List.map_cons, List.mem_cons]
      by_cases hid : id = node.id
      · exact .inl hid
      · right
        have htail : id ∈ nodes.map (·.id) := by simpa [hid] using h
        obtain ⟨other, hother, rfl⟩ := List.mem_map.1 (ih htail)
        exact List.mem_map_of_mem (List.mem_filter.2 ⟨hother, by simpa using hid⟩)

theorem nodup_firsts (nodes : List Graph.Node) : ((firsts nodes).map (·.id)).Nodup := by
  induction nodes with
  | nil => exact List.nodup_nil
  | cons node nodes ih =>
      rw [firsts, List.map_cons, List.nodup_cons]
      refine ⟨fun hmem => ?_, ih.sublist (List.filter_sublist.map _)⟩
      obtain ⟨other, hother, hid⟩ := List.mem_map.1 hmem
      simp [hid] at hother

/-- If all ids differ, all nodes are first. -/
theorem firsts_of_nodup (h : (nodes.map (·.id)).Nodup) : firsts nodes = nodes := by
  induction nodes with
  | nil => rfl
  | cons node nodes ih =>
      rw [List.map_cons, List.nodup_cons] at h
      rw [firsts, ih h.2, List.filter_eq_self.2]
      intro other hother
      have hne : other.id ≠ node.id := fun hid => h.1 (hid ▸ List.mem_map_of_mem hother)
      simpa using hne

/-- One more node is first if its id is new. -/
theorem firsts_append (nodes : List Graph.Node) (node : Graph.Node) :
    firsts (nodes ++ [node]) =
      if node.id ∈ nodes.map (·.id) then firsts nodes else firsts nodes ++ [node] := by
  induction nodes with
  | nil => rfl
  | cons head nodes ih =>
      rw [List.cons_append, firsts, ih]
      by_cases hhead : node.id = head.id
      · -- The node falls to the filter of the head, be it first among the others or not.
        have hold : node.id ∈ (head :: nodes).map (·.id) := by simp [hhead]
        rw [if_pos hold]
        split
        · rfl
        · rw [List.filter_append, firsts]
          simp [hhead]
      · by_cases htail : node.id ∈ nodes.map (·.id)
        · have hold : node.id ∈ (head :: nodes).map (·.id) := List.mem_cons_of_mem _ htail
          rw [if_pos htail, if_pos hold, firsts]
        · have hnew : node.id ∉ (head :: nodes).map (·.id) := by simpa [hhead] using htail
          rw [if_neg htail, if_neg hnew, List.filter_append, firsts, List.cons_append]
          simp [hhead]

/-! ## Kept nodes -/

theorem kept_sublist (nodes : List Graph.Node) : (kept names registry nodes).Sublist nodes :=
  List.filter_sublist.trans (firsts_sublist nodes)

theorem kept_append (nodes : List Graph.Node) (node : Graph.Node) :
    kept names registry (nodes ++ [node]) =
      if node.id ∉ nodes.map (·.id) ∧ (node.kind? names registry).isSome = true then
        kept names registry nodes ++ [node]
      else kept names registry nodes := by
  unfold kept
  rw [firsts_append]
  by_cases hold : node.id ∈ nodes.map (·.id)
  · rw [if_pos hold, if_neg (fun h => h.1 hold)]
  · rw [if_neg hold, List.filter_append]
    by_cases hkind : (node.kind? names registry).isSome = true
    · rw [if_pos ⟨hold, hkind⟩]
      simp [hkind]
    · rw [if_neg (fun h => hkind h.2)]
      simp [hkind]

namespace Building

variable {building : Building}

/-- A new node without a kind is declared and a defect, and is not taken into the table. -/
theorem addNode_of_no_kind {node : Graph.Node} (hnew : node.id ∉ building.declared)
    (hkind : node.kind? names registry = none) :
    ∃ warnings, addNode names registry building node =
      { nodes := building.nodes, declared := building.declared ++ [node.id]
        defects := building.defects ++ [.unknownKind node.id node.kind], warnings } := by
  have hcontains : building.declared.contains node.id = false := by simpa using hnew
  unfold Node.kind? at hkind
  unfold addNode
  rw [hcontains]
  cases hresolved : resolveKind names registry node (splitSettings node.settings).2 with
  | mk found warning =>
      rw [hresolved] at hkind
      subst hkind
      cases warning <;> simp [hresolved, warn, reject]

/-- A state of the build with the ids of the kept nodes alone. -/
def only (building : Building) (nodes : List Graph.Node) : Building :=
  { building with declared := nodes.map (·.id) }

theorem only_update (id : String) (change : TickScript.Node → TickScript.Node) :
    (building.update id change).only nodes = (building.only nodes).update id change := by
  cases hnode : building.nodes.get? id <;> simp [update, only, hnode]

theorem only_connect (source port target input : String) :
    (building.connect source port target input).only nodes =
      (building.only nodes).connect source port target input := by
  have hnodes : (building.only nodes).nodes = building.nodes := rfl
  unfold connect
  dsimp only
  rw [← only_update, hnodes]
  split <;> rfl

@[simp] theorem update_declared {id : String} {change : TickScript.Node → TickScript.Node} :
    (building.update id change).declared = building.declared := by
  unfold update
  split <;> rfl

theorem addConnection_declared (edge : Edge) :
    (building.addConnection edge).declared = building.declared := by
  unfold addConnection
  split
  · rfl
  · rfl
  · exact update_declared
  · exact update_declared
  · unfold connect
    dsimp only
    split <;> exact update_declared
  · rfl

/-- A connection does not look at the declared ids. -/
theorem only_addConnection (edge : Edge) :
    (building.addConnection edge).only nodes = (building.only nodes).addConnection edge := by
  unfold addConnection
  split
  · rfl
  · rfl
  · exact only_update _ _
  · exact only_update _ _
  · exact only_connect _ _ _ _
  · rfl

/-- All ids of a list of nodes are declared, and the table mirrors the nodes that are kept. -/
structure Keeps (names : KindNames) (registry : Emission.Registry) (nodes : List Graph.Node)
    (building : Building) : Prop where
  declared : building.declared = (firsts nodes).map (·.id)
  mirrors : Mirrors names registry (kept names registry nodes)
    (building.only (kept names registry nodes))

namespace Keeps

theorem empty : Keeps names registry [] {} :=
  ⟨rfl, rfl, .refl _, fun _ h => absurd h List.not_mem_nil⟩

theorem mem_declared (h : Keeps names registry nodes building) {id : String} :
    id ∈ building.declared ↔ ∃ node ∈ nodes, node.id = id := by
  rw [h.declared, mem_ids_firsts, List.mem_map]

/-- Only the table and the declared ids matter. -/
theorem congr {other : Building} (h : Keeps names registry nodes building)
    (hnodes : other.nodes = building.nodes) (hdeclared : other.declared = building.declared) :
    Keeps names registry nodes other :=
  ⟨hdeclared.trans h.declared, h.mirrors.congr hnodes rfl⟩

/-! ## Steps of the build -/

/-- Whatever is wrong with a node, it is kept or not as it should be. -/
theorem addNode (h : Keeps names registry nodes building) (node : Graph.Node) :
    Keeps names registry (nodes ++ [node]) (Building.addNode names registry building node) := by
  have hmem : node.id ∈ building.declared ↔ node.id ∈ nodes.map (·.id) := by
    rw [h.declared, mem_ids_firsts]
  by_cases hold : node.id ∈ building.declared
  · -- A repeated id changes nothing but the defects.
    have hstep : Building.addNode names registry building node =
        building.reject (.duplicateNodeId node.id) := by
      unfold Building.addNode
      exact if_pos (List.contains_iff_mem.2 hold)
    rw [hstep]
    constructor
    · rw [firsts_append, if_pos (hmem.1 hold)]
      exact h.declared
    · rw [kept_append, if_neg (fun hnew => hnew.1 (hmem.1 hold))]
      exact h.mirrors.congr rfl rfl
  · have hnew : node.id ∉ nodes.map (·.id) := fun hmap => hold (hmem.2 hmap)
    have hdeclared : building.declared ++ [node.id] = (firsts (nodes ++ [node])).map (·.id) := by
      rw [firsts_append, if_neg hnew, List.map_append, h.declared]
      rfl
    cases hkind : node.kind? names registry with
    | none =>
        obtain ⟨warnings, hstep⟩ := addNode_of_no_kind hold hkind
        rw [hstep]
        constructor
        · exact hdeclared
        · rw [kept_append, if_neg (by simp [hkind])]
          exact h.mirrors.congr rfl rfl
    | some kind =>
        obtain ⟨warnings, hstep⟩ := addNode_eq hold hkind
        have hfree : node.id ∉ (building.only (kept names registry nodes)).declared := by
          intro hkept
          exact hnew (((kept_sublist nodes).map _).subset hkept)
        obtain ⟨others, hkeptStep⟩ := addNode_eq hfree hkind
        have hmirrors := h.mirrors.addNode hfree hkind
        rw [hkeptStep] at hmirrors
        rw [hstep]
        constructor
        · exact hdeclared
        · rw [kept_append, if_pos ⟨hnew, by simp [hkind]⟩]
          exact hmirrors.congr rfl (by simp [only])

/-- Whatever is wrong with an edge, the same nodes are kept. -/
theorem addEdge (h : Keeps names registry nodes building) (edge : Edge) :
    Keeps names registry nodes (building.addEdge edge) := by
  unfold Building.addEdge
  split
  · exact h.congr rfl rfl
  · split
    · exact h.congr rfl rfl
    · split
      · constructor
        · rw [addConnection_declared, h.declared]
        · rw [only_addConnection]
          exact h.mirrors.addConnection edge
      · exact h

/-! ## The nodes of the program -/

/-- No node that is not kept has a place in the table, so the nodes of the program are the kept ones. -/
theorem declaredNodes_eq (h : Keeps names registry nodes building) :
    building.declaredNodes = (building.only (kept names registry nodes)).declaredNodes := by
  have hids := nodup_firsts nodes
  unfold declaredNodes
  rw [h.declared, h.mirrors.declared, kept, List.filterMap_map, List.filterMap_map,
    List.filterMap_filter]
  refine List.filterMap_congr fun node hnode => ?_
  by_cases hkind : (node.kind? names registry).isSome = true
  · rw [if_pos hkind]
    rfl
  · rw [if_neg hkind]
    -- An id in the table is that of a kept node, which would be this one.
    refine Option.not_isSome_iff_eq_none.1 fun hsome => hkind ?_
    have hkey := h.mirrors.keys.mem_iff.1 (Keyed.contains_iff_mem_keys.1 hsome)
    rw [h.mirrors.declared] at hkey
    obtain ⟨other, hother, hid⟩ := List.mem_map.1 hkey
    obtain ⟨hfirst, hotherKind⟩ := List.mem_filter.1 hother
    obtain rfl : other = node := List.inj_on_of_nodup_map hids hfirst hnode hid
    exact hotherKind

theorem foldl_addNode (h : Keeps names registry nodes building) (more : List Graph.Node) :
    Keeps names registry (nodes ++ more) (more.foldl (Building.addNode names registry) building) := by
  induction more generalizing nodes building with
  | nil => simpa using h
  | cons node more ih => simpa using ih (h.addNode node)

theorem foldl_addEdge (h : Keeps names registry nodes building) (edges : List Edge) :
    Keeps names registry nodes (edges.foldl Building.addEdge building) := by
  induction edges generalizing building with
  | nil => exact h
  | cons edge edges ih => exact ih (h.addEdge edge)

end Keeps

end Building

/-- A graph is assembled with the nodes that are kept. -/
theorem assemble_keeps (graph : Graph) (names : KindNames) (registry : Emission.Registry) :
    Building.Keeps names registry graph.nodes (graph.assemble names registry) :=
  (Building.Keeps.empty.foldl_addNode graph.nodes).foldl_addEdge graph.edges

end TickScript.Graph
