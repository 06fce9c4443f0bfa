import TickScript.Proofs.Graph.Kept

/-!
# What reports say

`Describes` is what each defect says of a graph, in terms of the graph alone. The steps of a build
look at one node or edge, and what they report is true of it. The checks at the end look at the
program, in which only the kept nodes stand: that the graph is empty, that it has no start node or
that a task is unknown is true of these nodes, and of all nodes if none was left out on the way.
-/

namespace TickScript.Graph

variable {graph : Graph} {names : KindNames} {registry : Emission.Registry}
  {nodes : List Graph.Node} {defect : Defect}

/-- A port of an edge that is not fit for it: it has no meaning, or the two ports do not go together. -/
def Edge.Misfit (edge : Edge) (nodeId port : String) : Prop :=
  (edge.source = nodeId ∧ edge.sourcePort = port ∧ ∀ found : SourcePort, ¬ found.IsNamed port) ∨
  (edge.target = nodeId ∧ edge.targetPort = port ∧ ∀ found : TargetPort, ¬ found.IsNamed port) ∨
  (edge.target = nodeId ∧ edge.sourcePort ++ " -> " ++ edge.targetPort = port ∧
    (∃ found : SourcePort, found.IsNamed edge.sourcePort) ∧
    (∃ found : TargetPort, found.IsNamed edge.targetPort) ∧
    ¬ edge.CarriesFlow ∧ ¬ edge.CarriesData)

/-- What a defect says of a graph. What it denies of all nodes, it denies of those in a list. -/
def Describes (graph : Graph) (names : KindNames) (registry : Emission.Registry)
    (nodes : List Graph.Node) : Defect → Prop
  | .emptyGraph => nodes = []
  | .missingEntry => ∀ node ∈ nodes, names.resolve node.kind ≠ "start"
  | .duplicateEntry first second => first ≠ second ∧
    (∃ node ∈ graph.nodes, node.id = first ∧ names.resolve node.kind = "start") ∧
    ∃ node ∈ graph.nodes, node.id = second ∧ names.resolve node.kind = "start"
  | .entryMismatch _ => False
  | .duplicateNodeId id => 2 ≤ (graph.nodes.map (·.id)).count id
  | .unknownKind id kind => (∃ node ∈ graph.nodes, node.id = id ∧ node.kind = kind) ∧
    Kind.isBuiltin (names.resolve kind) = false ∧ registry.contains (names.resolve kind) = false
  | .nodeNotFound missing other => (∀ node ∈ graph.nodes, node.id ≠ missing) ∧
    ∃ edge ∈ graph.edges, (edge.source = missing ∧ edge.target = other) ∨
      (edge.source = other ∧ edge.target = missing)
  | .invalidPort id port => ∃ edge ∈ graph.edges, edge.Misfit id port
  | .missingTaskName id => ∃ node ∈ graph.nodes, node.id = id ∧
    names.resolve node.kind = "task.define" ∧
    ∀ name, (node.coerced Kind.TaskDefine.record).name = some name → Text.trim name = ""
  | .duplicateTask name => 2 ≤ (graph.taskNames names).count name
  | .unknownTask id task => task ∉ taskNames { graph with nodes } names ∧
    ∃ node ∈ graph.nodes, node.id = id ∧ names.resolve node.kind = "task.call" ∧
      (node.coerced Kind.TaskCall.record).task.getD "" = task

namespace Building

variable {building : Building}

/-- All defects that were noted so far are true of the graph. -/
def Reports (graph : Graph) (names : KindNames) (registry : Emission.Registry)
    (nodes : List Graph.Node) (building : Building) : Prop :=
  ∀ defect ∈ building.defects, graph.Describes names registry nodes defect

theorem Reports.congr {other : Building} (h : Reports graph names registry nodes building)
    (hdefects : other.defects = building.defects) : Reports graph names registry nodes other := by
  unfold Reports
  rw [hdefects]
  exact h

theorem Reports.reject (h : Reports graph names registry nodes building)
    (hdefect : graph.Describes names registry nodes defect) :
    Reports graph names registry nodes (building.reject defect) := by
  intro other hother
  rcases List.mem_append.1 hother with hother | hother
  · exact h other hother
  · rw [List.mem_singleton.1 hother]
    exact hdefect

/-! ## Steps of the build -/

/-- What is reported of a node is true of it and of the nodes before it. -/
theorem Reports.addNode {before after : List Graph.Node} {node : Graph.Node}
    (h : Reports graph names registry nodes building) (hkeeps : Keeps names registry before building)
    (hgraph : graph.nodes = before ++ node :: after) :
    Reports graph names registry nodes (Building.addNode names registry building node) := by
  have hmem : node ∈ graph.nodes := by simp [hgraph]
  by_cases hold : node.id ∈ building.declared
  · have hstep : Building.addNode names registry building node =
        building.reject (.duplicateNodeId node.id) := by
      unfold Building.addNode
      exact if_pos (List.contains_iff_mem.2 hold)
    rw [hstep]
    refine h.reject ?_
    show 2 ≤ (graph.nodes.map (·.id)).count node.id
    obtain ⟨other, hother, hid⟩ := hkeeps.mem_declared.1 hold
    have hbefore : 0 < (before.map (·.id)).count node.id :=
      List.count_pos_iff.2 (hid ▸ List.mem_map_of_mem hother)
    rw [hgraph, List.map_append, List.map_cons, List.count_append, List.count_cons_self]
    omega
  · cases hkind : node.kind? names registry with
    | none =>
        obtain ⟨warnings, hstep⟩ := addNode_of_no_kind hold hkind
        have hnone : ¬ (node.kind? names registry).isSome = true := by simp [hkind]
        have hunknown := mt Node.kind?_isSome.2 hnone
        rw [not_or, Bool.not_eq_true, Bool.not_eq_true] at hunknown
        have hreport : graph.Describes names registry nodes (.unknownKind node.id node.kind) :=
          ⟨⟨node, hmem, rfl, rfl⟩, hunknown⟩
        rw [hstep]
        exact (h.reject hreport).congr rfl
    | some kind =>
        obtain ⟨warnings, hstep⟩ := addNode_eq hold hkind
        exact h.congr (by rw [hstep])

/-- What is reported of the ports of an edge is true of them. -/
theorem Reports.addConnection {edge : Edge} (h : Reports graph names registry nodes building)
    (hedge : edge ∈ graph.edges) :
    Reports graph names registry nodes (building.addConnection edge) := by
  have hmisfit {id port : String} (hport : edge.Misfit id port) :
      Reports graph names registry nodes (building.reject (.invalidPort id port)) :=
    h.reject ⟨edge, hedge, hport⟩
  unfold Building.addConnection
  split
  · next hsource =>
    refine hmisfit (.inl ⟨rfl, rfl, fun found hfound => ?_⟩)
    rw [SourcePort.ofName?_eq_some.2 hfound] at hsource
    cases hsource
  · next htarget =>
    refine hmisfit (.inr (.inl ⟨rfl, rfl, fun found hfound => ?_⟩))
    rw [TargetPort.ofName?_eq_some.2 hfound] at htarget
    cases htarget
  · exact h.congr update_defects
  · exact h.congr update_defects
  · exact h.congr connect_defects
  · next source target hflow hslot hdata hsource htarget =>
    refine hmisfit (.inr (.inr ⟨rfl, rfl, ?_, ?_, ?_, ?_⟩))
    · exact ⟨source, SourcePort.ofName?_eq_some.1 hsource⟩
    · exact ⟨target, TargetPort.ofName?_eq_some.1 htarget⟩
    · rw [Edge.carriesFlow_iff]
      cases source <;> cases target <;> simp_all
    · rw [Edge.carriesData_iff]
      cases source <;> cases target <;> simp_all

/-- What is reported of an edge is true of it. -/
theorem Reports.addEdge {edge : Edge} (h : Reports graph names registry nodes building)
    (hkeeps : Keeps names registry graph.nodes building) (hedge : edge ∈ graph.edges) :
    Reports graph names registry nodes (building.addEdge edge) := by
  have hmissing {id : String} (hid : (!building.declared.contains id) = true) :
      ∀ node ∈ graph.nodes, node.id ≠ id := by
    intro node hnode hsame
    have hdeclared := hkeeps.mem_declared.2 ⟨node, hnode, hsame⟩
    simp [hdeclared] at hid
  unfold Building.addEdge
  split
  · next hsource => exact h.reject ⟨hmissing hsource, edge, hedge, .inl ⟨rfl, rfl⟩⟩
  · split
    · next htarget => exact h.reject ⟨hmissing htarget, edge, hedge, .inr ⟨rfl, rfl⟩⟩
    · split
      · exact h.addConnection hedge
      · exact h

/-- What is reported of a task is true of the node that defines it. -/
theorem Reports.addTask {state : Building × List Task} {built : TickScript.Node} {node : Graph.Node}
    (h : Reports graph names registry nodes state.1) (hnode : node ∈ graph.nodes)
    (hid : node.id = built.id) (hkind : node.kind? names registry = some built.kind) :
    Reports graph names registry nodes (Building.addTask state built).1 := by
  obtain ⟨building, tasks⟩ := state
  cases hsettings : built.kind with
  | taskDefine settings =>
      rw [hsettings] at hkind
      obtain ⟨hdefine, rfl⟩ := Node.kind?_eq_taskDefine_iff.1 hkind
      simp only [Building.addTask, hsettings]
      split
      · next hnone =>
        refine h.reject ⟨node, hnode, hid, hdefine, fun name hname => ?_⟩
        rw [taskName?_eq_filter, hname] at hnone
        simpa using hnone
      · dsimp only
        split <;> exact h
  | _ =>
      simp only [Building.addTask, hsettings]
      exact h

/-! ## Runs of the build -/

theorem Reports.foldl_addNode {before after : List Graph.Node}
    (h : Reports graph names registry nodes building) (hkeeps : Keeps names registry before building)
    (hgraph : graph.nodes = before ++ after) :
    Reports graph names registry nodes (after.foldl (Building.addNode names registry) building) := by
  induction after generalizing before building with
  | nil => exact h
  | cons node after ih =>
      refine ih (h.addNode hkeeps hgraph) (hkeeps.addNode node) ?_
      rw [hgraph, List.append_assoc, List.singleton_append]

theorem Reports.foldl_addEdge {edges : List Edge} (h : Reports graph names registry nodes building)
    (hkeeps : Keeps names registry graph.nodes building) (hedges : ∀ edge ∈ edges, edge ∈ graph.edges) :
    Reports graph names registry nodes (edges.foldl Building.addEdge building) := by
  induction edges generalizing building with
  | nil => exact h
  | cons edge edges ih =>
      rw [List.forall_mem_cons] at hedges
      exact ih (h.addEdge hkeeps hedges.1) (hkeeps.addEdge edge) hedges.2

theorem Reports.foldl_addTask {state : Building × List Task} {built : List TickScript.Node}
    (h : Reports graph names registry nodes state.1)
    (hbuilt : ∀ node ∈ built, ∃ declared ∈ graph.nodes, declared.id = node.id ∧
      declared.kind? names registry = some node.kind) :
    Reports graph names registry nodes (built.foldl Building.addTask state).1 := by
  induction built generalizing state with
  | nil => exact h
  | cons node built ih =>
      rw [List.forall_mem_cons] at hbuilt
      obtain ⟨⟨declared, hdeclared, hid, hkind⟩, hrest⟩ := hbuilt
      exact ih (h.addTask hdeclared hid hkind) hrest

/-! ## The program -/

/-- The nodes of the program are nodes of the graph. -/
theorem Mirrors.exists_node (h : Mirrors names registry nodes building) {built : TickScript.Node}
    (hbuilt : built ∈ building.declaredNodes) : ∃ node ∈ nodes, node.id = built.id ∧
      node.kind? names registry = some built.kind := by
  rw [declaredNodes, h.declared, List.filterMap_map] at hbuilt
  obtain ⟨node, hnode, hget⟩ := List.mem_filterMap.1 hbuilt
  obtain ⟨other, hother, hid, hkind⟩ := h.built node hnode
  obtain rfl : built = other := Option.some.inj (hget.symm.trans hother)
  exact ⟨node, hnode, hid.symm, hkind⟩

/-- The ids of the program are those of the graph. -/
theorem Mirrors.ids (h : Mirrors names registry nodes building) :
    building.declaredNodes.map (·.id) = nodes.map (·.id) := by
  rw [declaredNodes, h.declared, List.filterMap_map, List.map_filterMap,
    List.filterMap_eq_map_iff_forall_eq_some]
  intro node hnode
  obtain ⟨built, hbuilt, hid, -⟩ := h.built node hnode
  simp [hbuilt, hid]

end Building

/-- A list of nodes of which the checks of a program see all that they look for, although only the
nodes of another list are present. -/
structure Covered (graph : Graph) (names : KindNames) (present nodes : List Graph.Node) : Prop where
  empty : present = [] → nodes = []
  starts : ∀ node ∈ nodes, names.resolve node.kind = "start" → node ∈ present
  tasks : ∀ name ∈ taskNames { graph with nodes } names,
    name ≠ "" ∧ name ∈ taskNames { graph with nodes := present } names

namespace Building

variable {building : Building} {present : List Graph.Node} {tasks : List Task}

/-- Two start nodes that are reported are two start nodes of the graph. -/
theorem Mirrors.describes_duplicateEntry (h : Mirrors names registry present building)
    (hpresent : present.Sublist graph.nodes) {fileId entry first second : String}
    {rest : List String}
    (hstarts : (Program.mk fileId entry building.nodes tasks).starts = first :: second :: rest) :
    graph.Describes names registry nodes (.duplicateEntry first second) := by
  have hperm : (Program.mk fileId entry building.nodes tasks).starts.Perm
      ((building.declaredNodes.filter (Program.isStart ·.kind)).map (·.id)) := h.starts_perm
  rw [hstarts] at hperm
  have hstart {id : String} (hid : id ∈ first :: second :: rest) :
      ∃ node ∈ graph.nodes, node.id = id ∧ names.resolve node.kind = "start" := by
    obtain ⟨built, hbuilt, rfl⟩ := List.mem_map.1 (hperm.mem_iff.1 hid)
    obtain ⟨hbuilt, hkind⟩ := List.mem_filter.1 hbuilt
    obtain ⟨node, hnode, hid, hnodeKind⟩ := h.exists_node hbuilt
    rw [Node.isStart_of_kind? hnodeKind, beq_iff_eq] at hkind
    exact ⟨node, hpresent.subset hnode, hid, hkind⟩
  -- All ids of the program differ.
  have hids : (building.declaredNodes.map (·.id)).Nodup := by
    rw [h.ids, ← h.declared, ← h.keys.nodup_iff]
    exact Keyed.keys_nodup
  have hnodup := hperm.nodup_iff.2 (hids.sublist (List.filter_sublist.map _))
  refine ⟨fun hsame => ?_, hstart List.mem_cons_self, hstart (by simp)⟩
  simp [hsame] at hnodup

/-- What is reported of the entry is true of the graph. -/
theorem Mirrors.describes_entry (h : Mirrors names registry present building)
    (hpresent : present.Sublist graph.nodes) (hcovered : Covered graph names present nodes)
    {fileId : String}
    (hdefect : defect ∈ (Program.mk fileId building.entry building.nodes tasks).entryDefects) :
    graph.Describes names registry nodes defect := by
  have hperm : (Program.mk fileId building.entry building.nodes tasks).starts.Perm
      ((building.declaredNodes.filter (Program.isStart ·.kind)).map (·.id)) := h.starts_perm
  obtain ⟨rfl, hstarts⟩ | ⟨only, rfl, hstarts, hne⟩ | ⟨first, second, rest, rfl, hstarts⟩ :=
    Program.mem_entryDefects hdefect
  · rw [hstarts] at hperm
    have hnone : building.declaredNodes.countP (Program.isStart ·.kind) = 0 := by
      rw [List.countP_eq_length_filter]
      simpa using hperm.length_eq.symm
    rw [h.countP_start, List.countP_eq_zero] at hnone
    intro node hnode hstart
    exact hnone node (hcovered.starts node hnode hstart) (beq_iff_eq.2 hstart)
  · -- The entry was taken from the start nodes, so it is the only one.
    rw [hstarts] at hperm
    have hone : building.declaredNodes.countP (Program.isStart ·.kind) = 1 := by
      rw [List.countP_eq_length_filter]
      simpa using hperm.length_eq.symm
    have hentry := hstarts.symm.trans (h.starts_eq_entry.2 hone)
    exact absurd (List.cons.inj hentry).1 hne
  · exact h.describes_duplicateEntry hpresent hstarts

/-- What the checks of the program report is true of the graph. -/
theorem Mirrors.describes_program (h : Mirrors names registry present building)
    (hpresent : present.Sublist graph.nodes) (hcovered : Covered graph names present nodes)
    {fileId : String}
    (htasks : tasks.map (·.name) = building.declaredNodes.filterMap (definedTask? ·.kind))
    (hdefect : defect ∈ (Program.mk fileId building.entry building.nodes tasks).defects) :
    graph.Describes names registry nodes defect := by
  have hnames : tasks.map (·.name) =
      (taskNames { graph with nodes := present } names).filter (· != "") :=
    htasks.trans h.taskNames_filter
  have hkept : (taskNames { graph with nodes := present } names).Sublist (graph.taskNames names) :=
    (hpresent.filter _).filterMap _
  obtain ⟨rfl, hempty⟩ | hentry | ⟨name, rfl, hcount⟩ | ⟨built, hbuilt, task, rfl, hcall, hunknown⟩ :=
    Program.mem_defects hdefect
  · have hkeys := h.keys
    rw [Keyed.keys, List.isEmpty_iff.1 hempty, h.declared, List.map_nil, List.nil_perm,
      List.map_eq_nil_iff] at hkeys
    exact hcovered.empty hkeys
  · exact h.describes_entry hpresent hcovered hentry
  · show 2 ≤ (graph.taskNames names).count name
    dsimp only at hcount
    rw [hnames] at hcount
    calc
      2 ≤ ((taskNames { graph with nodes := present } names).filter (· != "")).count name := hcount
      _ ≤ (taskNames { graph with nodes := present } names).count name :=
        List.filter_sublist.count_le _
      _ ≤ (graph.taskNames names).count name := hkept.count_le _
  · obtain ⟨node, hnode, hid, hkind⟩ := h.exists_node (h.values_perm.mem_iff.1 hbuilt)
    refine ⟨fun hmem => hunknown ?_, node, hpresent.subset hnode, hid, ?_⟩
    · obtain ⟨hne, hname⟩ := hcovered.tasks task hmem
      rw [hnames]
      exact List.mem_filter.2 ⟨hname, bne_iff_ne.2 hne⟩
    · cases hsettings : built.kind with
      | taskCall settings =>
          rw [hsettings] at hkind hcall
          obtain ⟨hname, rfl⟩ := Node.kind?_eq_taskCall_iff.1 hkind
          exact ⟨hname, Option.some.inj hcall⟩
      | _ =>
          rw [hsettings] at hcall
          cases hcall

end Building

/-! ## Rejected graphs -/

theorem mem_addDefects {noted defects : List Defect} :
    defect ∈ addDefects noted defects ↔ defect ∈ noted ∨ defect ∈ defects := by
  unfold addDefects
  induction defects generalizing noted with
  | nil => simp
  | cons other defects ih =>
      rw [List.foldl_cons, ih]
      split
      · next hnoted =>
        have hmem : other ∈ noted := List.contains_iff_mem.1 hnoted
        grind
      · grind

/-- All that a build reports is true, if the checks of the program see all that they look for. -/
theorem describes_of_covered {rejection : Rejection} (h : graph.build names registry = .error rejection)
    (hcovered : Covered graph names (kept names registry graph.nodes) nodes) :
    ∀ defect ∈ rejection.defects, graph.Describes names registry nodes defect := by
  by_cases hempty : graph.nodes = []
  · have hreject : (⟨[.emptyGraph], []⟩ : Rejection) = rejection := by
      simpa [build, hempty] using h
    have hnodes : nodes = [] := hcovered.empty (by simp [hempty, kept, firsts])
    intro defect hdefect
    rw [← hreject] at hdefect
    rw [List.mem_singleton.1 hdefect]
    exact hnodes
  · have hkeeps := assemble_keeps graph names registry
    have hpresent : (kept names registry graph.nodes).Sublist graph.nodes := kept_sublist _
    obtain ⟨-, -, hnames⟩ := Building.foldl_addTask
      (graph.assemble names registry).declaredNodes (graph.assemble names registry, [])
    have hassembled : Building.Reports graph names registry nodes (graph.assemble names registry) := by
      have hnodes : Building.Reports graph names registry nodes
          (graph.nodes.foldl (Building.addNode names registry) {}) :=
        Building.Reports.foldl_addNode (fun _ h => absurd h List.not_mem_nil) .empty rfl
      refine hnodes.foldl_addEdge ?_ fun _ => id
      exact Building.Keeps.empty.foldl_addNode graph.nodes
    have hfinal : Building.Reports graph names registry nodes
        ((graph.assemble names registry).declaredNodes.foldl Building.addTask
          (graph.assemble names registry, [])).1 := by
      refine Building.Reports.foldl_addTask hassembled fun built hbuilt => ?_
      rw [hkeeps.declaredNodes_eq] at hbuilt
      obtain ⟨node, hnode, hid, hkind⟩ := hkeeps.mirrors.exists_node hbuilt
      exact ⟨node, hpresent.subset hnode, hid, hkind⟩
    have hentry : (graph.assemble names registry).entry =
        ((graph.assemble names registry).only (kept names registry graph.nodes)).entry := by
      rw [Building.entry, Building.entry, hkeeps.declaredNodes_eq]
    rw [build_eq hempty] at h
    split at h
    · cases h
    · cases h
      intro defect hdefect
      rcases mem_addDefects.1 hdefect with hdefect | hdefect
      · exact hfinal defect hdefect
      · rw [hentry] at hdefect
        refine hkeeps.mirrors.describes_program hpresent hcovered ?_ hdefect
        rw [← hkeeps.declaredNodes_eq]
        exact hnames

/-- A node that is not at fault itself: it is the first one with its id, it has a kind, and if it
defines a task, it gives it a name. -/
def sound (names : KindNames) (registry : Emission.Registry) (nodes : List Graph.Node) :
    List Graph.Node :=
  (kept names registry nodes).filter fun node => names.resolve node.kind != "task.define" ||
    (Building.taskName? (node.coerced Kind.TaskDefine.record)).isSome

/-- The checks of the program see all nodes that are not at fault. -/
theorem covered_sound (graph : Graph) (names : KindNames) (registry : Emission.Registry) :
    Covered graph names (kept names registry graph.nodes) (sound names registry graph.nodes) := by
  constructor
  · intro hkept
    rw [sound, hkept]
    rfl
  · intro node hnode hstart
    exact List.mem_of_mem_filter hnode
  · intro name hname
    obtain ⟨node, hnode, htask⟩ := List.mem_filterMap.1 hname
    obtain ⟨hsound, hdefine⟩ := List.mem_filter.1 hnode
    obtain ⟨hkept, hnamed⟩ := List.mem_filter.1 hsound
    constructor
    · rintro rfl
      rw [beq_iff_eq.1 hdefine, bne_self_eq_false, Bool.false_or, Building.taskName?_eq_filter,
        htask] at hnamed
      cases hnamed
    · exact List.mem_filterMap.2 ⟨node, List.mem_filter.2 ⟨hkept, hdefine⟩, htask⟩

/-- The checks of the program see all nodes, if the ids differ, a node has a kind and no task
definition gives an empty name. -/
theorem covered_nodes (hids : (graph.nodes.map (·.id)).Nodup)
    (hkind : graph.nodes ≠ [] → ∃ node ∈ graph.nodes, (node.kind? names registry).isSome = true)
    (hnamed : "" ∉ graph.taskNames names) :
    Covered graph names (kept names registry graph.nodes) graph.nodes := by
  have hmem {node : Graph.Node} (hnode : node ∈ graph.nodes)
      (hbuiltin : Kind.isBuiltin (names.resolve node.kind) = true) :
      node ∈ kept names registry graph.nodes := by
    rw [kept, firsts_of_nodup hids]
    exact List.mem_filter.2 ⟨hnode, Node.kind?_isSome.2 (.inl hbuiltin)⟩
  constructor
  · intro hnone
    by_contra hne
    obtain ⟨node, hnode, hsome⟩ := hkind hne
    rw [kept, firsts_of_nodup hids, List.filter_eq_nil_iff] at hnone
    exact hnone node hnode hsome
  · intro node hnode hstart
    exact hmem hnode (by rw [hstart]; decide)
  · intro name hname
    refine ⟨fun hempty => hnamed (hempty ▸ hname), ?_⟩
    obtain ⟨node, hnode, htask⟩ := List.mem_filterMap.1 hname
    obtain ⟨hnode, hdefine⟩ := List.mem_filter.1 hnode
    have hbuiltin : Kind.isBuiltin (names.resolve node.kind) = true := by
      rw [beq_iff_eq.1 hdefine]
      decide
    exact List.mem_filterMap.2 ⟨node, List.mem_filter.2 ⟨hmem hnode hbuiltin, hdefine⟩, htask⟩

/-- All that is reported of a rejected graph is true of the graph without the nodes that are at fault
themselves. It is true of the whole graph if the ids of its nodes differ, at least one node has a kind
that is built in or registered, and no task definition gives an empty name. -/
theorem reports_describe_graph (graph : Graph) (names : KindNames) (registry : Emission.Registry)
    (rejection : Rejection) (h : graph.build names registry = .error rejection) :
    (∀ defect ∈ rejection.defects,
      graph.Describes names registry (sound names registry graph.nodes) defect) ∧
    ((graph.nodes.map (·.id)).Nodup →
      (graph.nodes ≠ [] → ∃ node ∈ graph.nodes, Kind.isBuiltin (names.resolve node.kind) = true ∨
        registry.contains (names.resolve node.kind) = true) →
      "" ∉ graph.taskNames names →
      ∀ defect ∈ rejection.defects, graph.Describes names registry graph.nodes defect) := by
  refine ⟨describes_of_covered h (covered_sound graph names registry), ?_⟩
  intro hids hkind hnamed
  refine describes_of_covered h (covered_nodes hids (fun hne => ?_) hnamed)
  obtain ⟨node, hnode, hknown⟩ := hkind hne
  exact ⟨node, hnode, Node.kind?_isSome.2 hknown⟩

/-- A graph with two start nodes, an unknown kind, a task that is defined twice, a call of another task
and three edges that do not fit. -/
def tangledPlan : Graph where
  name := "tangled"
  nodes := [
    { id := "start", kind := "start" },
    { id := "again", kind := "start" },
    { id := "odd", kind := "mystery" },
    { id := "dig", kind := "task.define", settings := .object [("name", .text "dig")] },
    { id := "digToo", kind := "task.define", settings := .object [("name", .text " dig ")] },
    { id := "call", kind := "task.call", settings := .object [("task", .text "fill")] }]
  edges := [
    .flow "start" "nowhere", ⟨"start", "slot:", "call", "flow"⟩, ⟨"start", "flow", "call", "data:x"⟩]

/-- Seven defects are reported, and all of them are there. -/
theorem tangledPlan_described : ∃ rejection, tangledPlan.build .empty .empty = .error rejection ∧
    rejection.defects = [
      .unknownKind "odd" "mystery", .nodeNotFound "nowhere" "start", .invalidPort "start" "slot:",
      .invalidPort "call" "flow -> data:x", .duplicateEntry "again" "start", .duplicateTask "dig",
      .unknownTask "call" "fill"] ∧
    ∀ defect ∈ rejection.defects,
      tangledPlan.Describes .empty .empty (sound .empty .empty tangledPlan.nodes) defect ∧
        tangledPlan.Describes .empty .empty tangledPlan.nodes defect := by
  have hdefects : (match tangledPlan.build .empty .empty with
      | .ok _ => []
      | .error rejection => rejection.defects) = [
      .unknownKind "odd" "mystery", .nodeNotFound "nowhere" "start", .invalidPort "start" "slot:",
      .invalidPort "call" "flow -> data:x", .duplicateEntry "again" "start", .duplicateTask "dig",
      .unknownTask "call" "fill"] := by decide +kernel
  cases hbuild : tangledPlan.build .empty .empty with
  | ok result =>
      rw [hbuild] at hdefects
      cases hdefects
  | error rejection =>
      rw [hbuild] at hdefects
      obtain ⟨hsound, hwhole⟩ := reports_describe_graph tangledPlan .empty .empty rejection hbuild
      have hall := hwhole (by decide) (fun _ => ⟨_, List.mem_cons_self, .inl (by decide)⟩)
        (by decide +kernel)
      exact ⟨rejection, rfl, hdefects, fun defect hdefect => ⟨hsound _ hdefect, hall _ hdefect⟩⟩

/-- A graph whose only node has an unknown kind. -/
def strayNode : Graph where
  name := "stray"
  nodes := [{ id := "a", kind := "mystery" }]
  edges := []

/-- A graph whose start node has the id of a node before it. -/
def hiddenStart : Graph where
  name := "hidden"
  nodes := [{ id := "a", kind := "flow.merge" }, { id := "a", kind := "start" }]
  edges := []

/-- The first graph is said to have no nodes, the second one to have no start node. -/
theorem partial_graphs_misdescribed :
    (∃ rejection, strayNode.build .empty .empty = .error rejection ∧
      ∃ defect ∈ rejection.defects, ¬ strayNode.Describes .empty .empty strayNode.nodes defect) ∧
    ∃ rejection, hiddenStart.build .empty .empty = .error rejection ∧
      ∃ defect ∈ rejection.defects, ¬ hiddenStart.Describes .empty .empty hiddenStart.nodes defect := by
  refine ⟨⟨⟨[.unknownKind "a" "mystery", .emptyGraph], []⟩, rfl, .emptyGraph, by simp, ?_⟩,
    ⟨⟨[.duplicateNodeId "a", .missingEntry], []⟩, rfl, .missingEntry, by simp, ?_⟩⟩
  · exact List.cons_ne_nil _ _
  · intro hdescribes
    exact hdescribes { id := "a", kind := "start" } (by simp [hiddenStart]) rfl

end TickScript.Graph
