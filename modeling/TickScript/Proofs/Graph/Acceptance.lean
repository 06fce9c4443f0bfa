import TickScript.Proofs.Graph.WellFormed
import TickScript.Proofs.Keyed
import TickScript.Proofs.Program

/-!
# Which graphs are accepted

A build goes through its steps whatever they find, and later steps pass over what earlier ones
rejected. `Mirrors` is the state in which nothing was rejected: every node of the graph stands in the
table with its kind. While it holds, each step finds a defect exactly when its part of `WellFormed`
fails; once it fails there is a defect already, and defects are never taken back.
-/

namespace TickScript.Graph

namespace Building

variable {building : Building} {names : KindNames} {registry : Emission.Registry}

/-! ## Defects stay -/

@[simp] theorem reject_defects (defect : Defect) : (building.reject defect).defects ≠ [] := by
  simp [reject]

@[simp] theorem update_defects {id : String} {change : TickScript.Node → TickScript.Node} :
    (building.update id change).defects = building.defects := by
  unfold update
  split <;> rfl

@[simp] theorem connect_defects {source port target input : String} :
    (building.connect source port target input).defects = building.defects := by
  unfold connect
  dsimp only
  split <;> simp [warn]

theorem prefix_reject (defect : Defect) : building.defects <+: (building.reject defect).defects :=
  List.prefix_append _ _

theorem prefix_addNode (node : Graph.Node) :
    building.defects <+: (addNode names registry building node).defects := by
  unfold addNode
  dsimp only
  split
  · exact prefix_reject _
  · split <;> split <;> first | exact List.prefix_rfl | exact prefix_reject _

theorem prefix_addEdge (edge : Edge) : building.defects <+: (building.addEdge edge).defects := by
  unfold addEdge
  split
  · exact prefix_reject _
  · split
    · exact prefix_reject _
    · split
      · unfold addConnection
        split <;> first | exact prefix_reject _ | simp
      · exact List.prefix_rfl

/-- Steps that keep defects find none in the end only if there were none before. -/
theorem nil_of_foldl {α : Type} {step : Building → α → Building}
    (h : ∀ building item, building.defects <+: (step building item).defects) {items : List α}
    (hnil : (items.foldl step building).defects = []) : building.defects = [] := by
  induction items generalizing building with
  | nil => exact hnil
  | cons item items ih =>
      have hstep : (step building item).defects = [] := ih hnil
      exact List.prefix_nil.1 (hstep ▸ h building item)

/-! ## Nodes -/

/-- All nodes of a list stand in the table of a program that is being built, with their kinds, and
nothing else does. -/
structure Mirrors (names : KindNames) (registry : Emission.Registry) (nodes : List Graph.Node)
    (building : Building) : Prop where
  declared : building.declared = nodes.map (·.id)
  keys : building.nodes.keys.Perm building.declared
  built : ∀ node ∈ nodes, ∃ built, building.nodes.get? node.id = some built ∧
    built.id = node.id ∧ node.kind? names registry = some built.kind

/-- Only the table and the declared ids matter. -/
theorem Mirrors.congr {nodes : List Graph.Node} {other : Building}
    (h : Mirrors names registry nodes building) (hnodes : other.nodes = building.nodes)
    (hdeclared : other.declared = building.declared) : Mirrors names registry nodes other :=
  ⟨hdeclared.trans h.declared, by rw [hnodes, hdeclared]; exact h.keys, by rw [hnodes]; exact h.built⟩

/-- A node with a new id and a kind is taken into the table. -/
theorem addNode_eq {node : Graph.Node} {kind : Kind} (hnew : node.id ∉ building.declared)
    (hkind : node.kind? names registry = some kind) :
    ∃ warnings, addNode names registry building node =
      { nodes := building.nodes.insert node.id
          { id := node.id, kind, inputs := (splitSettings node.settings).1 }
        declared := building.declared ++ [node.id], defects := building.defects, warnings } := by
  have hcontains : building.declared.contains node.id = false := by simpa using hnew
  unfold Node.kind? at hkind
  unfold addNode
  rw [hcontains]
  cases hresolved : resolveKind names registry node (splitSettings node.settings).2 with
  | mk found warning =>
      rw [hresolved] at hkind
      subst hkind
      cases warning <;> simp [hresolved, warn]

/-- A node with an old id or without a kind is a defect. -/
theorem addNode_defects_ne {node : Graph.Node}
    (h : node.id ∈ building.declared ∨ node.kind? names registry = none) :
    (addNode names registry building node).defects ≠ [] := by
  unfold Node.kind? at h
  unfold addNode
  split
  · exact reject_defects _
  · next hcontains =>
    have hnone := h.resolve_left fun h => hcontains (List.contains_iff_mem.2 h)
    simp [hnone]

/-- A node that is added without a defect is mirrored too. -/
theorem Mirrors.addNode {nodes : List Graph.Node} {node : Graph.Node} {kind : Kind}
    (h : Mirrors names registry nodes building) (hnew : node.id ∉ building.declared)
    (hkind : node.kind? names registry = some kind) :
    Mirrors names registry (nodes ++ [node]) (addNode names registry building node) := by
  obtain ⟨warnings, heq⟩ := addNode_eq hnew hkind
  rw [heq]
  have hnone : building.nodes.get? node.id = none := by
    rw [← Option.not_isSome_iff_eq_none]
    intro hsome
    exact hnew (h.keys.mem_iff.1 (Keyed.contains_iff_mem_keys.1 hsome))
  refine ⟨by simp [h.declared], ?_, ?_⟩
  · have hdeclared := (h.keys.cons node.id).trans (List.perm_append_singleton _ _).symm
    exact (Keyed.keys_insert_perm hnone).trans hdeclared
  · intro other hother
    rcases List.mem_append.1 hother with hother | hother
    · have hne : other.id ≠ node.id := by
        intro heq
        exact hnew (h.declared ▸ heq ▸ List.mem_map_of_mem hother)
      rw [Keyed.get?_insert_of_ne hne]
      exact h.built other hother
    · obtain rfl := List.mem_singleton.1 hother
      exact ⟨_, Keyed.get?_insert_self, rfl, hkind⟩

/-- Nodes are added without a defect exactly when their ids differ and all get kinds; then they are
all mirrored. -/
theorem foldl_addNode {before : List Graph.Node} (h : Mirrors names registry before building)
    (nodes : List Graph.Node) :
    let final := nodes.foldl (addNode names registry) building
    (final.defects = [] ↔ building.defects = [] ∧ ((before ++ nodes).map (·.id)).Nodup ∧
      ∀ node ∈ nodes, (node.kind? names registry).isSome = true) ∧
    (final.defects = [] → Mirrors names registry (before ++ nodes) final) := by
  induction nodes generalizing building before with
  | nil =>
      have hnodup : (before.map (·.id)).Nodup := by
        rw [← h.declared, ← h.keys.nodup_iff]
        exact Keyed.keys_nodup
      simpa [hnodup] using fun _ => h
  | cons node nodes ih =>
      by_cases hgood : node.id ∉ building.declared ∧ (node.kind? names registry).isSome = true
      · obtain ⟨hnew, hsome⟩ := hgood
        obtain ⟨kind, hkind⟩ := Option.isSome_iff_exists.1 hsome
        have hdefects : (addNode names registry building node).defects = building.defects := by
          obtain ⟨warnings, heq⟩ := addNode_eq hnew hkind
          rw [heq]
        have hnodes := ih (h.addNode hnew hkind)
        rw [hdefects, List.append_assoc, List.singleton_append] at hnodes
        refine ⟨hnodes.1.trans ?_, hnodes.2⟩
        rw [List.forall_mem_cons, and_iff_right hsome]
      · -- The node is a defect, which stays whatever follows; the condition fails at it too.
        have hstep : (addNode names registry building node).defects ≠ [] := by
          apply addNode_defects_ne
          rw [not_and_or, not_not, Option.not_isSome_iff_eq_none] at hgood
          exact hgood
        have hfinal : ((node :: nodes).foldl (addNode names registry) building).defects ≠ [] := by
          intro hnil
          exact hstep (nil_of_foldl (fun _ => prefix_addNode) hnil)
        refine ⟨iff_of_false hfinal ?_, fun hnil => absurd hnil hfinal⟩
        rintro ⟨-, hnodup, hkinds⟩
        refine hgood ⟨fun hmem => ?_, hkinds node List.mem_cons_self⟩
        rw [h.declared] at hmem
        rw [List.map_append, List.nodup_append] at hnodup
        exact hnodup.2.2 _ hmem _ (List.mem_map_of_mem List.mem_cons_self) rfl

/-! ## Edges -/

/-- A change that keeps the id and the kind of a node keeps all nodes mirrored. -/
theorem Mirrors.update {nodes : List Graph.Node} {id : String}
    {change : TickScript.Node → TickScript.Node} (h : Mirrors names registry nodes building)
    (hid : ∀ node, (change node).id = node.id) (hkind : ∀ node, (change node).kind = node.kind) :
    Mirrors names registry nodes (building.update id change) := by
  unfold Building.update
  split
  · next old hold =>
    refine ⟨h.declared, ?_, fun node hnode => ?_⟩
    · rw [Keyed.keys_insert_of_get? hold]
      exact h.keys
    · obtain ⟨built, hbuilt, hbuiltId, hbuiltKind⟩ := h.built node hnode
      by_cases hsame : node.id = id
      · subst hsame
        obtain rfl : old = built := Option.some.inj (hold.symm.trans hbuilt)
        exact ⟨change old, Keyed.get?_insert_self, (hid old).trans hbuiltId, by
          rw [hkind, hbuiltKind]⟩
      · exact ⟨built, (Keyed.get?_insert_of_ne hsame).trans hbuilt, hbuiltId, hbuiltKind⟩
  · exact h

theorem Mirrors.connect {nodes : List Graph.Node} {source port target input : String}
    (h : Mirrors names registry nodes building) :
    Mirrors names registry nodes (building.connect source port target input) := by
  have hupdate : Mirrors names registry nodes
      (building.update target (·.withInput input (.edge source port))) :=
    h.update (fun _ => rfl) fun _ => rfl
  unfold Building.connect
  dsimp only
  split
  · exact hupdate.congr rfl rfl
  · exact hupdate

/-- Connections keep all nodes mirrored. -/
theorem Mirrors.addConnection {nodes : List Graph.Node} (h : Mirrors names registry nodes building)
    (edge : Edge) : Mirrors names registry nodes (building.addConnection edge) := by
  unfold Building.addConnection
  split
  · exact h.congr rfl rfl
  · exact h.congr rfl rfl
  · exact h.update (fun _ => rfl) fun _ => rfl
  · exact h.update (fun _ => rfl) fun _ => rfl
  · exact h.connect
  · exact h.congr rfl rfl

/-- Edges keep all nodes mirrored. -/
theorem Mirrors.addEdge {nodes : List Graph.Node} (h : Mirrors names registry nodes building)
    (edge : Edge) : Mirrors names registry nodes (building.addEdge edge) := by
  unfold Building.addEdge
  split
  · exact h.congr rfl rfl
  · split
    · exact h.congr rfl rfl
    · split
      · exact h.addConnection edge
      · exact h

/-- A connection has no defect exactly when it carries flow or a value. -/
theorem addConnection_defects {edge : Edge} : (building.addConnection edge).defects = [] ↔
    building.defects = [] ∧ (edge.CarriesFlow ∨ edge.CarriesData) := by
  rw [Edge.carriesFlow_iff, Edge.carriesData_iff]
  unfold addConnection
  split
  -- The last branch is for the pairs of ports that no other branch takes.
  case h_6 source target _ _ _ hsource htarget =>
    cases source <;> cases target <;> simp_all
  all_goals simp_all

/-- An edge has no defect exactly when both its ends are declared and it carries flow or a value. -/
theorem Mirrors.addEdge_defects {nodes : List Graph.Node}
    (h : Mirrors names registry nodes building) {edge : Edge} :
    (building.addEdge edge).defects = [] ↔ building.defects = [] ∧
      (∃ node ∈ nodes, node.id = edge.source) ∧ (∃ node ∈ nodes, node.id = edge.target) ∧
        (edge.CarriesFlow ∨ edge.CarriesData) := by
  have hdeclared (id : String) : (∃ node ∈ nodes, node.id = id) ↔ id ∈ building.declared := by
    rw [h.declared, List.mem_map]
  have hcontains {id : String} (hid : id ∈ building.declared) :
      building.nodes.contains id = true :=
    Keyed.contains_iff_mem_keys.2 (h.keys.mem_iff.2 hid)
  rw [hdeclared, hdeclared]
  unfold Building.addEdge
  by_cases hsource : edge.source ∈ building.declared
  · by_cases htarget : edge.target ∈ building.declared
    · simp [hsource, htarget, hcontains hsource, hcontains htarget, addConnection_defects]
    · simp [hsource, htarget]
  · simp [hsource]

/-- Edges are added without a defect exactly when all of them connect declared nodes and carry flow
or values. -/
theorem Mirrors.foldl_addEdge {nodes : List Graph.Node} (h : Mirrors names registry nodes building)
    (edges : List Edge) :
    let final := edges.foldl Building.addEdge building
    Mirrors names registry nodes final ∧
      (final.defects = [] ↔ building.defects = [] ∧ ∀ edge ∈ edges,
        (∃ node ∈ nodes, node.id = edge.source) ∧ (∃ node ∈ nodes, node.id = edge.target) ∧
          (edge.CarriesFlow ∨ edge.CarriesData)) := by
  induction edges generalizing building with
  | nil => simpa using h
  | cons edge edges ih =>
      obtain ⟨hmirrors, hdefects⟩ := ih (h.addEdge edge)
      refine ⟨hmirrors, hdefects.trans ?_⟩
      rw [h.addEdge_defects, List.forall_mem_cons, and_assoc]

/-! ## Tasks -/

/-- The trimmed name of the task that a kind defines, if it is not blank. -/
def definedTask? : Kind → Option String
  | .taskDefine settings => taskName? settings
  | _ => none

/-- A task has a name exactly when the trimmed name is not empty. -/
theorem taskName?_isSome {settings : Kind.TaskDefine} : (taskName? settings).isSome = true ↔
    ∃ name, settings.name = some name ∧ Text.trim name ≠ "" := by
  unfold taskName?
  cases settings.name with
  | none => simp
  | some name => simp [Text.trim_eq_empty_iff]

theorem taskName?_eq_map {settings : Kind.TaskDefine} (h : (taskName? settings).isSome = true) :
    taskName? settings = settings.name.map Text.trim := by
  unfold taskName? at h ⊢
  split <;> simp_all

theorem taskName?_eq_filter (settings : Kind.TaskDefine) :
    taskName? settings = (settings.name.map Text.trim).filter (· != "") := by
  unfold taskName?
  cases settings.name with
  | none => rfl
  | some name =>
      rw [Option.map_some, Option.filter_some]
      by_cases hblank : Text.trim name = ""
      · simp [hblank, Text.trim_eq_empty_iff.1 hblank]
      · have hnonblank := mt Text.trim_eq_empty_iff.2 hblank
        simp [hblank, hnonblank]

/-- What a step of the tasks or a check of inputs leaves alone: the nodes and the declared ids. -/
structure SameNodes (building final : Building) : Prop where
  nodes : final.nodes = building.nodes
  declared : final.declared = building.declared

theorem SameNodes.trans {middle final : Building} (h : SameNodes building middle)
    (hfinal : SameNodes middle final) : SameNodes building final :=
  ⟨hfinal.nodes.trans h.nodes, hfinal.declared.trans h.declared⟩

theorem SameNodes.declaredNodes_eq {final : Building} (h : SameNodes building final) :
    final.declaredNodes = building.declaredNodes := by
  rw [declaredNodes, declaredNodes, h.nodes, h.declared]

/-- A task is added without a defect exactly when it has a name, and under the name that the node
defines. -/
theorem addTask_spec (state : Building × List Task) (node : TickScript.Node) :
    SameNodes state.1 (addTask state node).1 ∧
      ((addTask state node).1.defects = [] ↔ state.1.defects = [] ∧
        ∀ settings, node.kind = .taskDefine settings → (taskName? settings).isSome = true) ∧
      (addTask state node).2.map (·.name) =
        state.2.map (·.name) ++ (definedTask? node.kind).toList := by
  obtain ⟨building, tasks⟩ := state
  cases hkind : node.kind with
  | taskDefine settings =>
      simp only [addTask, definedTask?, hkind]
      cases hname : taskName? settings with
      | none => exact ⟨⟨rfl, rfl⟩, by simp [hname], by simp⟩
      | some name =>
          refine ⟨?_, ?_, by simp⟩
          · dsimp only
            split <;> exact ⟨rfl, rfl⟩
          · dsimp only
            split <;> simp [hname, warn]
  | _ =>
      simp only [addTask, definedTask?, hkind]
      exact ⟨⟨rfl, rfl⟩, by simp, by simp⟩

/-- Tasks are added without a defect exactly when all have names, and under the names that the nodes
define. -/
theorem foldl_addTask (nodes : List TickScript.Node) (state : Building × List Task) :
    let final := nodes.foldl addTask state
    SameNodes state.1 final.1 ∧
      (final.1.defects = [] ↔ state.1.defects = [] ∧ ∀ node ∈ nodes, ∀ settings,
        node.kind = .taskDefine settings → (taskName? settings).isSome = true) ∧
      final.2.map (·.name) = state.2.map (·.name) ++ nodes.filterMap (definedTask? ·.kind) := by
  induction nodes generalizing state with
  | nil => exact ⟨⟨rfl, rfl⟩, by simp, by simp⟩
  | cons node nodes ih =>
      obtain ⟨hsame, hdefects, hnames⟩ := addTask_spec state node
      obtain ⟨hsame', hdefects', hnames'⟩ := ih (addTask state node)
      refine ⟨hsame.trans hsame', hdefects'.trans ?_, hnames'.trans ?_⟩
      · rw [hdefects, List.forall_mem_cons, and_assoc]
      · rw [hnames, List.append_assoc]
        cases hdefined : definedTask? node.kind <;> simp [hdefined]

/-- Warnings are no defects. -/
theorem foldl_warn (nodeId : String) (message : String → String) (inputs : List String)
    (building : Building) :
    let final := inputs.foldl (fun building input => building.warn nodeId (message input)) building
    SameNodes building final ∧ final.defects = building.defects := by
  induction inputs generalizing building with
  | nil => exact ⟨⟨rfl, rfl⟩, rfl⟩
  | cons input inputs ih =>
      have hwarn : SameNodes building (building.warn nodeId (message input)) := ⟨rfl, rfl⟩
      obtain ⟨hsame, hdefects⟩ := ih (building.warn nodeId (message input))
      exact ⟨hwarn.trans hsame, hdefects⟩

/-- Checks of inputs find no defects. -/
theorem foldl_checkInputs (nodes : List TickScript.Node) (building : Building) :
    let final := nodes.foldl checkInputs building
    SameNodes building final ∧ final.defects = building.defects := by
  induction nodes generalizing building with
  | nil => exact ⟨⟨rfl, rfl⟩, rfl⟩
  | cons node nodes ih =>
      obtain ⟨hsame, hdefects⟩ := foldl_warn node.id _ _ building
      obtain ⟨hsame', hdefects'⟩ := ih (building.checkInputs node)
      exact ⟨hsame.trans hsame', hdefects'.trans hdefects⟩

/-! ## The nodes of the program -/

variable {nodes : List Graph.Node}

/-- The kinds of the program are those that the nodes of the graph get, in the same order. -/
theorem Mirrors.kinds (h : Mirrors names registry nodes building) :
    building.declaredNodes.map (some ·.kind) = nodes.map (·.kind? names registry) := by
  rw [declaredNodes, h.declared, List.filterMap_map, List.map_filterMap,
    List.filterMap_eq_map_iff_forall_eq_some]
  intro node hnode
  obtain ⟨built, hbuilt, -, hkind⟩ := h.built node hnode
  simp [hbuilt, hkind]

/-- The table holds the declared nodes. -/
theorem Mirrors.values_perm (h : Mirrors names registry nodes building) :
    building.nodes.values.Perm building.declaredNodes := by
  rw [← Keyed.filterMap_get?_keys]
  exact h.keys.filterMap _

/-- What holds of the kinds of the program holds of the kinds that the nodes of the graph get. -/
theorem Mirrors.forall_kind (h : Mirrors names registry nodes building) (P : Kind → Prop) :
    (∀ built ∈ building.declaredNodes, P built.kind) ↔
      ∀ node ∈ nodes, ∀ kind, node.kind? names registry = some kind → P kind := by
  have hkinds : (∀ found ∈ building.declaredNodes.map (some ·.kind), ∀ kind, found = some kind →
      P kind) ↔ ∀ found ∈ nodes.map (·.kind? names registry), ∀ kind, found = some kind → P kind := by
    rw [h.kinds]
  simpa using hkinds

/-- The program has as many start nodes as the graph has nodes with the mapped kind `start`. -/
theorem Mirrors.countP_start (h : Mirrors names registry nodes building) :
    building.declaredNodes.countP (Program.isStart ·.kind) =
      nodes.countP fun node => names.resolve node.kind == "start" := by
  have hcount : (building.declaredNodes.map (some ·.kind)).countP (·.any Program.isStart) =
      (nodes.map (·.kind? names registry)).countP (·.any Program.isStart) := by
    rw [h.kinds]
  rw [List.countP_map, List.countP_map] at hcount
  refine Eq.trans hcount (List.countP_congr fun node hnode => ?_)
  obtain ⟨built, -, -, hkind⟩ := h.built node hnode
  simp [hkind, Node.isStart_of_kind? hkind]

/-- The start nodes of the program are the declared ones. -/
theorem Mirrors.starts_perm (h : Mirrors names registry nodes building) {fileId entry : String}
    {tasks : List Task} : (Program.mk fileId entry building.nodes tasks).starts.Perm
      ((building.declaredNodes.filter (Program.isStart ·.kind)).map (·.id)) :=
  (h.values_perm.filter _).map _

/-- The entry is the only start node exactly when there is one start node. -/
theorem Mirrors.starts_eq_entry (h : Mirrors names registry nodes building) {fileId : String}
    {tasks : List Task} :
    (Program.mk fileId building.entry building.nodes tasks).starts = [building.entry] ↔
      building.declaredNodes.countP (Program.isStart ·.kind) = 1 := by
  have hperm : (Program.mk fileId building.entry building.nodes tasks).starts.Perm
      ((building.declaredNodes.filter (Program.isStart ·.kind)).map (·.id)) := h.starts_perm
  rw [List.countP_eq_length_filter]
  constructor
  · intro hstarts
    rw [hstarts] at hperm
    simpa using hperm.length_eq.symm
  · intro hlength
    obtain ⟨only, honly⟩ := List.length_eq_one_iff.1 hlength
    have hentry : building.entry = only.id := by
      rw [Building.entry, ← List.head?_filter, honly]
      rfl
    rw [honly] at hperm
    rw [hentry] at hperm ⊢
    exact List.perm_singleton.1 hperm

end Building

/-! ## The verdict -/

variable {names : KindNames} {registry : Emission.Registry}

theorem addDefects_eq_nil_iff {noted defects : List Defect} :
    addDefects noted defects = [] ↔ noted = [] ∧ defects = [] := by
  unfold addDefects
  induction defects generalizing noted with
  | nil => simp
  | cons defect defects ih =>
      rw [List.foldl_cons, ih]
      split
      · next hnoted =>
        have hne : noted ≠ [] := List.ne_nil_of_mem (List.contains_iff_mem.1 hnoted)
        simp [hne]
      · simp

/-- Nodes and edges are assembled without a defect exactly when the ids differ, all nodes get kinds
and all edges connect declared nodes by fitting ports. Then the program mirrors the graph. -/
theorem assemble_defects (graph : Graph) (names : KindNames) (registry : Emission.Registry) :
    ((graph.assemble names registry).defects = [] ↔ (graph.nodes.map (·.id)).Nodup ∧
      (∀ node ∈ graph.nodes, (node.kind? names registry).isSome = true) ∧
      ∀ edge ∈ graph.edges, (∃ node ∈ graph.nodes, node.id = edge.source) ∧
        (∃ node ∈ graph.nodes, node.id = edge.target) ∧ (edge.CarriesFlow ∨ edge.CarriesData)) ∧
    ((graph.assemble names registry).defects = [] →
      Building.Mirrors names registry graph.nodes (graph.assemble names registry)) := by
  have hempty : Building.Mirrors names registry [] {} := ⟨rfl, .refl _, by simp⟩
  obtain ⟨hnodes, hmirrors⟩ := Building.foldl_addNode hempty graph.nodes
  rw [List.nil_append] at hnodes hmirrors
  by_cases hnil : (graph.nodes.foldl (Building.addNode names registry) {}).defects = []
  · obtain ⟨hassembled, hedges⟩ := (hmirrors hnil).foldl_addEdge graph.edges
    obtain ⟨-, hids, hkinds⟩ := hnodes.1 hnil
    refine ⟨hedges.trans ?_, fun _ => hassembled⟩
    rw [and_iff_right hnil, and_iff_right hids, and_iff_right hkinds]
  · have hassembled : (graph.assemble names registry).defects ≠ [] := fun h =>
      hnil (Building.nil_of_foldl (fun _ => Building.prefix_addEdge) h)
    refine ⟨iff_of_false hassembled ?_, fun h => absurd h hassembled⟩
    rintro ⟨hids, hkinds, -⟩
    exact hnil (hnodes.2 ⟨rfl, hids, hkinds⟩)

/-- The outcome for a graph with nodes is decided by its assembled nodes and edges and by the tasks. The
checks after the tasks only warn. -/
theorem build_eq {graph : Graph} (hne : graph.nodes ≠ []) :
    let assembled := graph.assemble names registry
    let final := assembled.declaredNodes.foldl Building.addTask (assembled, [])
    let checked := final.1.declaredNodes.foldl Building.checkInputs final.1
    let program : Program := ⟨graph.name, assembled.entry, assembled.nodes, final.2⟩
    graph.build names registry =
      match addDefects final.1.defects program.defects with
      | [] => .ok (program, checked.warnings)
      | defects => .error ⟨defects, checked.warnings⟩ := by
  intro assembled final checked program
  obtain ⟨hsame, -, -⟩ := Building.foldl_addTask assembled.declaredNodes (assembled, [])
  obtain ⟨hchecked, hdefects⟩ := Building.foldl_checkInputs final.1.declaredNodes final.1
  have hnodes : Building.SameNodes assembled checked := hsame.trans hchecked
  have hentry : checked.entry = assembled.entry := by
    rw [Building.entry, Building.entry, hnodes.declaredNodes_eq]
  have hbuild : graph.build names registry =
      match addDefects checked.defects
        (Program.mk graph.name checked.entry checked.nodes final.2).defects with
      | [] => .ok (⟨graph.name, checked.entry, checked.nodes, final.2⟩, checked.warnings)
      | defects => .error ⟨defects, checked.warnings⟩ := by
    unfold build
    exact if_neg (by simpa using hne)
  rw [hbuild, hentry, hnodes.nodes, show checked.defects = final.1.defects from hdefects]

/-- A graph is accepted exactly when it has nodes, no step finds a defect and the program has none. -/
theorem build_ok_iff (graph : Graph) :
    let assembled := graph.assemble names registry
    let final := assembled.declaredNodes.foldl Building.addTask (assembled, [])
    (∃ result, graph.build names registry = .ok result) ↔ graph.nodes ≠ [] ∧
      final.1.defects = [] ∧
        (Program.mk graph.name assembled.entry assembled.nodes final.2).defects = [] := by
  intro assembled final
  by_cases hempty : graph.nodes = []
  · simp [build, hempty]
  · rw [build_eq hempty, and_iff_right hempty, ← addDefects_eq_nil_iff]
    cases addDefects final.1.defects
      (Program.mk graph.name assembled.entry assembled.nodes final.2).defects with
    | nil => simp
    | cons defect defects => simp

/-- The names of the tasks of the program are those that the graph gives, without the empty one. -/
theorem Building.Mirrors.taskNames_filter {graph : Graph} {building : Building}
    (h : Building.Mirrors names registry graph.nodes building) :
    building.declaredNodes.filterMap (Building.definedTask? ·.kind) =
      (graph.taskNames names).filter (· != "") := by
  have hkinds : (building.declaredNodes.map (some ·.kind)).filterMap
      (·.bind Building.definedTask?) =
        (graph.nodes.map (·.kind? names registry)).filterMap (·.bind Building.definedTask?) := by
    rw [h.kinds]
  rw [List.filterMap_map, List.filterMap_map] at hkinds
  rw [taskNames, List.filterMap_filter, List.filter_filterMap]
  refine Eq.trans hkinds (List.filterMap_congr fun node hnode => ?_)
  obtain ⟨built, -, -, hkind⟩ := h.built node hnode
  by_cases hdefine : names.resolve node.kind = "task.define"
  · have hsettings : node.kind? names registry =
        some (.taskDefine (node.coerced Kind.TaskDefine.record)) :=
      Node.kind?_eq_taskDefine_iff.2 ⟨hdefine, rfl⟩
    simp [hdefine, hsettings, Building.definedTask?, Building.taskName?_eq_filter]
  · have hnone : Building.definedTask? built.kind = none := by
      unfold Building.definedTask?
      split
      · next settings hsettings =>
        rw [hsettings] at hkind
        exact absurd (Node.kind?_eq_taskDefine_iff.1 hkind).1 hdefine
      · rfl
    simp [hdefine, hkind, hnone]

/-- All tasks of the program have names exactly when the nodes that define them give names. -/
theorem Building.Mirrors.named_iff {graph : Graph} {building : Building}
    (h : Building.Mirrors names registry graph.nodes building) :
    (∀ built ∈ building.declaredNodes, ∀ settings, built.kind = .taskDefine settings →
        (Building.taskName? settings).isSome = true) ↔
      ∀ node ∈ graph.nodes, names.resolve node.kind = "task.define" →
        (Building.taskName? (node.coerced Kind.TaskDefine.record)).isSome = true := by
  refine (h.forall_kind fun kind => ∀ settings, kind = .taskDefine settings →
    (Building.taskName? settings).isSome = true).trans (forall₂_congr fun node _ => ?_)
  constructor
  · intro hkind hdefine
    exact hkind _ (Node.kind?_eq_taskDefine_iff.2 ⟨hdefine, rfl⟩) _ rfl
  · rintro hdefine kind hkind settings rfl
    obtain ⟨hname, rfl⟩ := Node.kind?_eq_taskDefine_iff.1 hkind
    exact hdefine hname

/-- All calls of the program are of known tasks exactly when the nodes that call name them. The empty
name, which stands for a missing one, is not among the names of tasks. -/
theorem Building.Mirrors.calls_iff {graph : Graph} {building : Building}
    (h : Building.Mirrors names registry graph.nodes building) {tasks : List String}
    (htasks : "" ∉ tasks) :
    (∀ built ∈ building.nodes.values, ∀ task, Program.calledTask? built.kind = some task →
        task ∈ tasks) ↔
      ∀ node ∈ graph.nodes, names.resolve node.kind = "task.call" →
        ∃ task, (node.coerced Kind.TaskCall.record).task = some task ∧ task ∈ tasks := by
  simp only [h.values_perm.mem_iff]
  refine (h.forall_kind fun kind => ∀ task, Program.calledTask? kind = some task →
    task ∈ tasks).trans (forall₂_congr fun node _ => ?_)
  constructor
  · intro hkind hcall
    have htask := hkind _ (Node.kind?_eq_taskCall_iff.2 ⟨hcall, rfl⟩) _ rfl
    cases hname : (node.coerced Kind.TaskCall.record).task with
    | none =>
        rw [hname] at htask
        exact absurd htask htasks
    | some task =>
        rw [hname] at htask
        exact ⟨task, rfl, htask⟩
  · intro hcall kind hkind task htask
    cases kind <;> cases htask
    obtain ⟨hname, rfl⟩ := Node.kind?_eq_taskCall_iff.1 hkind
    obtain ⟨task, hsettings, hmem⟩ := hcall hname
    rw [hsettings]
    exact hmem

/-- The empty name is not among the names of tasks, if none is missing. -/
theorem empty_not_mem_taskNames {graph : Graph}
    (hnamed : ∀ node ∈ graph.nodes, names.resolve node.kind = "task.define" →
      ∃ name, (node.coerced Kind.TaskDefine.record).name = some name ∧ Text.trim name ≠ "") :
    "" ∉ graph.taskNames names := by
  intro hmem
  obtain ⟨node, hnode, hname⟩ := List.mem_filterMap.1 hmem
  obtain ⟨hnode, hdefine⟩ := List.mem_filter.1 hnode
  obtain ⟨name, hsome, hne⟩ := hnamed node hnode (by simpa using hdefine)
  rw [hsome] at hname
  exact hne (Option.some.inj hname)

/-- Once nodes and edges stand, there is no defect exactly when there is one start node, all tasks
have names that differ and all calls name one of them. -/
theorem Building.Mirrors.program_iff {graph : Graph} {building : Building}
    (h : Building.Mirrors names registry graph.nodes building) (hnil : building.defects = []) :
    let final := building.declaredNodes.foldl Building.addTask (building, [])
    (final.1.defects = [] ∧
        (Program.mk graph.name building.entry building.nodes final.2).defects = []) ↔
      (graph.nodes.countP fun node => names.resolve node.kind == "start") = 1 ∧
      (∀ node ∈ graph.nodes, names.resolve node.kind = "task.define" →
        ∃ name, (node.coerced Kind.TaskDefine.record).name = some name ∧ Text.trim name ≠ "") ∧
      (graph.taskNames names).Nodup ∧
      ∀ node ∈ graph.nodes, names.resolve node.kind = "task.call" →
        ∃ task, (node.coerced Kind.TaskCall.record).task = some task ∧
          task ∈ graph.taskNames names := by
  intro final
  obtain ⟨-, hdefects, htasks⟩ := Building.foldl_addTask building.declaredNodes (building, [])
  have hnamed : final.1.defects = [] ↔
      ∀ node ∈ graph.nodes, names.resolve node.kind = "task.define" →
        ∃ name, (node.coerced Kind.TaskDefine.record).name = some name ∧ Text.trim name ≠ "" := by
    rw [hdefects, and_iff_right hnil, h.named_iff]
    simp only [Building.taskName?_isSome]
  rw [hnamed, and_left_comm]
  -- With no name missing, no task was passed over and the two lists of names are the same.
  refine and_congr_right fun hnames => ?_
  have hempty := empty_not_mem_taskNames hnames
  have heq : final.2.map (·.name) = graph.taskNames names := by
    refine htasks.trans (h.taskNames_filter.trans (List.filter_eq_self.2 fun name hname => ?_))
    exact bne_iff_ne.2 fun hblank => hempty (hblank ▸ hname)
  rw [Program.defects_eq_nil_iff, h.starts_eq_entry, h.countP_start, heq,
    h.calls_iff hempty]

/-- A graph is accepted exactly when it is well formed. -/
theorem build_accepts_iff_wellFormed (graph : Graph) (names : KindNames)
    (registry : Emission.Registry) :
    (∃ result, graph.build names registry = .ok result) ↔ graph.WellFormed names registry := by
  obtain ⟨hassembled, hmirrors⟩ := assemble_defects graph names registry
  obtain ⟨-, hdefects, -⟩ := Building.foldl_addTask
    (graph.assemble names registry).declaredNodes (graph.assemble names registry, [])
  refine (build_ok_iff graph).trans ⟨?_, ?_⟩
  · rintro ⟨hne, hfinal, hprogram⟩
    have hnil := (hdefects.1 hfinal).1
    obtain ⟨hids, hkinds, hedges⟩ := hassembled.1 hnil
    obtain ⟨hentry, hnamed, htasks, hcalls⟩ :=
      ((hmirrors hnil).program_iff hnil).1 ⟨hfinal, hprogram⟩
    exact ⟨hne, hids, fun node hnode => Node.kind?_isSome.1 (hkinds node hnode), hedges, hentry,
      hnamed, htasks, hcalls⟩
  · intro h
    have hkinds := fun node hnode => Node.kind?_isSome.2 (h.kinds node hnode)
    have hnil := hassembled.2 ⟨h.ids, hkinds, h.edges⟩
    exact ⟨h.nonempty, ((hmirrors hnil).program_iff hnil).2 ⟨h.entry, h.named, h.tasks, h.calls⟩⟩

end TickScript.Graph
