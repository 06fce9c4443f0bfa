import TickScript.Proofs.Graph.Meaning

/-!
# How a graph is wired

`Wired` says of a program that is being built that its nodes are as the edges describe them that have
been added so far. A node begins with the constants of its settings, and every edge of an accepted
graph keeps all nodes wired, whatever it carries; it gives a warning exactly if it takes the place of
another one. So `denotes_of_build` holds of the program when all edges are added.
-/

namespace TickScript.Graph

variable {edges : List Edge} {edge : Edge} {id name : String} {source : SourcePort}

namespace Building

variable {building : Building} {names : KindNames} {registry : Emission.Registry}
  {nodes : List Graph.Node}

/-- Only the node under the id is changed. -/
theorem get?_update {changed : String} {change : TickScript.Node → TickScript.Node} :
    (building.update changed change).nodes.get? id =
      if id = changed then (building.nodes.get? id).map change else building.nodes.get? id := by
  unfold update
  split
  · next old hold =>
    by_cases hid : id = changed
    · subst hid
      simp [hold]
    · rw [Keyed.get?_insert_of_ne hid, if_neg hid]
  · next hnone =>
    by_cases hid : id = changed
    · subst hid
      simp [hnone]
    · rw [if_neg hid]

/-- All nodes of a graph stand in the table, with what the given edges say of them. -/
def Wired (nodes : List Graph.Node) (edges : List Edge) (building : Building) : Prop :=
  ∀ node ∈ nodes, ∃ built, building.nodes.get? node.id = some built ∧ node.Becomes edges built

/-- An edge is added by a change of one node. -/
theorem Wired.update {changed : String} {change : TickScript.Node → TickScript.Node}
    {later : List Edge} (h : Wired nodes edges building)
    (hother : ∀ node built, changed ≠ node.id → Node.Becomes node edges built →
      node.Becomes later built)
    (hchanged : ∀ node built, changed = node.id → Node.Becomes node edges built →
      node.Becomes later (change built)) :
    Wired nodes later (building.update changed change) := by
  intro node hnode
  obtain ⟨built, hbuilt, hbecomes⟩ := h node hnode
  rw [get?_update, hbuilt]
  by_cases hid : changed = node.id
  · exact ⟨change built, by simp [hid], hchanged node built hid hbecomes⟩
  · exact ⟨built, by simp [Ne.symm hid], hother node built hid hbecomes⟩

@[simp] theorem update_warnings {changed : String} {change : TickScript.Node → TickScript.Node} :
    (building.update changed change).warnings = building.warnings := by
  unfold update
  split <;> rfl

theorem connect_nodes (source port target input : String) :
    (building.connect source port target input).nodes =
      (building.update target (·.withInput input (.edge source port))).nodes := by
  unfold connect
  dsimp only
  split <;> rfl

/-- A connection in place of another one is worth a warning. -/
theorem connect_warnings_of_edge {source port target input : String} {built : TickScript.Node}
    (hbuilt : building.nodes.get? target = some built)
    (hinput : ∃ source port, built.inputs.get? input = some (.edge source port)) :
    (building.connect source port target input).warnings =
      building.warnings ++ [Reconnection.warning ⟨target, input, source⟩] := by
  obtain ⟨old, name, hinput⟩ := hinput
  unfold connect
  simp [hbuilt, TickScript.Node.input?, hinput, warn, Reconnection.warning, toString]

/-- A connection in place of a constant or of nothing is not. -/
theorem connect_warnings_of_no_edge {source port target input : String} {built : TickScript.Node}
    (hbuilt : building.nodes.get? target = some built)
    (hinput : ¬ ∃ source port, built.inputs.get? input = some (.edge source port)) :
    (building.connect source port target input).warnings = building.warnings := by
  unfold connect
  simp only [hbuilt, Option.bind_some, TickScript.Node.input?]
  split
  · next old name hold => exact absurd ⟨old, name, hold⟩ hinput
  · exact update_warnings

/-- A state with its warnings after one more edge: the edge is told of all nodes that it concerns, and
there is a warning if it takes the place of another one. -/
structure WiredOn (nodes : List Graph.Node) (edges : List Edge) (edge : Edge)
    (building final : Building) : Prop where
  wired : Wired nodes (edges ++ [edge]) final
  warnings : ∃ more : List Reconnection,
    final.warnings = building.warnings ++ more.map (·.warning) ∧
      ∀ log, Reconnects edges log → Reconnects (edges ++ [edge]) (log ++ more)

/-- An edge that carries flow changes its source. -/
theorem Wired.flow {change : TickScript.Node → TickScript.Node} (h : Wired nodes edges building)
    (hleaves : SourcePort.ofName? edge.sourcePort = some source)
    (henters : TargetPort.ofName? edge.targetPort = some .flow)
    (hchange : ∀ node built, edge.source = node.id → Node.Becomes node edges built →
      node.Becomes (edges ++ [edge]) (change built)) :
    WiredOn nodes edges edge building (building.update edge.source change) := by
  refine ⟨h.update ?_ hchange, [], by simp, fun log hlog => ?_⟩
  · intro node built hid hbecomes
    exact hbecomes.pass hleaves henters (fun hsame => absurd hsame hid) fun _ => rfl
  · rw [List.append_nil]
    exact hlog.pass henters

/-- An edge that carries a value changes its target. -/
theorem Wired.connect {port : String} (h : Wired nodes edges building)
    (hleaves : SourcePort.ofName? edge.sourcePort = some (.data port))
    (henters : TargetPort.ofName? edge.targetPort = some (.data name))
    (htarget : ∃ node ∈ nodes, node.id = edge.target) :
    WiredOn nodes edges edge building (building.connect edge.source port edge.target name) := by
  constructor
  · unfold Wired
    rw [connect_nodes]
    refine h.update (fun node built hid hbecomes => ?_) fun node built hid hbecomes => ?_
    · exact hbecomes.pass hleaves henters (fun _ => ⟨port, rfl⟩) fun hsame => absurd hsame hid
    · exact hbecomes.data hid hleaves henters
  · obtain ⟨node, hnode, hid⟩ := htarget
    obtain ⟨built, hbuilt, hbecomes⟩ := h node hnode
    have hconnected := hbecomes.connected_iff name
    rw [hid] at hbuilt hconnected
    by_cases hnil : connections edges edge.target name = []
    · refine ⟨[], ?_, fun log hlog => ?_⟩
      · rw [connect_warnings_of_no_edge hbuilt fun hedge => hconnected.1 hedge hnil]
        exact (List.append_nil _).symm
      · rw [List.append_nil]
        exact hlog.first henters hnil
    · exact ⟨[⟨edge.target, name, edge.source⟩],
        connect_warnings_of_edge hbuilt (hconnected.2 hnil), fun log hlog =>
          hlog.further henters hnil⟩

/-- An edge between declared nodes is added as a connection. -/
theorem Mirrors.addEdge_eq (h : Mirrors names registry nodes building)
    (hsource : ∃ node ∈ nodes, node.id = edge.source)
    (htarget : ∃ node ∈ nodes, node.id = edge.target) :
    building.addEdge edge = building.addConnection edge := by
  have hdeclared {id : String} (hid : ∃ node ∈ nodes, node.id = id) : id ∈ building.declared := by
    rw [h.declared]
    exact List.mem_map.2 hid
  have hcontains {id : String} (hid : ∃ node ∈ nodes, node.id = id) :
      building.nodes.contains id = true :=
    Keyed.contains_iff_mem_keys.2 (h.keys.mem_iff.2 (hdeclared hid))
  simp [Building.addEdge, hdeclared hsource, hdeclared htarget, hcontains hsource,
    hcontains htarget]

/-- Every edge of a well-formed graph keeps all nodes wired. -/
theorem Wired.addEdge (h : Wired nodes edges building)
    (hmirrors : Mirrors names registry nodes building)
    (hsource : ∃ node ∈ nodes, node.id = edge.source)
    (htarget : ∃ node ∈ nodes, node.id = edge.target)
    (hcarries : edge.CarriesFlow ∨ edge.CarriesData) :
    WiredOn nodes edges edge building (building.addEdge edge) := by
  rw [hmirrors.addEdge_eq hsource htarget, Building.addConnection]
  rw [Edge.carriesFlow_iff, Edge.carriesData_iff] at hcarries
  rcases hcarries with ⟨hleaves | ⟨slot, hleaves⟩, henters⟩ | ⟨⟨port, hleaves⟩, input, henters⟩
  · simp only [hleaves, henters]
    exact h.flow hleaves henters fun node built hid hbecomes => hbecomes.flow hid hleaves henters
  · simp only [hleaves, henters]
    exact h.flow hleaves henters fun node built hid hbecomes => hbecomes.slot hid hleaves henters
  · simp only [hleaves, henters]
    exact h.connect hleaves henters htarget

/-- All edges together. -/
theorem Wired.foldl_addEdge {log : List Reconnection} (h : Wired nodes edges building)
    (hmirrors : Mirrors names registry nodes building) (hlog : Reconnects edges log)
    (later : List Edge) (hedges : ∀ edge ∈ later, (∃ node ∈ nodes, node.id = edge.source) ∧
      (∃ node ∈ nodes, node.id = edge.target) ∧ (edge.CarriesFlow ∨ edge.CarriesData)) :
    let final := later.foldl Building.addEdge building
    Wired nodes (edges ++ later) final ∧ ∃ more : List Reconnection,
      final.warnings = building.warnings ++ more.map (·.warning) ∧
        Reconnects (edges ++ later) (log ++ more) := by
  induction later generalizing building edges log with
  | nil => exact ⟨by simpa using h, [], by simp, by simpa using hlog⟩
  | cons edge later ih =>
      obtain ⟨⟨hsource, htarget, hcarries⟩, hrest⟩ := List.forall_mem_cons.1 hedges
      obtain ⟨hwired, more, hmore, hlogged⟩ := h.addEdge hmirrors hsource htarget hcarries
      obtain ⟨hfinal, rest, hlater, hall⟩ :=
        ih hwired (hmirrors.addEdge edge) (hlogged log hlog) hrest
      rw [List.append_assoc, List.singleton_append] at hfinal hall
      refine ⟨hfinal, more ++ rest, ?_, ?_⟩
      · rw [List.foldl_cons, hlater, hmore, List.map_append, List.append_assoc]
      · rw [← List.append_assoc]
        exact hall

/-! ## Nodes before the edges -/

/-- The constants of the settings are found under their names. -/
theorem get?_splitSettings (node : Graph.Node) (input : String) :
    (splitSettings node.settings).1.get? input = (node.constant? input).map .literal := by
  unfold Node.constant?
  cases node.settings with
  | object members =>
      rw [Json.Value.get?]
      simp only [splitSettings]
      cases members.lookup "inputs" with
      | none => rfl
      | some inputs =>
          cases inputs with
          | object inputs =>
              dsimp only
              rw [Keyed.get?_ofList, ← List.map_reverse,
                lookup_map_snd (fun value => Port.literal (.ofValue value)), Option.map_map]
              rfl
          | _ => rfl
  | _ => rfl

/-- A node that is added has the constants of its settings and no edges. -/
theorem Wired.addNode {node : Graph.Node} {kind : Kind} (h : Wired nodes [] building)
    (hmirrors : Mirrors names registry nodes building) (hnew : node.id ∉ building.declared)
    (hkind : node.kind? names registry = some kind) :
    Wired (nodes ++ [node]) [] (addNode names registry building node) := by
  obtain ⟨warnings, heq⟩ := addNode_eq hnew hkind
  rw [heq]
  intro other hother
  rcases List.mem_append.1 hother with hother | hother
  · have hne : other.id ≠ node.id := by
      intro hsame
      exact hnew (hmirrors.declared ▸ hsame ▸ List.mem_map_of_mem hother)
    rw [Keyed.get?_insert_of_ne hne]
    exact h other hother
  · obtain rfl := List.mem_singleton.1 hother
    exact ⟨_, Keyed.get?_insert_self, rfl, fun _ => rfl, get?_splitSettings other⟩

/-- All nodes together. -/
theorem Wired.foldl_addNode {before : List Graph.Node} (h : Wired before [] building)
    (hmirrors : Mirrors names registry before building) (nodes : List Graph.Node)
    (hids : ((before ++ nodes).map (·.id)).Nodup)
    (hkinds : ∀ node ∈ nodes, (node.kind? names registry).isSome = true) :
    Wired (before ++ nodes) [] (nodes.foldl (Building.addNode names registry) building) := by
  induction nodes generalizing building before with
  | nil => simpa using h
  | cons node nodes ih =>
      obtain ⟨hkind, hrest⟩ := List.forall_mem_cons.1 hkinds
      obtain ⟨kind, hkind⟩ := Option.isSome_iff_exists.1 hkind
      have hnew : node.id ∉ building.declared := by
        rw [hmirrors.declared]
        intro hmem
        rw [List.map_append, List.nodup_append] at hids
        exact hids.2.2 _ hmem _ (List.mem_map_of_mem List.mem_cons_self) rfl
      rw [List.append_cons] at hids ⊢
      exact ih (h.addNode hmirrors hnew hkind) (hmirrors.addNode hnew hkind) hids hrest

/-! ## Other warnings -/

/-- Steps that warn of nothing but what is allowed add only such warnings. -/
theorem foldl_warnings {σ α : Type} (view : σ → Building) {step : σ → α → σ}
    {Allowed : Diagnostic → Prop} (h : ∀ state item, ∃ more,
      (view (step state item)).warnings = (view state).warnings ++ more ∧
        ∀ warning ∈ more, Allowed warning) (items : List α) (state : σ) :
    ∃ more, (view (items.foldl step state)).warnings = (view state).warnings ++ more ∧
      ∀ warning ∈ more, Allowed warning := by
  induction items generalizing state with
  | nil => exact ⟨[], by simp, by simp⟩
  | cons item items ih =>
      obtain ⟨first, hfirst, hallowed⟩ := h state item
      obtain ⟨rest, hrest, hothers⟩ := ih (step state item)
      refine ⟨first ++ rest, ?_, List.forall_mem_append.2 ⟨hallowed, hothers⟩⟩
      rw [List.foldl_cons, hrest, hfirst, List.append_assoc]

/-- Settings that do not fit are no reconnection. -/
theorem addNode_warnings (building : Building) (node : Graph.Node) :
    ∃ more, (addNode names registry building node).warnings = building.warnings ++ more ∧
      ∀ warning ∈ more, ¬ IsReconnection warning := by
  have hresolve (settings : Json.Value) : ∀ message ∈ (resolveKind names registry node settings).2,
      ¬ IsReconnection ⟨some node.id, message⟩ := by
    intro message hmessage
    unfold resolveKind at hmessage
    dsimp only at hmessage
    split at hmessage
    · cases hmessage
    · rw [Option.mem_some_iff] at hmessage
      rintro ⟨reconnection, htext⟩
      have hchars := congrArg String.toList (hmessage.trans htext)
      simp [Reconnection.warning, toString, String.toList_append] at hchars
    · split at hmessage <;> cases hmessage
  unfold addNode
  dsimp only
  split
  · exact ⟨[], by simp [reject], by simp⟩
  · cases hresolved : resolveKind names registry node (splitSettings node.settings).2 with
    | mk kind warning =>
        have hallowed := hresolve (splitSettings node.settings).2
        rw [hresolved] at hallowed
        cases warning with
        | none => cases kind <;> exact ⟨[], by simp [reject], by simp⟩
        | some message =>
            have hmessage := hallowed message rfl
            cases kind <;>
              exact ⟨[⟨some node.id, message⟩], by simp [reject, warn], by simpa using hmessage⟩

/-- Several entries of a body are no reconnection. -/
theorem addTask_warnings (state : Building × List Task) (node : TickScript.Node) :
    ∃ more, (addTask state node).1.warnings = state.1.warnings ++ more ∧
      ∀ warning ∈ more, ¬ IsReconnection warning := by
  obtain ⟨building, tasks⟩ := state
  cases hkind : node.kind with
  | taskDefine settings =>
      simp only [addTask, hkind]
      cases taskName? settings with
      | none => exact ⟨[], by simp [reject], by simp⟩
      | some name =>
          dsimp only
          split
          · refine ⟨_, rfl, ?_⟩
            simp only [List.mem_singleton, forall_eq]
            rintro ⟨reconnection, htext⟩
            have hchars := congrArg String.toList htext
            simp [Reconnection.warning, toString, String.toList_append] at hchars
          · exact ⟨[], by simp, by simp⟩
  | _ =>
      simp only [addTask, hkind]
      exact ⟨[], by simp, by simp⟩

/-- Inputs that nothing is given for are no reconnections. -/
theorem checkInputs_warnings (building : Building) (node : TickScript.Node) :
    ∃ more, (building.checkInputs node).warnings = building.warnings ++ more ∧
      ∀ warning ∈ more, ¬ IsReconnection warning := by
  refine foldl_warnings (fun building => building) (fun building input => ⟨_, rfl, ?_⟩) _ building
  simp only [List.mem_singleton, forall_eq]
  rintro ⟨reconnection, htext⟩
  -- One text ends with a quote and the other with a word.
  have hlast := congrArg (fun text : String => text.toList.reverse.head?) htext
  simp [Reconnection.warning, toString, String.toList_append] at hlast

/-! ## Tasks -/

/-- The task that a node of the program defines, if it has a name. -/
def declaredTask? (node : TickScript.Node) : Option Task :=
  match node.kind with
  | .taskDefine settings => (taskName? settings).map fun name =>
      ⟨name, settings.params, (bodyEntries node).head?, node.id⟩
  | _ => none

theorem addTask_tasks (state : Building × List Task) (node : TickScript.Node) :
    (addTask state node).2 = state.2 ++ (declaredTask? node).toList := by
  obtain ⟨building, tasks⟩ := state
  cases hkind : node.kind with
  | taskDefine settings =>
      simp only [addTask, declaredTask?, hkind]
      cases taskName? settings <;> simp
  | _ => simp [addTask, declaredTask?, hkind]

/-- The tasks are those that the nodes define, in their order. -/
theorem foldl_addTask_tasks (nodes : List TickScript.Node) (state : Building × List Task) :
    (nodes.foldl addTask state).2 = state.2 ++ nodes.filterMap declaredTask? := by
  induction nodes generalizing state with
  | nil => simp
  | cons node nodes ih =>
      rw [List.foldl_cons, ih, addTask_tasks, List.append_assoc]
      cases hdeclared : declaredTask? node <;> simp [hdeclared]

/-- A node of the program defines the task of its node of the graph. -/
theorem declaredTask?_eq {node : Graph.Node} {built : TickScript.Node} (hid : built.id = node.id)
    (hkind : node.kind? names registry = some built.kind) (hbecomes : node.Becomes edges built)
    (hnamed : ∀ settings, built.kind = .taskDefine settings → (taskName? settings).isSome = true) :
    declaredTask? built =
      if names.resolve node.kind == "task.define" then some (node.task edges) else none := by
  by_cases hdefine : names.resolve node.kind = "task.define"
  · have hsettings : built.kind = .taskDefine (node.coerced Kind.TaskDefine.record) :=
      Option.some.inj (hkind.symm.trans (Node.kind?_eq_taskDefine_iff.2 ⟨hdefine, rfl⟩))
    have hsome := hnamed _ hsettings
    have hname := taskName?_eq_map hsome
    rw [hname, Option.isSome_map, Option.isSome_iff_exists] at hsome
    obtain ⟨name, hname'⟩ := hsome
    simp [declaredTask?, hsettings, hname, hname', hdefine, Node.task, bodyEntries, hid,
      hbecomes.outputs, hbecomes.slot_eq]
  · have hnone : declaredTask? built = none := by
      unfold declaredTask?
      split
      · next settings hsettings =>
        rw [hsettings] at hkind
        exact absurd (Node.kind?_eq_taskDefine_iff.1 hkind).1 hdefine
      · rfl
    simp [hdefine, hnone]

/-- The tasks of the program are those that the graph defines. -/
theorem Mirrors.tasks_eq (h : Mirrors names registry nodes building)
    (hwired : Wired nodes edges building)
    (hnamed : ∀ built ∈ building.declaredNodes, ∀ settings, built.kind = .taskDefine settings →
      (taskName? settings).isSome = true) :
    building.declaredNodes.filterMap declaredTask? =
      (nodes.filter fun node => names.resolve node.kind == "task.define").map (·.task edges) := by
  rw [← List.filterMap_eq_map, List.filterMap_filter, declaredNodes, h.declared,
    List.filterMap_filterMap, List.filterMap_map]
  refine List.filterMap_congr fun node hnode => ?_
  obtain ⟨built, hbuilt, hid, hkind⟩ := h.built node hnode
  obtain ⟨built', hbuilt', hbecomes⟩ := hwired node hnode
  obtain rfl : built = built' := Option.some.inj (hbuilt.symm.trans hbuilt')
  have hmem : built ∈ building.declaredNodes := by
    refine List.mem_filterMap.2 ⟨node.id, ?_, hbuilt⟩
    rw [h.declared]
    exact List.mem_map_of_mem hnode
  rw [Function.comp_apply, hbuilt, Option.bind_some]
  exact declaredTask?_eq hid hkind hbecomes (hnamed built hmem)

end Building

/-! ## The program of an accepted graph -/

variable {graph : Graph} {names : KindNames} {registry : Emission.Registry} {program : Program}
  {warnings : List Diagnostic}

/-- What an accepted graph was made into. -/
theorem build_eq_ok (h : graph.build names registry = .ok (program, warnings)) :
    let assembled := graph.assemble names registry
    let final := assembled.declaredNodes.foldl Building.addTask (assembled, [])
    final.1.defects = [] ∧ program.defects = [] ∧
      program = ⟨graph.name, assembled.entry, assembled.nodes, final.2⟩ ∧
      warnings = (final.1.declaredNodes.foldl Building.checkInputs final.1).warnings := by
  intro assembled final
  by_cases hempty : graph.nodes = []
  · simp [build, hempty] at h
  · rw [build_eq hempty] at h
    split at h
    · next hdefects =>
      obtain ⟨hfinal, hprogram⟩ := addDefects_eq_nil_iff.1 hdefects
      cases h
      exact ⟨hfinal, hprogram, rfl, rfl⟩
    · cases h

/-- The assembled nodes and edges of an accepted graph. -/
theorem assemble_wired (h : (graph.assemble names registry).defects = []) :
    Building.Wired graph.nodes graph.edges (graph.assemble names registry) ∧
      ∃ log : List Reconnection, (graph.assemble names registry).warnings =
          (graph.nodes.foldl (Building.addNode names registry) {}).warnings ++
            log.map (·.warning) ∧
        Reconnects graph.edges log := by
  obtain ⟨hassembled, -⟩ := assemble_defects graph names registry
  obtain ⟨hids, hkinds, hedges⟩ := hassembled.1 h
  have hempty : Building.Mirrors names registry [] {} := ⟨rfl, .refl _, by simp⟩
  have hnodes : (graph.nodes.foldl (Building.addNode names registry) {}).defects = [] :=
    Building.nil_of_foldl (fun _ => Building.prefix_addEdge) h
  have hmirrors := (Building.foldl_addNode hempty graph.nodes).2 hnodes
  have hwired : Building.Wired graph.nodes [] (graph.nodes.foldl (Building.addNode names registry) {}) :=
    Building.Wired.foldl_addNode (fun node hnode => absurd hnode List.not_mem_nil) hempty graph.nodes
      hids hkinds
  exact hwired.foldl_addEdge hmirrors (fun _ _ => rfl : Reconnects [] []) graph.edges hedges

/-- The program of an accepted graph is what the graph says. -/
theorem denotes_of_build (h : graph.build names registry = .ok (program, warnings)) :
    graph.Denotes names registry program := by
  obtain ⟨hfinal, -, rfl, -⟩ := build_eq_ok h
  obtain ⟨-, hdefects, -⟩ := Building.foldl_addTask
    (graph.assemble names registry).declaredNodes (graph.assemble names registry, [])
  obtain ⟨hnil, hnamed⟩ := hdefects.1 hfinal
  obtain ⟨hassembled, hmirrors⟩ := assemble_defects graph names registry
  have hmirrors := hmirrors hnil
  obtain ⟨hwired, -⟩ := assemble_wired hnil
  refine ⟨rfl, (hassembled.1 hnil).1, hmirrors.declared ▸ hmirrors.keys, ?_, ?_⟩
  · intro node hnode
    obtain ⟨built, hbuilt, hid, hkind⟩ := hmirrors.built node hnode
    obtain ⟨other, hother, hbecomes⟩ := hwired node hnode
    obtain rfl : built = other := Option.some.inj (hbuilt.symm.trans hother)
    exact ⟨built, hbuilt, hid, hkind, hbecomes⟩
  · exact (Building.foldl_addTask_tasks _ _).trans (hmirrors.tasks_eq hwired hnamed)

/-- The warnings of an accepted graph tell of every connection in place of another one. -/
theorem reconnects_of_build (h : graph.build names registry = .ok (program, warnings)) :
    ∃ (before : List Diagnostic) (log : List Reconnection) (after : List Diagnostic),
      warnings = before ++ log.map (·.warning) ++ after ∧
      (∀ warning ∈ before ++ after, ¬ IsReconnection warning) ∧ Reconnects graph.edges log := by
  obtain ⟨hfinal, -, -, rfl⟩ := build_eq_ok h
  obtain ⟨-, hdefects, -⟩ := Building.foldl_addTask
    (graph.assemble names registry).declaredNodes (graph.assemble names registry, [])
  obtain ⟨-, log, hassembled, hlog⟩ := assemble_wired (hdefects.1 hfinal).1
  obtain ⟨before, hnodes, hbefore⟩ := Building.foldl_warnings (fun building => building)
    (@Building.addNode_warnings names registry) graph.nodes {}
  obtain ⟨tasks, htasks, hafter⟩ := Building.foldl_warnings Prod.fst Building.addTask_warnings
    (graph.assemble names registry).declaredNodes (graph.assemble names registry, [])
  obtain ⟨inputs, hinputs, hlast⟩ := Building.foldl_warnings (fun building => building)
    Building.checkInputs_warnings
    ((graph.assemble names registry).declaredNodes.foldl Building.addTask
      (graph.assemble names registry, [])).1.declaredNodes
    ((graph.assemble names registry).declaredNodes.foldl Building.addTask
      (graph.assemble names registry, [])).1
  refine ⟨before, log, tasks ++ inputs, ?_, ?_, hlog⟩
  · rw [hinputs, htasks, hassembled, hnodes]
    simp only [List.nil_append, List.append_assoc]
  · simp only [List.forall_mem_append]
    exact ⟨hbefore, hafter, hlast⟩

/-- The program of an accepted graph has the nodes, outputs, slots, inputs and tasks that the graph
declares, and for every input there is one warning for each connection after the first. -/
theorem accepted_program_is_declared (graph : Graph) (names : KindNames)
    (registry : Emission.Registry) (program : Program) (warnings : List Diagnostic)
    (h : graph.build names registry = .ok (program, warnings)) :
    graph.Denotes names registry program ∧
      ∃ (before : List Diagnostic) (log : List Reconnection) (after : List Diagnostic),
        warnings = before ++ log.map (·.warning) ++ after ∧
        (∀ warning ∈ before ++ after, ¬ IsReconnection warning) ∧
        Reconnects graph.edges log ∧
        ∀ target input, log.countP (·.isOf target input) =
          (connections graph.edges target input).length - 1 := by
  obtain ⟨before, log, after, hwarnings, hother, hlog⟩ := reconnects_of_build h
  refine ⟨denotes_of_build h, before, log, after, hwarnings, hother, hlog, fun target input => ?_⟩
  have hlength := congrArg List.length (hlog target input)
  simpa [List.countP_eq_length_filter] using hlength

/-- A graph with repeated flow and slot edges, an input that is connected twice although its settings
give a constant, and a task. -/
def crossedWires : Graph where
  name := "crossed"
  nodes := [
    { id := "start", kind := "start" },
    { id := "first", kind := "query.search" },
    { id := "second", kind := "query.search" },
    { id := "pick", kind := "query.best",
      settings := .object [("inputs", .object [("list", .text "[]"), ("origin", .text "here")])] },
    { id := "job", kind := "task.define", settings := .object [("name", .text " refill ")] }]
  edges := [
    .flow "start" "second", .flow "start" "first", .flow "start" "second",
    .data "first" "pick" "list", .slot "job" "body" "first", .flow "second" "pick",
    .data "second" "pick" "list", .slot "job" "body" "second", .slot "job" "body" "first"]

/-- The repeats are gone, the last connection stands and the one before it is worth a warning. -/
theorem crossedWires_declared : ∃ program warnings,
    crossedWires.build .empty .empty = .ok (program, warnings) ∧
      (∃ start, program.nodes.get? "start" = some start ∧ start.outputs = ["second", "first"]) ∧
      (∃ pick, program.nodes.get? "pick" = some pick ∧
        pick.inputs.get? "list" = some (.edge "second" "value")) ∧
      program.tasks.map (fun task => (task.name, task.entry)) = [("refill", some "first")] ∧
      ∃ (before : List Diagnostic) (log : List Reconnection) (after : List Diagnostic),
        warnings = before ++ log.map (·.warning) ++ after ∧
        log.countP (·.isOf "pick" "list") = 1 := by
  have hok : (crossedWires.build .empty .empty).isOk = true := by decide +kernel
  cases hbuild : crossedWires.build .empty .empty with
  | error rejection =>
      rw [hbuild] at hok
      cases hok
  | ok result =>
      obtain ⟨program, warnings⟩ := result
      obtain ⟨hdenotes, before, log, after, hwarnings, -, -, hcount⟩ :=
        accepted_program_is_declared crossedWires .empty .empty program warnings hbuild
      have hnode (node : Graph.Node) (hnode : node ∈ crossedWires.nodes) :
          ∃ built, program.nodes.get? node.id = some built ∧
            node.Becomes crossedWires.edges built := by
        obtain ⟨built, hbuilt, -, -, hbecomes⟩ := hdenotes.nodes node hnode
        exact ⟨built, hbuilt, hbecomes⟩
      refine ⟨program, warnings, rfl, ?_, ?_, ?_, before, log, after, hwarnings, ?_⟩
      · obtain ⟨start, hstart, hbecomes⟩ := hnode _ (List.mem_cons_self ..)
        exact ⟨start, hstart, hbecomes.outputs.trans (by decide +kernel)⟩
      · obtain ⟨pick, hpick, hbecomes⟩ := hnode _ (List.mem_of_getElem? (i := 3) rfl)
        obtain ⟨name, hname, hinput⟩ := hbecomes.inputs "list"
        have hvalue : "data:" ++ "value" = "data:" ++ name := hname
        obtain rfl : "value" = name := (String.append_right_inj _).1 hvalue
        exact ⟨pick, hpick, hinput⟩
      · rw [hdenotes.tasks]
        decide +kernel
      · rw [hcount]
        decide +kernel

end TickScript.Graph
