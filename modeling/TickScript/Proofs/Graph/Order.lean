import TickScript.Proofs.Graph.Closed

/-!
# The order of declarations

`Reordered` says of two graphs that they declare the same nodes and edges and differ only in the
order of declarations that are independent of each other. Such graphs are accepted together and give
one program: what a graph denotes is said in terms that the order does not enter, and it leaves no
choice of the program. Every warning of a build belongs to one node or to one input, so the warnings
are the same up to their order.
-/

namespace TickScript.Graph

/-- Another graph declares the same nodes and edges. It may list them in another order, but the task
definitions, the flow edges of a node, the edges of a slot and the connections of an input stand in
theirs. -/
structure Reordered (names : KindNames) (graph other : Graph) : Prop where
  name : other.name = graph.name
  nodes : other.nodes.Perm graph.nodes
  definitions : (other.nodes.filter fun node => names.resolve node.kind == "task.define") =
    graph.nodes.filter fun node => names.resolve node.kind == "task.define"
  edges : other.edges.Perm graph.edges
  flow : ∀ id, (other.edges.filter fun edge =>
      edge.source = id ∧ (edge.sourcePort = "flow" ∨ edge.sourcePort = "out")) =
    graph.edges.filter fun edge =>
      edge.source = id ∧ (edge.sourcePort = "flow" ∨ edge.sourcePort = "out")
  slots : ∀ id slot, (other.edges.filter fun edge =>
      edge.source = id ∧ edge.sourcePort = "slot:" ++ slot) =
    graph.edges.filter fun edge => edge.source = id ∧ edge.sourcePort = "slot:" ++ slot
  inputs : ∀ id input, connections other.edges id input = connections graph.edges id input

variable {graph other : Graph} {names : KindNames} {registry : Emission.Registry}
  {program first second : Program} {warnings : List Diagnostic} {edges : List Edge}

/-! ## One program -/

/-- The edges into an input leave no choice of where it comes from. -/
theorem Node.FedBy.unique {node : Graph.Node} {connections : List Edge} {input : String}
    {port port' : Option Port} (h : node.FedBy connections input port)
    (h' : node.FedBy connections input port') : port = port' := by
  unfold FedBy at h h'
  cases hlast : connections.getLast? with
  | some edge =>
      simp only [hlast] at h h'
      obtain ⟨name, hname, rfl⟩ := h
      obtain ⟨name', hname', rfl⟩ := h'
      obtain rfl : name = name' := (String.append_right_inj _).1 (hname.symm.trans hname')
      rfl
  | none =>
      simp only [hlast] at h h'
      exact h.trans h'.symm

/-- Edges and settings leave no choice of what a node becomes. -/
theorem Node.Becomes.unique {node : Graph.Node} {built built' : TickScript.Node}
    (h : node.Becomes edges built) (h' : node.Becomes edges built') (hid : built.id = built'.id)
    (hkind : built.kind = built'.kind) : built = built' := by
  have hinputs : built.inputs = built'.inputs :=
    Keyed.ext_get? fun input => (h.inputs input).unique (h'.inputs input)
  have hslots : built.slots = built'.slots :=
    Keyed.ext_get? fun slot => (h.slots slot).trans (h'.slots slot).symm
  have houtputs : built.outputs = built'.outputs := h.outputs.trans h'.outputs.symm
  cases built
  cases built'
  simp_all

/-- A graph leaves no choice of the nodes of its program. -/
theorem Denotes.nodes_eq (h : graph.Denotes names registry first)
    (h' : graph.Denotes names registry second) : first.nodes = second.nodes := by
  apply Keyed.ext_get?
  intro id
  by_cases hid : ∃ node ∈ graph.nodes, node.id = id
  · obtain ⟨node, hnode, rfl⟩ := hid
    obtain ⟨built, hbuilt, hid, hkind, hbecomes⟩ := h.nodes node hnode
    obtain ⟨built', hbuilt', hid', hkind', hbecomes'⟩ := h'.nodes node hnode
    rw [hbuilt, hbuilt', hbecomes.unique hbecomes' (hid.trans hid'.symm)
      (Option.some.inj (hkind.symm.trans hkind'))]
  · -- An id of no node is in neither table.
    have hnone {program : Program} (hdenotes : graph.Denotes names registry program) :
        program.nodes.get? id = none := by
      rw [← Option.not_isSome_iff_eq_none]
      intro hsome
      exact hid (hdenotes.contains_iff.1 hsome)
    rw [hnone h, hnone h']

/-- A graph denotes one program without defects: the nodes settle the entry, as the start node. -/
theorem Denotes.unique (h : graph.Denotes names registry first)
    (h' : graph.Denotes names registry second) (hfirst : first.defects = [])
    (hsecond : second.defects = []) : first = second := by
  have hnodes := h.nodes_eq h'
  have hentry : first.entry = second.entry := by
    have hstarts : first.starts = second.starts := by
      unfold Program.starts
      rw [hnodes]
    rw [(Program.defects_eq_nil_iff.1 hfirst).1, (Program.defects_eq_nil_iff.1 hsecond).1] at hstarts
    exact (List.cons.inj hstarts).1
  have htasks : first.tasks = second.tasks := h.tasks.trans h'.tasks.symm
  have hfileId : first.fileId = second.fileId := h.fileId.trans h'.fileId.symm
  cases first
  cases second
  simp_all

namespace Reordered

theorem flowTargets_eq (h : Reordered names graph other) (id : String) :
    flowTargets other.edges id = flowTargets graph.edges id := by
  unfold flowTargets targets
  rw [h.flow]

theorem slotTargets_eq (h : Reordered names graph other) (id slot : String) :
    slotTargets other.edges id slot = slotTargets graph.edges id slot := by
  unfold slotTargets targets
  rw [h.slots]

/-- A node becomes the same by the edges in either order. -/
theorem becomes_iff (h : Reordered names graph other) {node : Graph.Node}
    {built : TickScript.Node} : node.Becomes other.edges built ↔ node.Becomes graph.edges built := by
  constructor
  · rintro ⟨houtputs, hslots, hinputs⟩
    simp only [h.flowTargets_eq, h.slotTargets_eq, h.inputs] at houtputs hslots hinputs
    exact ⟨houtputs, hslots, hinputs⟩
  · rintro ⟨houtputs, hslots, hinputs⟩
    simp only [← h.flowTargets_eq, ← h.slotTargets_eq, ← h.inputs] at houtputs hslots hinputs
    exact ⟨houtputs, hslots, hinputs⟩

/-- What the graph denotes in one order it denotes in the other. -/
theorem denotes (h : Reordered names graph other) (hother : other.Denotes names registry program) :
    graph.Denotes names registry program := by
  have hids := h.nodes.map fun node => node.id
  have htask : (fun node : Graph.Node => node.task other.edges) = (·.task graph.edges) := by
    funext node
    unfold Node.task
    rw [h.flowTargets_eq, h.slotTargets_eq]
  refine ⟨hother.fileId.trans h.name, hids.nodup_iff.1 hother.ids, hother.keys.trans hids, ?_, ?_⟩
  · intro node hnode
    obtain ⟨built, hbuilt, hid, hkind, hbecomes⟩ := hother.nodes node (h.nodes.mem_iff.2 hnode)
    exact ⟨built, hbuilt, hid, hkind, h.becomes_iff.1 hbecomes⟩
  · rw [hother.tasks, h.definitions, htask]

/-! ## Acceptance -/

theorem taskNames_eq (h : Reordered names graph other) :
    other.taskNames names = graph.taskNames names := by
  unfold taskNames
  rw [h.definitions]

/-- A graph that is accepted in one order is accepted in the other. -/
theorem accepted (h : Reordered names graph other)
    (hok : ∃ result, graph.build names registry = .ok result) :
    ∃ result, other.build names registry = .ok result := by
  obtain ⟨hne, hfinal, hprogram⟩ := (build_ok_iff graph).1 hok
  obtain ⟨hassembled, hmirrors⟩ := assemble_defects graph names registry
  obtain ⟨hassembled', hmirrors'⟩ := assemble_defects other names registry
  obtain ⟨-, hdefects, -⟩ := Building.foldl_addTask
    (graph.assemble names registry).declaredNodes (graph.assemble names registry, [])
  have hnil := (hdefects.1 hfinal).1
  obtain ⟨hids, hkinds, hedges⟩ := hassembled.1 hnil
  obtain ⟨hentry, hnamed, htasks, hcalls⟩ :=
    ((hmirrors hnil).program_iff hnil).1 ⟨hfinal, hprogram⟩
  -- Each condition speaks of all nodes or of all edges, of their number or of the task names.
  have hnil' : (other.assemble names registry).defects = [] := by
    refine hassembled'.2 ⟨(h.nodes.map _).nodup_iff.2 hids, ?_, ?_⟩
    · simpa only [h.nodes.mem_iff] using hkinds
    · simpa only [h.nodes.mem_iff, h.edges.mem_iff] using hedges
  refine (build_ok_iff other).2 ⟨?_, ((hmirrors' hnil').program_iff hnil').2 ⟨?_, ?_, ?_, ?_⟩⟩
  · intro hempty
    exact hne (List.perm_nil.1 (hempty ▸ h.nodes.symm))
  · rw [h.nodes.countP_eq]
    exact hentry
  · simpa only [h.nodes.mem_iff] using hnamed
  · rw [h.taskNames_eq]
    exact htasks
  · simpa only [h.nodes.mem_iff, h.taskNames_eq] using hcalls

end Reordered

/-! ## Warnings -/

deriving instance DecidableEq for Reconnection

/-- A reconnection occurs as often as its source among those of its input. -/
theorem count_reconnection (log : List Reconnection) (reconnection : Reconnection) :
    log.count reconnection = ((log.filter
      (·.isOf reconnection.target reconnection.input)).map (·.source)).count reconnection.source := by
  induction log with
  | nil => rfl
  | cons head log ih =>
      rw [List.count_cons, List.filter_cons, ih]
      by_cases hof : head.isOf reconnection.target reconnection.input = true
      · have hsame : head = reconnection ↔ head.source = reconnection.source := by
          obtain ⟨htarget, hinput⟩ : head.target = reconnection.target ∧
              head.input = reconnection.input := by
            simpa [Reconnection.isOf] using hof
          cases head
          cases reconnection
          simp_all
        rw [if_pos hof, List.map_cons, List.count_cons]
        simp only [beq_iff_eq, hsame]
      · have hne : head ≠ reconnection := by
          rintro rfl
          simp [Reconnection.isOf] at hof
        rw [if_neg hof]
        simp [hne]

/-- The reconnections of the same edges at each input are the same up to their order. -/
theorem Reconnects.perm {edges edges' : List Edge} {log log' : List Reconnection}
    (h : Reconnects edges log) (h' : Reconnects edges' log')
    (hsame : ∀ id input, connections edges id input = connections edges' id input) :
    log.Perm log' := by
  rw [List.perm_iff_count]
  intro reconnection
  rw [count_reconnection, count_reconnection, h, h', hsame]

namespace Building

/-- Steps of which each adds its own warnings, unless it finds a defect, add those of all items. -/
theorem foldl_warnings_eq {σ α : Type} (view : σ → Building) {step : σ → α → σ}
    {more : α → List Diagnostic}
    (hkeep : ∀ state item, (view (step state item)).defects = [] → (view state).defects = [])
    (hstep : ∀ state item, (view (step state item)).defects = [] →
      (view (step state item)).warnings = (view state).warnings ++ more item)
    {items : List α} {state : σ} (h : (view (items.foldl step state)).defects = []) :
    (view state).defects = [] ∧
      (view (items.foldl step state)).warnings = (view state).warnings ++ items.flatMap more := by
  induction items generalizing state with
  | nil => exact ⟨h, by simp⟩
  | cons item items ih =>
      obtain ⟨hnil, hwarnings⟩ := ih h
      refine ⟨hkeep state item hnil, ?_⟩
      rw [List.foldl_cons, hwarnings, hstep state item hnil, List.flatMap_cons, List.append_assoc]

variable {building : Building}

/-- A node that is no defect adds the warnings that it has on its own. -/
theorem addNode_warnings_eq {node : Graph.Node}
    (h : (addNode names registry building node).defects = []) :
    (addNode names registry building node).warnings =
      building.warnings ++ (addNode names registry {} node).warnings := by
  unfold addNode at h ⊢
  split at h
  · exact absurd h (reject_defects _)
  · next hnew =>
    rw [if_neg hnew, if_neg (by simp)]
    cases hresolved : resolveKind names registry node (splitSettings node.settings).2 with
    | mk kind warning => cases kind <;> cases warning <;> simp [hresolved, reject, warn]

/-- A task adds the warnings that it has on its own. -/
theorem addTask_warnings_eq (state : Building × List Task) (node : TickScript.Node) :
    (addTask state node).1.warnings =
      state.1.warnings ++ (addTask ({}, []) node).1.warnings := by
  unfold addTask
  cases node.kind with
  | taskDefine settings =>
      dsimp only
      cases taskName? settings with
      | none => simp [reject]
      | some name =>
          dsimp only
          split <;> simp [warn]
  | _ => simp

theorem checkInputs_defects (building : Building) (node : TickScript.Node) :
    (building.checkInputs node).defects = building.defects :=
  (foldl_checkInputs [node] building).2

/-- A check of inputs adds a warning for every required input that nothing is given for. -/
theorem checkInputs_warnings_append (building : Building) (node : TickScript.Node) :
    (building.checkInputs node).warnings = building.warnings ++
      (node.kind.requiredInputs.filter fun input => !node.inputs.contains input).map fun input =>
        ⟨some node.id, s!"input '{input}' is not connected and has no fallback"⟩ := by
  unfold checkInputs
  generalize (node.kind.requiredInputs.filter fun input => !node.inputs.contains input) = missing
  induction missing generalizing building with
  | nil => simp
  | cons input missing ih =>
      rw [List.foldl_cons, ih]
      simp [warn]

/-- A check of inputs adds the warnings that it has on its own. -/
theorem checkInputs_warnings_eq (building : Building) (node : TickScript.Node) :
    (building.checkInputs node).warnings =
      building.warnings ++ (checkInputs {} node).warnings := by
  rw [checkInputs_warnings_append, checkInputs_warnings_append]
  rfl

end Building

/-- The warnings of a build are those of the nodes, of the reconnections, of the tasks and of the
checked inputs. -/
theorem warnings_of_build (h : graph.build names registry = .ok (program, warnings)) :
    let declared := (graph.nodes.map (·.id)).filterMap program.nodes.get?
    ∃ log : List Reconnection, Reconnects graph.edges log ∧
      warnings = graph.nodes.flatMap (fun node => (Building.addNode names registry {} node).warnings) ++
        log.map (·.warning) ++
        declared.flatMap (fun node => (Building.addTask ({}, []) node).1.warnings) ++
        declared.flatMap (fun node => (Building.checkInputs {} node).warnings) := by
  intro declared
  obtain ⟨hfinal, -, hprogram, rfl⟩ := build_eq_ok h
  obtain ⟨hsame, -, -⟩ := Building.foldl_addTask
    (graph.assemble names registry).declaredNodes (graph.assemble names registry, [])
  obtain ⟨hnil, htasks⟩ := Building.foldl_warnings_eq Prod.fst
    (fun state node hstep => ((Building.addTask_spec state node).2.1.1 hstep).1)
    (fun state node _ => Building.addTask_warnings_eq state node) hfinal
  obtain ⟨-, hchecked⟩ := Building.foldl_warnings_eq (fun building => building)
    (fun building node hstep => (Building.checkInputs_defects building node).symm.trans hstep)
    (fun building node _ => Building.checkInputs_warnings_eq building node)
    ((Building.foldl_checkInputs _ _).2.trans hfinal)
  obtain ⟨-, hnodes⟩ := Building.foldl_warnings_eq (fun building => building)
    (fun building node hstep => List.prefix_nil.1 (hstep ▸ Building.prefix_addNode node))
    (fun building node => Building.addNode_warnings_eq)
    (Building.nil_of_foldl (fun _ => Building.prefix_addEdge) hnil)
  obtain ⟨-, log, hassembled, hlog⟩ := assemble_wired hnil
  have hdeclared : (graph.assemble names registry).declaredNodes = declared := by
    have hmirrors := (assemble_defects graph names registry).2 hnil
    have hsettled : program.nodes = (graph.assemble names registry).nodes := by rw [hprogram]
    rw [Building.declaredNodes, hmirrors.declared, ← hsettled]
  refine ⟨log, hlog, ?_⟩
  rw [hchecked, hsame.declaredNodes_eq, htasks, hassembled, hnodes, hdeclared]
  simp only [List.nil_append]

/-- A graph whose independent declarations are put in another order is accepted with the same program
and the same warnings up to their order, and gives the same script. -/
theorem reordered_graph_compiles_alike (graph other : Graph) (names : KindNames)
    (registry : Emission.Registry) (h : Reordered names graph other) (program : Program)
    (warnings : List Diagnostic) (hbuild : graph.build names registry = .ok (program, warnings)) :
    (∃ warnings', other.build names registry = .ok (program, warnings') ∧
      warnings'.Perm warnings) ∧
    ∃ script script', Compiler.compile ⟨graph, names, registry⟩ = .ok script ∧
      Compiler.compile ⟨other, names, registry⟩ = .ok script' ∧
      script'.fileId = script.fileId ∧ script'.source = script.source ∧
      script'.warnings.Perm script.warnings := by
  obtain ⟨⟨program', warnings'⟩, hbuild'⟩ := h.accepted ⟨_, hbuild⟩
  have hdefects := (build_eq_ok hbuild).2.1
  obtain rfl : program = program' := (denotes_of_build hbuild).unique
    (h.denotes (denotes_of_build hbuild')) hdefects (build_eq_ok hbuild').2.1
  obtain ⟨log, hlog, rfl⟩ := warnings_of_build hbuild
  obtain ⟨log', hlog', rfl⟩ := warnings_of_build hbuild'
  have hdeclared := (h.nodes.map (·.id)).filterMap program.nodes.get?
  have hperm := (((h.nodes.flatMap_right fun node =>
    (Building.addNode names registry {} node).warnings).append
      ((hlog'.perm hlog h.inputs).map (·.warning))).append
      (hdeclared.flatMap_right fun node => (Building.addTask ({}, []) node).1.warnings)).append
      (hdeclared.flatMap_right fun node => (Building.checkInputs {} node).warnings)
  exact ⟨⟨_, hbuild', hperm⟩, _, _, Compiler.compile_of_build hbuild hdefects,
    Compiler.compile_of_build hbuild' hdefects, rfl, rfl, hperm.append_right _⟩

/-- Two runs of edges can change places for a sort of edges that differ in a name from run to run. -/
theorem filter_append_comm_of_ne {front back : List Edge} {sort : Edge → Bool} (key : Edge → String)
    {name : String} (hsort : ∀ edge, sort edge = true → key edge = name)
    (hne : ∀ edge ∈ front, ∀ edge' ∈ back, key edge ≠ key edge') :
    (back ++ front).filter sort = (front ++ back).filter sort := by
  have hnone : front.filter sort = [] ∨ back.filter sort = [] := by
    by_contra hboth
    rw [not_or] at hboth
    obtain ⟨edge, hedge⟩ := List.exists_mem_of_ne_nil _ hboth.1
    obtain ⟨edge', hedge'⟩ := List.exists_mem_of_ne_nil _ hboth.2
    rw [List.mem_filter] at hedge hedge'
    exact hne edge hedge.1 edge' hedge'.1
      ((hsort edge hedge.2).trans (hsort edge' hedge'.2).symm)
  rcases hnone with hnone | hnone <;> simp [hnone]

/-- Three choices, of which only the first is given a list to choose from. -/
def openPicks : Graph where
  name := "picks"
  nodes := [
    { id := "start", kind := "start" }, { id := "search", kind := "query.search" },
    { id := "near", kind := "query.best" }, { id := "far", kind := "query.best" },
    { id := "job", kind := "task.define", settings := .object [("name", .text "refill")] },
    { id := "last", kind := "query.best" }]
  edges := [
    .flow "start" "search", .flow "start" "near", .data "search" "near" "list",
    .flow "near" "far", .slot "job" "body" "last"]

/-- The same graph with its nodes backwards and its last two edges in front. -/
def shuffledPicks : Graph where
  name := openPicks.name
  nodes := openPicks.nodes.reverse
  edges := openPicks.edges.drop 3 ++ openPicks.edges.take 3

/-- The two graphs warn of their nodes in different orders and are otherwise compiled alike. -/
theorem shuffledPicks_compile_alike : ∃ program warnings warnings',
    openPicks.build .empty .empty = .ok (program, warnings) ∧
      shuffledPicks.build .empty .empty = .ok (program, warnings') ∧
      warnings' ≠ warnings ∧ warnings'.Perm warnings ∧
      ∃ script script', Compiler.compile ⟨openPicks, .empty, .empty⟩ = .ok script ∧
        Compiler.compile ⟨shuffledPicks, .empty, .empty⟩ = .ok script' ∧
        script'.source = script.source := by
  have hreordered : Reordered .empty openPicks shuffledPicks := by
    -- The last two edges leave and enter other nodes than those before them.
    have hsources : ∀ edge ∈ openPicks.edges.take 3, ∀ edge' ∈ openPicks.edges.drop 3,
        edge.source ≠ edge'.source := by decide
    have htargets : ∀ edge ∈ openPicks.edges.take 3, ∀ edge' ∈ openPicks.edges.drop 3,
        edge.target ≠ edge'.target := by decide
    refine ⟨rfl, List.reverse_perm _, rfl, List.perm_append_comm, fun id => ?_, fun id slot => ?_,
      fun id input => ?_⟩
    · exact filter_append_comm_of_ne (·.source) (fun edge h => (of_decide_eq_true h).1) hsources
    · exact filter_append_comm_of_ne (·.source) (fun edge h => (of_decide_eq_true h).1) hsources
    · exact filter_append_comm_of_ne (·.target) (fun edge h => (of_decide_eq_true h).1) htargets
  have hdiffer : (openPicks.build .empty .empty).toOption.map (·.2) ≠
      (shuffledPicks.build .empty .empty).toOption.map (·.2) := by
    decide +kernel
  have hok : (openPicks.build .empty .empty).isOk = true := by decide +kernel
  cases hbuild : openPicks.build .empty .empty with
  | error rejection =>
      rw [hbuild] at hok
      cases hok
  | ok result =>
      obtain ⟨program, warnings⟩ := result
      obtain ⟨⟨warnings', hbuild', hperm⟩, script, script', hscript, hscript', -, hsource, -⟩ :=
        reordered_graph_compiles_alike openPicks shuffledPicks .empty .empty hreordered program
          warnings hbuild
      rw [hbuild, hbuild'] at hdiffer
      exact ⟨program, warnings, warnings', rfl, hbuild', fun heq => hdiffer (by rw [heq]), hperm,
        script, script', hscript, hscript', hsource⟩

end TickScript.Graph
