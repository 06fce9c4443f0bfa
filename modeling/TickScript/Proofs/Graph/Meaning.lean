import TickScript.Proofs.Graph.Acceptance

/-!
# What the program of a graph says

`Denotes` describes the program of a graph by its nodes and edges alone: the outputs and slots of a
node are the targets of its edges, in their order and without repeats, an input is the last edge into
it or a constant of the settings, and the tasks are the nodes that define them. The lemmas here say
what one more edge changes in that description.
-/

namespace TickScript.Graph

/-! ## Nodes and edges as a reader takes them -/

/-- The targets of the edges of a sort in the order of the edges, each where it comes first. -/
def targets (edges : List Edge) (sort : Edge → Bool) : List String :=
  ((edges.filter sort).map (·.target)).eraseDups

/-- The nodes that follow a node at its flow output. -/
def flowTargets (edges : List Edge) (id : String) : List String :=
  targets edges fun edge =>
    edge.source = id ∧ (edge.sourcePort = "flow" ∨ edge.sourcePort = "out")

/-- The nodes at which a slot of a node begins. -/
def slotTargets (edges : List Edge) (id slot : String) : List String :=
  targets edges fun edge => edge.source = id ∧ edge.sourcePort = "slot:" ++ slot

/-- The edges that carry values to an input of a node. -/
def connections (edges : List Edge) (id input : String) : List Edge :=
  edges.filter fun edge => edge.target = id ∧ edge.targetPort = "data:" ++ input

namespace Node

/-- The constant that the settings of a node give for an input, the last one of its name. -/
def constant? (node : Graph.Node) (input : String) : Option Literal :=
  match node.settings.get? "inputs" with
  | some (.object inputs) => (inputs.reverse.lookup input).map Literal.ofValue
  | _ => none

/-- Where an input of a node comes from, given the edges into it: the last edge, or else the constant
of the settings, or else nowhere. -/
def FedBy (node : Graph.Node) (connections : List Edge) (input : String) (port : Option Port) : Prop :=
  match connections.getLast? with
  | some edge => ∃ name, edge.sourcePort = "data:" ++ name ∧ port = some (.edge edge.source name)
  | none => port = (node.constant? input).map .literal

/-- A node of the program has the outputs, slots and inputs that edges and settings give it. -/
structure Becomes (node : Graph.Node) (edges : List Edge) (built : TickScript.Node) : Prop where
  outputs : built.outputs = flowTargets edges node.id
  slots : ∀ slot, built.slots.get? slot =
    if slotTargets edges node.id slot = [] then none else some (slotTargets edges node.id slot)
  inputs : ∀ input, node.FedBy (connections edges node.id input) input (built.inputs.get? input)

/-- The task that a node defines. Its body begins at the flow output or else at the slot `body`. -/
def task (node : Graph.Node) (edges : List Edge) : Task where
  name := Text.trim ((node.coerced Kind.TaskDefine.record).name.getD "")
  params := (node.coerced Kind.TaskDefine.record).params
  entry := (flowTargets edges node.id ++ slotTargets edges node.id "body").head?
  defineNode := node.id

end Node

/-- A program has one node for each node of a graph, under its id, and the tasks that the graph
defines, in their order. -/
structure Denotes (graph : Graph) (names : KindNames) (registry : Emission.Registry)
    (program : Program) : Prop where
  fileId : program.fileId = graph.name
  ids : (graph.nodes.map (·.id)).Nodup
  keys : program.nodes.keys.Perm (graph.nodes.map (·.id))
  nodes : ∀ node ∈ graph.nodes, ∃ built, program.nodes.get? node.id = some built ∧
    built.id = node.id ∧ node.kind? names registry = some built.kind ∧
      node.Becomes graph.edges built
  tasks : program.tasks =
    (graph.nodes.filter fun node => names.resolve node.kind == "task.define").map
      (·.task graph.edges)

/-- A connection of an input in place of an earlier one. -/
structure Reconnection where
  target : String
  input : String
  source : String

namespace Reconnection

/-- The warning about a connection in place of an earlier one. -/
def warning (reconnection : Reconnection) : Diagnostic :=
  ⟨some reconnection.target,
    "input '" ++ reconnection.input ++ "' has more than one connection; using the one from '" ++
      reconnection.source ++ "'"⟩

/-- Whether the connection is of an input of a node. -/
def isOf (target input : String) (reconnection : Reconnection) : Bool :=
  reconnection.target == target && reconnection.input == input

end Reconnection

/-- A diagnostic that tells of a connection in place of an earlier one. -/
def IsReconnection (diagnostic : Diagnostic) : Prop :=
  ∃ reconnection : Reconnection, diagnostic.message = reconnection.warning.message

/-- Reconnections are those of edges: for each input there is one for every connection after the
first, in the order of the edges. -/
def Reconnects (edges : List Edge) (reconnections : List Reconnection) : Prop :=
  ∀ target input, (reconnections.filter (·.isOf target input)).map (·.source) =
    ((connections edges target input).map (·.source)).tail

/-! ## One more edge -/

variable {edges : List Edge} {edge : Edge} {id name : String} {source : SourcePort}
  {target : TargetPort}

/-- An item behind a list without its repeats is added unless it is there already. -/
theorem eraseDups_append_singleton (items : List String) (item : String) :
    (items ++ [item]).eraseDups = Building.addOnce items.eraseDups item := by
  have hmem : items.eraseDups.contains item = items.contains item := by
    rw [Bool.eq_iff_iff, List.contains_iff_mem, List.contains_iff_mem, List.mem_eraseDups]
  rw [List.eraseDups_append, Building.addOnce, hmem]
  cases hold : items.contains item with
  | true =>
      have hnone : [item].removeAll items = [] := by simpa [List.removeAll] using hold
      simp [hnone]
  | false =>
      have hsame : [item].removeAll items = [item] := by simpa [List.removeAll] using hold
      rw [hsame, List.eraseDups_cons]
      simp

theorem Building.addOnce_ne_nil (items : List String) (item : String) :
    addOnce items item ≠ [] := by
  unfold addOnce
  split
  · next hold => exact List.ne_nil_of_mem (List.contains_iff_mem.1 hold)
  · simp

/-- The target of one more edge is added if the edge is of the sort. -/
theorem targets_append (sort : Edge → Bool) : targets (edges ++ [edge]) sort =
    if sort edge then Building.addOnce (targets edges sort) edge.target else targets edges sort := by
  unfold targets
  rw [List.filter_append, List.map_append]
  cases hsort : sort edge with
  | false => simp [hsort]
  | true => simp [hsort, eraseDups_append_singleton]

/-- The names of the flow output. -/
theorem flow_iff_of_source (h : SourcePort.ofName? edge.sourcePort = some source) :
    edge.sourcePort = "flow" ∨ edge.sourcePort = "out" ↔ source = .flow := by
  have hnamed : SourcePort.ofName? edge.sourcePort = some .flow ↔
      SourcePort.IsNamed .flow edge.sourcePort := SourcePort.ofName?_eq_some
  rw [h, Option.some.injEq] at hnamed
  exact hnamed.symm

/-- The name of a slot. -/
theorem slot_iff_of_source (h : SourcePort.ofName? edge.sourcePort = some source) :
    edge.sourcePort = "slot:" ++ name ↔ source = .slot name := by
  have hnamed := SourcePort.ofName?_eq_some.1 h
  cases source with
  | flow =>
      refine iff_of_false (fun hslot => ?_) (by simp)
      have hchars := congrArg String.toList hslot
      rcases hnamed with hport | hport <;> simp [hport, String.toList_append] at hchars
  | slot slot => simp [hnamed.2]
  | data port => simpa [hnamed.2] using (slot_ne_data name port).symm

/-- The name of an input. -/
theorem data_iff_of_target (h : TargetPort.ofName? edge.targetPort = some target) :
    edge.targetPort = "data:" ++ name ↔ target = .data name := by
  have hnamed := TargetPort.ofName?_eq_some.1 h
  cases target with
  | flow =>
      refine iff_of_false (fun hinput => ?_) (by simp)
      have hchars := congrArg String.toList hinput
      rcases hnamed with hport | hport <;> simp [hport, String.toList_append] at hchars
  | data port => simp [hnamed.2]

theorem flowTargets_append (h : SourcePort.ofName? edge.sourcePort = some source) :
    flowTargets (edges ++ [edge]) id =
      if edge.source = id ∧ source = .flow then
        Building.addOnce (flowTargets edges id) edge.target
      else flowTargets edges id := by
  rw [flowTargets, targets_append]
  simp only [decide_eq_true_eq, flow_iff_of_source h]
  rfl

theorem slotTargets_append (h : SourcePort.ofName? edge.sourcePort = some source) :
    slotTargets (edges ++ [edge]) id name =
      if edge.source = id ∧ source = .slot name then
        Building.addOnce (slotTargets edges id name) edge.target
      else slotTargets edges id name := by
  rw [slotTargets, targets_append]
  simp only [decide_eq_true_eq, slot_iff_of_source h]
  rfl

theorem connections_append (h : TargetPort.ofName? edge.targetPort = some target) :
    connections (edges ++ [edge]) id name =
      if edge.target = id ∧ target = .data name then connections edges id name ++ [edge]
      else connections edges id name := by
  rw [connections, List.filter_append, List.filter_cons]
  simp only [decide_eq_true_eq, data_iff_of_target h, List.filter_nil]
  split
  · rfl
  · exact List.append_nil _

/-! ## Nodes of the program -/

namespace Node.Becomes

variable {node : Graph.Node} {built : TickScript.Node}

/-- The heads of a slot are the targets of its edges. -/
theorem slot_eq (h : node.Becomes edges built) (slot : String) :
    built.slot slot = slotTargets edges node.id slot := by
  rw [TickScript.Node.slot, h.slots]
  split
  · next hnil => simp [hnil]
  · rfl

/-- An input comes from an edge exactly when there is an edge into it. -/
theorem connected_iff (h : node.Becomes edges built) (input : String) :
    (∃ source port, built.inputs.get? input = some (.edge source port)) ↔
      connections edges node.id input ≠ [] := by
  have hfed := h.inputs input
  unfold FedBy at hfed
  split at hfed
  · next edge hlast =>
    obtain ⟨name, -, hinput⟩ := hfed
    refine iff_of_true ⟨_, name, hinput⟩ fun hnil => ?_
    simp [hnil] at hlast
  · next hlast =>
    refine iff_of_false ?_ (not_not.2 (List.getLast?_eq_none_iff.1 hlast))
    rintro ⟨source, port, hinput⟩
    rw [hfed] at hinput
    cases hconstant : node.constant? input <;> simp [hconstant] at hinput

/-- An edge that is neither an output nor a slot nor an input of a node leaves it as it is. -/
theorem pass (h : node.Becomes edges built)
    (hsource : SourcePort.ofName? edge.sourcePort = some source)
    (htarget : TargetPort.ofName? edge.targetPort = some target)
    (hleaves : edge.source = node.id → ∃ port, source = .data port)
    (henters : edge.target = node.id → target = .flow) : node.Becomes (edges ++ [edge]) built := by
  constructor
  · rw [flowTargets_append hsource, if_neg (by grind), h.outputs]
  · intro slot
    have hslots : slotTargets (edges ++ [edge]) node.id slot = slotTargets edges node.id slot := by
      rw [slotTargets_append hsource, if_neg (by grind)]
    rw [hslots, h.slots]
  · intro input
    rw [connections_append htarget, if_neg (by grind)]
    exact h.inputs input

/-- A flow edge adds an output to its source. -/
theorem flow (h : node.Becomes edges built) (hid : edge.source = node.id)
    (hsource : SourcePort.ofName? edge.sourcePort = some .flow)
    (htarget : TargetPort.ofName? edge.targetPort = some .flow) :
    node.Becomes (edges ++ [edge])
      { built with outputs := Building.addOnce built.outputs edge.target } := by
  constructor
  · rw [flowTargets_append hsource, if_pos ⟨hid, rfl⟩, h.outputs]
  · intro slot
    have hslots : slotTargets (edges ++ [edge]) node.id slot = slotTargets edges node.id slot := by
      rw [slotTargets_append hsource, if_neg (by simp)]
    rw [hslots, h.slots]
  · intro input
    rw [connections_append htarget, if_neg (by simp)]
    exact h.inputs input

/-- A slot edge adds a head to a slot of its source. -/
theorem slot (h : node.Becomes edges built) (hid : edge.source = node.id)
    (hsource : SourcePort.ofName? edge.sourcePort = some (.slot name))
    (htarget : TargetPort.ofName? edge.targetPort = some .flow) :
    node.Becomes (edges ++ [edge])
      { built with
        slots := built.slots.insert name (Building.addOnce (built.slot name) edge.target) } := by
  constructor
  · rw [flowTargets_append hsource, if_neg (by simp), h.outputs]
  · intro other
    by_cases hslot : name = other
    · subst hslot
      have hslots : slotTargets (edges ++ [edge]) node.id name =
          Building.addOnce (slotTargets edges node.id name) edge.target := by
        rw [slotTargets_append hsource, if_pos ⟨hid, rfl⟩]
      rw [hslots, if_neg (Building.addOnce_ne_nil _ _), h.slot_eq, Keyed.get?_insert_self]
    · have hslots : slotTargets (edges ++ [edge]) node.id other =
          slotTargets edges node.id other := by
        rw [slotTargets_append hsource, if_neg (by simp [hslot])]
      rw [hslots, Keyed.get?_insert_of_ne (Ne.symm hslot), h.slots]
  · intro input
    rw [connections_append htarget, if_neg (by simp)]
    exact h.inputs input

/-- A value edge takes the place of what an input of its target came from. -/
theorem data (h : node.Becomes edges built) (hid : edge.target = node.id) {port : String}
    (hsource : SourcePort.ofName? edge.sourcePort = some (.data port))
    (htarget : TargetPort.ofName? edge.targetPort = some (.data name)) :
    node.Becomes (edges ++ [edge]) (built.withInput name (.edge edge.source port)) := by
  constructor
  · rw [flowTargets_append hsource, if_neg (by simp), ← h.outputs]
    rfl
  · intro slot
    have hslots : slotTargets (edges ++ [edge]) node.id slot = slotTargets edges node.id slot := by
      rw [slotTargets_append hsource, if_neg (by simp)]
    rw [hslots, ← h.slots]
    rfl
  · intro other
    rw [connections_append htarget, TickScript.Node.withInput]
    by_cases hinput : name = other
    · subst hinput
      have hport : edge.sourcePort = "data:" ++ port := (SourcePort.ofName?_eq_some.1 hsource).2
      rw [if_pos ⟨hid, rfl⟩, Keyed.get?_insert_self, FedBy, List.getLast?_concat]
      exact ⟨port, hport, rfl⟩
    · rw [if_neg (by simp [hinput]), Keyed.get?_insert_of_ne (Ne.symm hinput)]
      exact h.inputs other

end Node.Becomes

/-! ## Connections in place of others -/

/-- An edge that is not into an input makes no reconnection. -/
theorem Reconnects.pass {log : List Reconnection} (h : Reconnects edges log)
    (htarget : TargetPort.ofName? edge.targetPort = some .flow) :
    Reconnects (edges ++ [edge]) log := by
  intro target input
  rw [connections_append htarget, if_neg (by simp)]
  exact h target input

/-- The first connection of an input makes no reconnection. -/
theorem Reconnects.first {log : List Reconnection} (h : Reconnects edges log)
    (htarget : TargetPort.ofName? edge.targetPort = some (.data name))
    (hnil : connections edges edge.target name = []) : Reconnects (edges ++ [edge]) log := by
  intro target input
  rw [connections_append htarget]
  split
  · next hof =>
    obtain ⟨rfl, hinput⟩ := hof
    cases hinput
    rw [h, hnil]
    rfl
  · exact h target input

/-- Every further connection of an input makes one. -/
theorem Reconnects.further {log : List Reconnection} (h : Reconnects edges log)
    (htarget : TargetPort.ofName? edge.targetPort = some (.data name))
    (hne : connections edges edge.target name ≠ []) :
    Reconnects (edges ++ [edge]) (log ++ [⟨edge.target, name, edge.source⟩]) := by
  intro target input
  rw [connections_append htarget, List.filter_append, List.map_append, h]
  by_cases hof : edge.target = target ∧ name = input
  · obtain ⟨rfl, rfl⟩ := hof
    rw [if_pos ⟨rfl, rfl⟩, List.map_append, List.tail_append_of_ne_nil (by simpa using hne)]
    simp [Reconnection.isOf]
  · rw [if_neg (by simpa using hof)]
    have hother : Reconnection.isOf target input ⟨edge.target, name, edge.source⟩ = false := by
      simpa [Reconnection.isOf] using hof
    simp [hother]

end TickScript.Graph
