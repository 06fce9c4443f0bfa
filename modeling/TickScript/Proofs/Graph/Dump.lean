import TickScript.Proofs.Graph.Closed
import TickScript.Proofs.Settings.Shapes

/-!
# Programs that are written and read again

A program can be written as a data value and read again. All that is in the program of a graph comes
from the settings of its nodes, which are proper values: they are in key order and all their numbers
can be held by a data file. So the program is restored, with null for every setting that was undefined
(`dump_reads_back`). The only obstacle are the presets of spawns.
-/

namespace TickScript

open TickScript.Settings TickScript.Settings.Codec

/-! ## Ports -/

namespace Port

variable {port : Port} {again : Origin}

/-- A port is an edge, or its constant was given as a data value. -/
def IsGiven : Port → Prop
  | .edge _ _ => True
  | .literal constant => ∃ data : Json.Value, data.isProper = true ∧ constant = .ofValue data

theorem IsGiven.restores (h : port.IsGiven) : codec.Restores again id port := by
  cases port with
  | edge source name =>
      have hport : compare "fromNodeId" "type" = .lt := by decide
      have hname : compare "port" "fromNodeId" = .gt := by decide
      have htype : compare "port" "type" = .lt := by decide
      have hsorted : (codec.write (.edge source name)).sorted = .object
          [("fromNodeId", .text source), ("port", .text name), ("type", .text "edge")] := by
        change Json.Value.ofMembers
          [("type", .text "edge"), ("fromNodeId", .text source), ("port", .text name)] = _
        simp [Json.Value.ofMembers, insertEntry, hport, hname, htype]
      unfold Codec.Restores
      rw [hsorted]
      rfl
  | literal constant =>
      obtain ⟨data, hproper, rfl⟩ := h
      have horder : compare "value" "type" = .gt := by decide
      have hsorted : (codec.write (.literal (.ofValue data))).sorted = .object
          [("type", .text "literal"), ("value", (Literal.ofValue data).toValue.sorted)] := by
        change Json.Value.ofMembers
          [("type", .text "literal"), ("value", (Literal.ofValue data).toValue.sorted)] = _
        simp [Json.Value.ofMembers, insertEntry, horder]
      unfold Codec.Restores
      rw [hsorted]
      change Except.ok (Port.literal (.ofValue (Literal.ofValue data).toValue.sorted)) = _
      rw [Literal.ofValue_sorted hproper]
      rfl

end Port

/-! ## Nodes, tasks and programs -/

/-- What a node has become when it is written and read again. -/
def Node.settled (node : Node) : Node := { node with kind := node.kind.settled }

namespace Program

/-- What a program has become when it is written and read again. -/
def settled (program : Program) : Program :=
  { program with nodes := program.nodes.mapValues Node.settled }

/-- Whether a node of a program is a spawn with presets. -/
def hasPresets (program : Program) : Bool :=
  program.nodes.values.any fun node => node.kind.hasPresets

/-- The kind of a node. -/
def kindPart : Settings.Part Node :=
  ⟨Kind, Kind.codec, (·.kind), fun node kind => { node with kind }, Kind.settled⟩

/-- The parts of a node. -/
def nodeParts : List (Settings.Part Node) := [
  ⟨String, .text, (·.id), fun node id => { node with id }, id⟩,
  kindPart,
  ⟨Keyed String Port, .keyed .text Port.codec, (·.inputs),
    fun node inputs => { node with inputs }, id⟩,
  ⟨List String, .list .text, (·.outputs), fun node outputs => { node with outputs }, id⟩,
  ⟨Keyed String (List String), .keyed .text (.list .text), (·.slots),
    fun node slots => { node with slots }, id⟩]

theorem made_node : Node.record.Made nodeParts := by
  refine ⟨?_, by decide, by simp [nodeParts, kindPart, Part.apart_iff]⟩
  have hstart : Kind.start.IsRead := Kind.isRead_blank List.mem_cons_self
  exact .cons (Field.handles_required (fun _ _ => rfl) fun _ => rfl) <|
    .cons (Field.handles_required (fun _ _ => rfl) fun _ => hstart.restores rfl) <|
    .cons (Field.handles_defaulted (fun _ _ => rfl) fun _ => rfl) <|
    .cons (Field.handles_defaulted (fun _ _ => rfl) fun _ => rfl) <|
    .cons (Field.handles_defaulted (fun _ _ => rfl) fun _ => rfl) .nil

/-- The parts of a task. -/
def taskParts : List (Settings.Part Task) := [
  ⟨String, .text, (·.name), fun task name => { task with name }, id⟩,
  ⟨List Kind.TaskParam, .list Kind.TaskParam.record.codec, (·.params),
    fun task params => { task with params }, id⟩,
  ⟨Option String, .optional .text, (·.entry), fun task entry => { task with entry }, id⟩,
  ⟨String, .text, (·.defineNode), fun task defineNode => { task with defineNode }, id⟩]

theorem made_task : Task.record.Made taskParts := by
  refine ⟨?_, by decide, by simp [taskParts, Part.apart_iff]⟩
  exact .cons (Field.handles_required (fun _ _ => rfl) fun _ => rfl) <|
    .cons (Field.handles_required (fun _ _ => rfl) fun _ => rfl) <|
    .cons (Field.handles_required (fun _ _ => rfl) fun _ => rfl) <|
    .cons (Field.handles_required (fun _ _ => rfl) fun _ => rfl) .nil

/-- The nodes of a program. -/
def nodesPart : Settings.Part Program :=
  ⟨NodeTable, .keyed .text Node.record.codec, (·.nodes), fun program nodes => { program with nodes },
    Keyed.mapValues Node.settled⟩

/-- The parts of a program. -/
def parts : List (Settings.Part Program) := [
  ⟨String, .text, (·.fileId), fun program fileId => { program with fileId }, id⟩,
  ⟨String, .text, (·.entry), fun program entry => { program with entry }, id⟩,
  nodesPart,
  ⟨List Task, .list Task.record.codec, (·.tasks), fun program tasks => { program with tasks }, id⟩]

theorem made_program : record.Made parts := by
  refine ⟨?_, by decide, by simp [parts, nodesPart, Part.apart_iff]⟩
  exact .cons (Field.handles_required (fun _ _ => rfl) fun _ => rfl) <|
    .cons (Field.handles_required (fun _ _ => rfl) fun _ => rfl) <|
    .cons (Field.handles_required (fun _ _ => rfl) fun _ => rfl) <|
    .cons (Field.handles_defaulted (fun _ _ => rfl) fun _ => rfl) .nil

variable {program : Program} {node : Node} {task : Task} {again : Origin}

/-- All parts of a node but its kind are restored. -/
theorem eq_kindPart_or_restored (hinputs : ∀ entry ∈ node.inputs.entries, entry.2.IsGiven) :
    ∀ part ∈ nodeParts, part = kindPart ∨ part.Restored again node := by
  simp only [nodeParts, List.forall_mem_cons]
  exact ⟨.inr rfl, .inl trivial,
    .inr (.keyed_id Key.faithful_text fun entry hentry => (hinputs entry hentry).restores),
    .inr (.list_id fun _ _ => rfl),
    .inr (.keyed_id Key.faithful_text fun _ _ => .list_id fun _ _ => rfl), List.forall_mem_nil _⟩

theorem restores_node (hinputs : ∀ entry ∈ node.inputs.entries, entry.2.IsGiven)
    (hkind : Kind.codec.Restores again Kind.settled node.kind) :
    Node.record.codec.Restores again Node.settled node := by
  unfold Codec.Restores
  rw [made_node.read_restored fun part hpart => ?_]
  · rfl
  · rcases eq_kindPart_or_restored hinputs part hpart with rfl | hrestored
    · exact hkind
    · exact hrestored

theorem refuses_node (hinputs : ∀ entry ∈ node.inputs.entries, entry.2.IsGiven)
    (hkind : Kind.codec.Refuses again node.kind) : Node.record.codec.Refuses again node := by
  refine made_node.refuses (fun part hpart => ?_) ⟨kindPart, .tail _ (.head _), hkind⟩
  rcases eq_kindPart_or_restored hinputs part hpart with rfl | hrestored
  · exact .inr hkind
  · exact .inl hrestored

theorem restores_task
    (hparams : (Codec.list Kind.TaskParam.record.codec).Restores again id task.params) :
    Task.record.codec.Restores again id task := by
  unfold Codec.Restores
  rw [made_task.read_restored]
  · rfl
  · simp only [taskParts, List.forall_mem_cons]
    have hentry : (Codec.optional .text).Restores again id task.entry := by
      cases task.entry <;> rfl
    exact ⟨rfl, hparams, hentry, rfl, List.forall_mem_nil _⟩

/-- The kinds, constants and parameters of a program were read from proper values. -/
structure IsGiven (program : Program) : Prop where
  kinds : ∀ node ∈ program.nodes.values, node.kind.IsRead
  inputs : ∀ node ∈ program.nodes.values, ∀ entry ∈ node.inputs.entries, entry.2.IsGiven
  params : ∀ task ∈ program.tasks, ∀ again,
    (Codec.list Kind.TaskParam.record.codec).Restores again id task.params

namespace IsGiven

variable (h : program.IsGiven)

include h

/-- All parts of a program but its nodes are restored. -/
theorem eq_nodesPart_or_restored :
    ∀ part ∈ parts, part = nodesPart ∨ part.Restored again program := by
  simp only [parts, List.forall_mem_cons]
  exact ⟨.inr rfl, .inr rfl, .inl trivial,
    .inr (.list_id fun task htask => restores_task (h.params task htask _)), List.forall_mem_nil _⟩

theorem restores_of_clean (hnode : node ∈ program.nodes.values)
    (hclean : node.kind.hasPresets = false) : Node.record.codec.Restores again Node.settled node :=
  restores_node (h.inputs node hnode) ((h.kinds node hnode).restores hclean)

/-- A program without presets is restored. -/
theorem restores (hpresets : program.hasPresets = false) :
    record.codec.Restores again settled program := by
  unfold Codec.Restores
  rw [made_program.read_restored fun part hpart => ?_]
  · rfl
  · rcases h.eq_nodesPart_or_restored part hpart with rfl | hrestored
    · refine Restores.keyed Key.faithful_text fun entry hentry => ?_
      have hnode : entry.2 ∈ program.nodes.values := List.mem_map_of_mem hentry
      exact h.restores_of_clean hnode (by simpa using List.any_eq_false.1 hpresets entry.2 hnode)
    · exact hrestored

/-- A program with presets is refused. -/
theorem refuses (hpresets : program.hasPresets = true) : record.codec.Refuses again program := by
  have hrefuses {entry : String × Node} (hentry : entry ∈ program.nodes.entries)
      (hsome : entry.2.kind.hasPresets = true) : Node.record.codec.Refuses again entry.2 := by
    have hnode : entry.2 ∈ program.nodes.values := List.mem_map_of_mem hentry
    exact refuses_node (h.inputs _ hnode) ((h.kinds _ hnode).refuses hsome)
  have hnodes : nodesPart.codec.Refuses again (nodesPart.get program) := by
    refine @Refuses.keyed _ _ _ _ _ _ _ Node.settled _ _ Key.faithful_text (fun entry hentry => ?_) ?_
    · cases hsome : entry.2.kind.hasPresets with
      | true => exact .inr (hrefuses hentry hsome)
      | false => exact .inl (h.restores_of_clean (List.mem_map_of_mem hentry) hsome)
    · obtain ⟨node, hnode, hsome⟩ := List.any_eq_true.1 hpresets
      obtain ⟨entry, hentry, rfl⟩ := List.mem_map.1 hnode
      exact ⟨entry, hentry, hrefuses hentry hsome⟩
  refine made_program.refuses (fun part hpart => ?_) ⟨nodesPart, .tail _ (.tail _ (.head _)), hnodes⟩
  rcases h.eq_nodesPart_or_restored part hpart with rfl | hrestored
  · exact .inr hnodes
  · exact .inl hrestored

end IsGiven

end Program

/-! ## The settings of a graph -/

namespace Graph

theorem isProper_splitSettings {settings : Json.Value} (h : settings.isProper = true) :
    (splitSettings settings).2.isProper = true := by
  cases settings with
  | null => rfl
  | object members =>
      obtain ⟨horder, hproper⟩ := Json.Value.isProper_object_iff.1 h
      refine Json.Value.isProper_object_iff.2 ⟨horder.filter _, fun member hmember => ?_⟩
      exact hproper member (List.mem_of_mem_filter hmember)
  | _ => exact h

namespace Node

variable {node : Graph.Node} {names : KindNames} {registry : Emission.Registry} {kind : Kind}
  {input : String} {constant : Literal}

/-- A constant of proper settings was given as a proper value. -/
theorem isGiven_constant (hproper : node.settings.isProper = true)
    (h : node.constant? input = some constant) : (Port.literal constant).IsGiven := by
  unfold constant? at h
  split at h
  · next inputs hinputs =>
    obtain ⟨data, hdata, rfl⟩ := Option.map_eq_some_iff.1 h
    obtain ⟨before, after, hlist, -⟩ := List.lookup_eq_some_iff.1 hdata
    have hgiven := Json.Value.isProper_of_get? hproper hinputs
    have hmem : (input, data) ∈ inputs := List.mem_reverse.1 (hlist ▸ List.mem_append_cons_self)
    exact ⟨data, (Json.Value.isProper_object_iff.1 hgiven).2 _ hmem, rfl⟩
  · cases h

/-- The kind of a node is read from its settings, or has its defaults. -/
theorem isRead_kind (hproper : node.settings.isProper = true)
    (h : node.kind? names registry = some kind) : kind.IsRead := by
  have hsettings := isProper_splitSettings hproper
  cases hshape : Kind.shape? (names.resolve node.kind) with
  | some shape =>
      have hmem : shape ∈ Kind.shapes := List.mem_of_find?_eq_some hshape
      rw [kind?_of_shape hshape, Option.some.injEq] at h
      subst h
      split
      · next hread => exact ⟨shape, List.mem_append_left _ hmem, .direct, _, hsettings, hread⟩
      · exact Kind.isRead_blank hmem
  | none =>
      rw [kind?_of_no_shape hshape] at h
      split at h
      · cases h
        exact Kind.isRead_custom hsettings _
      · cases h

end Node

/-- The parameters of a task are restored. -/
theorem restores_params {node : Graph.Node} (hproper : node.settings.isProper = true) (edges : List Edge)
    (again : Origin) :
    (Codec.list Kind.TaskParam.record.codec).Restores again id (node.task edges).params := by
  change (Codec.list Kind.TaskParam.record.codec).Restores again id
    (node.coerced Kind.TaskDefine.record).params
  unfold Node.coerced
  split
  · next settings hread =>
    exact Kind.TaskDefine.restores_params (isProper_splitSettings hproper) hread again
  · rfl

variable {graph : Graph} {names : KindNames} {registry : Emission.Registry} {program : Program}

/-- All that is in the program of a graph was read from its settings. -/
theorem Denotes.isGiven (h : graph.Denotes names registry program)
    (hproper : ∀ node ∈ graph.nodes, node.settings.isProper = true) : program.IsGiven := by
  constructor
  · intro built hbuilt
    obtain ⟨node, hnode, -, hkind, -⟩ := h.exists_node hbuilt
    exact Node.isRead_kind (hproper node hnode) hkind
  · intro built hbuilt entry hentry
    obtain ⟨node, hnode, -, hbecomes⟩ := h.of_mem_values hbuilt
    have hfed := hbecomes.inputs entry.1
    rw [Keyed.get?_of_mem hentry] at hfed
    unfold Node.FedBy at hfed
    split at hfed
    · obtain ⟨name, -, hport⟩ := hfed
      rw [Option.some.inj hport]
      trivial
    · obtain ⟨constant, hconstant, hport⟩ := Option.map_eq_some_iff.1 hfed.symm
      rw [← hport]
      exact Node.isGiven_constant (hproper node hnode) hconstant
  · intro task htask again
    obtain ⟨node, hnode, rfl⟩ := h.of_mem_tasks htask
    exact restores_params (hproper node hnode) graph.edges again

/-- The program of an accepted graph is read again from what was written of it, with null for every
setting that was undefined, if it has no presets. If it has some, reading stops at a level, which is a
number but stands as a key. -/
theorem dump_reads_back (graph : Graph) (names : KindNames) (registry : Emission.Registry)
    (program : Program) (warnings : List Diagnostic)
    (hproper : ∀ node ∈ graph.nodes, node.settings.isProper = true)
    (h : graph.build names registry = .ok (program, warnings)) :
    (program.hasPresets = false →
      Program.record.codec.read .direct (Program.record.codec.write program).sorted =
        .ok program.settled) ∧
    (program.hasPresets = true → ∃ level : Nat,
      Program.record.codec.read .direct (Program.record.codec.write program).sorted =
        .error (.wrongType (.text (Nat.repr level)) .unsigned32)) := by
  have hgiven := (denotes_of_build h).isGiven hproper
  refine ⟨fun hclean => hgiven.restores hclean, fun hpresets => ?_⟩
  have hrefuses : Program.record.codec.Refuses .direct program := hgiven.refuses hpresets
  obtain ⟨failure, ⟨level, rfl⟩, hfails⟩ := hrefuses
  exact ⟨level, hfails⟩

/-- A graph with a filter and a call that leave settings undefined, a spawn under a name of the user, a
constant input and a task whose parameter has a default. -/
def stockedRoom : Graph where
  name := "stocked"
  nodes := [
    { id := "start", kind := "start" },
    { id := "find", kind := "query.search",
      settings := .object [("filters", .array [.object [("field", .text "energy")]])] },
    { id := "hire", kind := "hire",
      settings := .object [("maxParts", .number (.integer 3)), ("presets", .object [])] },
    { id := "pay", kind := "action.transfer",
      settings := .object [("inputs", .object [("target", .text "home")])] },
    { id := "job", kind := "task.define",
      settings := .object [("name", .text "refill"),
        ("params", .array [.object [("default", .array [.null]), ("key", .text "room")]])] },
    { id := "call", kind := "task.call", settings := .object [("task", .text "refill")] }]
  edges := [.flow "start" "find", .flow "find" "hire", .flow "hire" "call", .slot "job" "body" "pay"]

/-- A name of the user for spawns. -/
def hireNames : KindNames := .define .empty "hire" "structure.spawn"

/-- The arguments of the call were undefined and are null when the program is read again. -/
theorem stockedRoom_read_back : ∃ program warnings,
    (∀ node ∈ stockedRoom.nodes, node.settings.isProper = true) ∧
      stockedRoom.build hireNames .empty = .ok (program, warnings) ∧ program.hasPresets = false ∧
        (program.node? "call").map (·.kind == .taskCall ⟨some "refill", .undefined⟩) = some true ∧
          ∃ restored,
            Program.record.codec.read .direct (Program.record.codec.write program).sorted =
              .ok restored ∧
            (restored.node? "call").map (·.kind == .taskCall ⟨some "refill", .null⟩) = some true := by
  have hproper : ∀ node ∈ stockedRoom.nodes, node.settings.isProper = true := by decide
  have hfacts : (stockedRoom.build hireNames .empty).toOption.map (fun result =>
      (result.1.hasPresets,
        (result.1.node? "call").map (·.kind == .taskCall ⟨some "refill", .undefined⟩),
        (result.1.settled.node? "call").map (·.kind == .taskCall ⟨some "refill", .null⟩))) =
      some (false, some true, some true) := by
    decide +kernel
  cases hbuild : stockedRoom.build hireNames .empty with
  | error rejection =>
      rw [hbuild] at hfacts
      cases hfacts
  | ok result =>
      obtain ⟨program, warnings⟩ := result
      rw [hbuild] at hfacts
      have hfacts := Prod.mk.inj (Option.some.inj hfacts)
      have hcalls := Prod.mk.inj hfacts.2
      have hback := (dump_reads_back stockedRoom hireNames .empty program warnings hproper hbuild).1
      exact ⟨program, warnings, hproper, rfl, hfacts.1, hcalls.1, program.settled, hback hfacts.1,
        hcalls.2⟩

/-- A graph with a spawn that has one preset, which is empty. -/
def garrison : Graph where
  name := "garrison"
  nodes := [
    { id := "start", kind := "start" },
    { id := "spawn", kind := "structure.spawn",
      settings := .object [("presets", .object [("1", .array [])])] }]
  edges := [.flow "start" "spawn"]

/-- The program of a graph with presets is not read again. -/
theorem garrison_not_read_back : ∃ program warnings,
    (∀ node ∈ garrison.nodes, node.settings.isProper = true) ∧
      garrison.build .empty .empty = .ok (program, warnings) ∧
        ∀ restored, Program.record.codec.read .direct (Program.record.codec.write program).sorted ≠
          .ok restored := by
  have hproper : ∀ node ∈ garrison.nodes, node.settings.isProper = true := by decide
  have hpresets : (garrison.build .empty .empty).toOption.map (·.1.hasPresets) = some true := by
    decide +kernel
  cases hbuild : garrison.build .empty .empty with
  | error rejection =>
      rw [hbuild] at hpresets
      cases hpresets
  | ok result =>
      obtain ⟨program, warnings⟩ := result
      rw [hbuild] at hpresets
      have hgiven := (denotes_of_build hbuild).isGiven hproper
      have hrefuses : Program.record.codec.Refuses .direct program :=
        hgiven.refuses (Option.some.inj hpresets)
      obtain ⟨failure, -, hfails⟩ := hrefuses
      refine ⟨program, warnings, hproper, rfl, fun restored hread => ?_⟩
      rw [hfails] at hread
      cases hread

end Graph

end TickScript
