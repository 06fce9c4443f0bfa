import Mathlib.Data.List.TakeWhile
import TickScript.Graph.Build

/-!
# Well-formed graphs

`WellFormed` says what a graph has to be for a program to be made of it, in terms of the graph alone.
The lemmas here tie its words to what the steps of the build look at: the kind that a node gets, the
ports that a name stands for and the trimmed name of a task.
-/

namespace TickScript

open TickScript.Settings

namespace Graph

/-- The settings of a node without its constant inputs, read as a record. Settings that do not fit
give the defaults. -/
def Node.coerced {σ : Type} (node : Graph.Node) (record : Record σ) : σ :=
  match record.codec.read .direct (splitSettings node.settings).2 with
  | .ok settings => settings
  | .error _ => record.blank

/-- The trimmed names that the task definitions of a graph give. -/
def taskNames (graph : Graph) (names : KindNames) : List String :=
  (graph.nodes.filter fun node => names.resolve node.kind == "task.define").filterMap fun node =>
    (node.coerced Kind.TaskDefine.record).name.map Text.trim

namespace Edge

/-- Flow leaves a node through its output or a named slot and enters through the flow port. -/
def CarriesFlow (edge : Edge) : Prop :=
  (edge.sourcePort = "flow" ∨ edge.sourcePort = "out" ∨
      ∃ slot, slot ≠ "" ∧ edge.sourcePort = "slot:" ++ slot) ∧
    (edge.targetPort = "flow" ∨ edge.targetPort = "in")

/-- A value leaves a node through a named port and enters at a named input. -/
def CarriesData (edge : Edge) : Prop :=
  (∃ port, port ≠ "" ∧ edge.sourcePort = "data:" ++ port) ∧
    ∃ input, input ≠ "" ∧ edge.targetPort = "data:" ++ input

end Edge

/-- What a graph has to be for a program to be made of it. -/
structure WellFormed (graph : Graph) (names : KindNames) (registry : Emission.Registry) : Prop where
  nonempty : graph.nodes ≠ []
  ids : (graph.nodes.map (·.id)).Nodup
  kinds : ∀ node ∈ graph.nodes, Kind.isBuiltin (names.resolve node.kind) = true ∨
    registry.contains (names.resolve node.kind) = true
  edges : ∀ edge ∈ graph.edges, (∃ node ∈ graph.nodes, node.id = edge.source) ∧
    (∃ node ∈ graph.nodes, node.id = edge.target) ∧ (edge.CarriesFlow ∨ edge.CarriesData)
  entry : (graph.nodes.countP fun node => names.resolve node.kind == "start") = 1
  named : ∀ node ∈ graph.nodes, names.resolve node.kind = "task.define" →
    ∃ name, (node.coerced Kind.TaskDefine.record).name = some name ∧ Text.trim name ≠ ""
  tasks : (graph.taskNames names).Nodup
  calls : ∀ node ∈ graph.nodes, names.resolve node.kind = "task.call" →
    ∃ task, (node.coerced Kind.TaskCall.record).task = some task ∧ task ∈ graph.taskNames names

end Graph

/-! ## Names of tasks -/

namespace Text

/-- Only a text of blanks is empty after trimming. -/
theorem trim_eq_empty_iff {text : String} : trim text = "" ↔ isBlankText text = true := by
  have hchars : trim text = "" ↔ trimChars text.toList = [] := by
    rw [trim, ← String.toList_inj, String.toList_ofList]
    rfl
  rw [hchars, trimChars, isBlankText, List.reverse_eq_nil_iff, List.dropWhile_eq_nil_iff,
    List.all_eq_true]
  simp only [List.mem_reverse]
  refine ⟨fun h => ?_, fun h c hc => h c ((List.dropWhile_sublist _).subset hc)⟩
  -- what is left after the leading blanks begins with a character that is not blank
  have hnil : text.toList.dropWhile isBlank = [] := by
    cases hdropped : text.toList.dropWhile isBlank with
    | nil => rfl
    | cons c rest =>
        have hblank : isBlank c = true := h c (by simp [hdropped])
        have hhead := List.head?_dropWhile_not isBlank text.toList
        simp [hdropped, hblank] at hhead
  exact List.dropWhile_eq_nil_iff.1 hnil

end Text

/-! ## Kinds of nodes -/

namespace Kind

/-- All kinds that a shape makes have its name for a tag. -/
structure Shape.Tagged (shape : Shape) : Prop where
  blank : shape.blank.tag = shape.name
  read : ∀ origin settings kind, shape.read origin settings = .ok kind → kind.tag = shape.name

theorem Shape.of_tagged {σ : Type} {name : String} {record : Record σ} {wrap : σ → Kind}
    (h : ∀ settings, (wrap settings).tag = name) : (Shape.of name record wrap).Tagged := by
  refine ⟨h _, fun origin settings kind hread => ?_⟩
  change wrap <$> record.codec.read origin settings = .ok kind at hread
  cases hcontent : record.codec.read origin settings with
  | error failure =>
      rw [hcontent] at hread
      cases hread
  | ok content =>
      rw [hcontent] at hread
      cases hread
      exact h content

theorem shapes_tagged : ∀ shape ∈ shapes, shape.Tagged := by
  simp only [shapes, List.forall_mem_cons]
  and_intros
  all_goals first | exact Shape.of_tagged fun _ => rfl | exact List.forall_mem_nil _

theorem shape?_isSome {name : String} : (shape? name).isSome = isBuiltin name := by
  unfold shape? isBuiltin builtinNames
  rw [Bool.eq_iff_iff, List.find?_isSome, List.contains_iff_mem, List.mem_map]
  simp

/-- The shape of a name makes only kinds with this name for a tag. -/
theorem shape?_tagged {name : String} {shape : Shape} (h : shape? name = some shape) :
    shape.name = name ∧ shape.Tagged :=
  ⟨by simpa using List.find?_some h, shapes_tagged shape (List.mem_of_find?_eq_some h)⟩

end Kind

namespace Graph.Node

/-- The kind that a node of a graph gets. -/
def kind? (node : Graph.Node) (names : KindNames) (registry : Emission.Registry) : Option Kind :=
  (Building.resolveKind names registry node (splitSettings node.settings).2).1

variable {node : Graph.Node} {names : KindNames} {registry : Emission.Registry} {kind : Kind}

/-- A node whose kind has a shape gets what the shape makes of its settings. -/
theorem kind?_of_shape {shape : Kind.Shape} (h : Kind.shape? (names.resolve node.kind) = some shape) :
    node.kind? names registry = some
      (match shape.read .direct (splitSettings node.settings).2 with
        | .ok kind => kind
        | .error _ => shape.blank) := by
  unfold kind? Building.resolveKind
  simp only [Kind.ofSettings, Kind.withDefaults, h, Option.map_some]
  split <;> simp_all

/-- A node whose kind has no shape gets a custom kind, if the registry has an emitter. -/
theorem kind?_of_no_shape (h : Kind.shape? (names.resolve node.kind) = none) :
    node.kind? names registry =
      if registry.contains (names.resolve node.kind) then
        some (.custom ⟨names.resolve node.kind, (splitSettings node.settings).2⟩)
      else none := by
  unfold kind? Building.resolveKind
  simp only [Kind.ofSettings, h, Option.map_none]
  split <;> rfl

/-- A node gets a kind exactly when its mapped kind is built in or has an emitter. -/
theorem kind?_isSome : (node.kind? names registry).isSome = true ↔
    Kind.isBuiltin (names.resolve node.kind) = true ∨
      registry.contains (names.resolve node.kind) = true := by
  rw [← Kind.shape?_isSome]
  cases hshape : Kind.shape? (names.resolve node.kind) with
  | some shape => simp [kind?_of_shape hshape]
  | none =>
      rw [kind?_of_no_shape hshape]
      split <;> simp_all

/-- The kind that a node gets has the mapped name for a tag, or is custom. -/
theorem tag_of_kind? (h : node.kind? names registry = some kind) :
    kind.tag = names.resolve node.kind ∨
      Kind.isBuiltin (names.resolve node.kind) = false ∧ kind.tag = "custom" := by
  rw [← Kind.shape?_isSome]
  cases hshape : Kind.shape? (names.resolve node.kind) with
  | some shape =>
      obtain ⟨hname, htagged⟩ := Kind.shape?_tagged hshape
      rw [kind?_of_shape hshape, Option.some.injEq] at h
      subst h
      left
      split
      · next hread => rw [htagged.read _ _ _ hread, hname]
      · rw [htagged.blank, hname]
  | none =>
      rw [kind?_of_no_shape hshape] at h
      split at h
      · cases h
        exact .inr ⟨rfl, rfl⟩
      · cases h

/-- A node with a kind has the mapped name of a built-in kind exactly when its tag says so. -/
theorem tag_eq_iff (h : node.kind? names registry = some kind) {name : String}
    (hbuiltin : Kind.isBuiltin name = true) (hcustom : name ≠ "custom") :
    kind.tag = name ↔ names.resolve node.kind = name := by
  rcases tag_of_kind? h with htag | ⟨hother, htag⟩
  · rw [htag]
  · constructor
    · intro hname
      exact absurd (hname.symm.trans htag) hcustom
    · intro hname
      rw [hname, hbuiltin] at hother
      cases hother

/-- The start nodes are those with the mapped kind `start`. -/
theorem isStart_of_kind? (h : node.kind? names registry = some kind) :
    Program.isStart kind = (names.resolve node.kind == "start") := by
  have htag : Program.isStart kind = true ↔ kind.tag = "start" := by
    cases kind <;> simp [Program.isStart, Kind.tag]
  rw [Bool.eq_iff_iff, htag, beq_iff_eq]
  exact tag_eq_iff h (by decide) (by decide)

/-- A node whose settings form a record gets its kind with the record read from them. -/
theorem kind?_of_record {σ : Type} {name : String} {record : Record σ} {wrap : σ → Kind}
    (hshape : Kind.shape? name = some (.of name record wrap)) (h : names.resolve node.kind = name) :
    node.kind? names registry = some (wrap (node.coerced record)) := by
  subst h
  have hread : (Kind.Shape.of (names.resolve node.kind) record wrap).read .direct
      (splitSettings node.settings).2 =
        wrap <$> record.codec.read .direct (splitSettings node.settings).2 := rfl
  rw [kind?_of_shape hshape, hread, coerced]
  cases record.codec.read .direct (splitSettings node.settings).2 <;> rfl

/-- A node gets a kind with a record exactly when its mapped kind is the name of the kind and its
settings give the record. -/
theorem kind?_eq_record_iff {σ : Type} {name : String} {record : Record σ} {wrap : σ → Kind}
    (hshape : Kind.shape? name = some (.of name record wrap))
    (htag : ∀ content, (wrap content).tag = name) (hwrap : Function.Injective wrap)
    (hcustom : name ≠ "custom") {content : σ} :
    node.kind? names registry = some (wrap content) ↔
      names.resolve node.kind = name ∧ node.coerced record = content := by
  have hbuiltin : Kind.isBuiltin name = true := by
    rw [← Kind.shape?_isSome, hshape]
    rfl
  constructor
  · intro h
    have hname := (tag_eq_iff h hbuiltin hcustom).1 (htag content)
    rw [kind?_of_record hshape hname, Option.some.injEq] at h
    exact ⟨hname, hwrap h⟩
  · rintro ⟨hname, rfl⟩
    exact kind?_of_record hshape hname

/-- The task definitions are the nodes with the mapped kind `task.define`. -/
theorem kind?_eq_taskDefine_iff {settings : Kind.TaskDefine} :
    node.kind? names registry = some (.taskDefine settings) ↔
      names.resolve node.kind = "task.define" ∧ node.coerced Kind.TaskDefine.record = settings := by
  have hshape : Kind.shape? "task.define" = some (.of "task.define" Kind.TaskDefine.record .taskDefine) := rfl
  exact kind?_eq_record_iff hshape (fun _ => rfl) (fun _ _ => Kind.taskDefine.inj) (by decide)

/-- The task calls are the nodes with the mapped kind `task.call`. -/
theorem kind?_eq_taskCall_iff {settings : Kind.TaskCall} :
    node.kind? names registry = some (.taskCall settings) ↔
      names.resolve node.kind = "task.call" ∧ node.coerced Kind.TaskCall.record = settings := by
  have hshape : Kind.shape? "task.call" = some (.of "task.call" Kind.TaskCall.record .taskCall) := rfl
  exact kind?_eq_record_iff hshape (fun _ => rfl) (fun _ _ => Kind.taskCall.inj) (by decide)

end Graph.Node

/-! ## Ports of edges -/

namespace Graph

theorem afterLabel?_eq_some {label chars rest : List Char} :
    afterLabel? label chars = some rest ↔ chars = label ++ rest := by
  induction label generalizing chars with
  | nil => simp [afterLabel?]
  | cons expected label ih =>
      cases chars with
      | nil => simp [afterLabel?]
      | cons c chars =>
          by_cases hc : c = expected
          · simp [afterLabel?, hc, ih]
          · simp [afterLabel?, hc]

/-- A labelled name is the label with a name that is not empty behind it. -/
theorem labelled?_eq_some {label port name : String} :
    labelled? label port = some name ↔ name ≠ "" ∧ port = label ++ name := by
  have hport : port = label ++ name ↔ afterLabel? label.toList port.toList = some name.toList := by
    rw [afterLabel?_eq_some, ← String.toList_append, String.toList_inj]
  have hname : name = "" ↔ name.toList = [] := by
    rw [← String.toList_inj]
    rfl
  rw [hport, ne_eq, hname, labelled?]
  split
  · next c rest hrest =>
    rw [hrest, Option.some.injEq, Option.some.injEq, ← String.toList_inj, String.toList_ofList]
    constructor
    · intro h
      exact ⟨by simp [← h], h⟩
    · exact And.right
  · next hnone =>
    simp only [reduceCtorEq, false_iff, not_and]
    intro hne hsome
    obtain ⟨c, rest, hrest⟩ := List.exists_cons_of_ne_nil hne
    exact hnone c rest (hsome.trans (by rw [hrest]))

theorem slot_ne_data (slot port : String) : "slot:" ++ slot ≠ "data:" ++ port := by
  intro h
  have hchars : "slot:".toList ++ slot.toList = "data:".toList ++ port.toList := by
    rw [← String.toList_append, h, String.toList_append]
  exact absurd (List.cons.inj hchars).1 (by decide)

/-- The names of a source port. -/
def SourcePort.IsNamed : SourcePort → String → Prop
  | .flow, port => port = "flow" ∨ port = "out"
  | .slot name, port => name ≠ "" ∧ port = "slot:" ++ name
  | .data name, port => name ≠ "" ∧ port = "data:" ++ name

/-- The names of a target port. -/
def TargetPort.IsNamed : TargetPort → String → Prop
  | .flow, port => port = "flow" ∨ port = "in"
  | .data name, port => name ≠ "" ∧ port = "data:" ++ name

theorem SourcePort.ofName?_eq_some {port : String} {found : SourcePort} :
    ofName? port = some found ↔ found.IsNamed port := by
  unfold ofName?
  split
  · next hflow =>
    cases found with
    | flow => simpa [IsNamed] using hflow
    | slot name =>
        have hnone : labelled? "slot:" port = none := by rcases hflow with rfl | rfl <;> rfl
        simp [IsNamed, ← labelled?_eq_some, hnone]
    | data name =>
        have hnone : labelled? "data:" port = none := by rcases hflow with rfl | rfl <;> rfl
        simp [IsNamed, ← labelled?_eq_some, hnone]
  · next hflow =>
    cases hslot : labelled? "slot:" port with
    | some slot =>
        obtain ⟨hne, rfl⟩ := labelled?_eq_some.1 hslot
        cases found with
        | flow => simpa [IsNamed] using hflow
        | slot name => rw [IsNamed, ← labelled?_eq_some, hslot]; simp
        | data name => simp [IsNamed, slot_ne_data]
    | none =>
        cases found with
        | flow => simpa [IsNamed] using hflow
        | slot name => simp [IsNamed, ← labelled?_eq_some, hslot]
        | data name => simp [IsNamed, ← labelled?_eq_some]

theorem TargetPort.ofName?_eq_some {port : String} {found : TargetPort} :
    ofName? port = some found ↔ found.IsNamed port := by
  unfold ofName?
  split
  · next hflow =>
    cases found with
    | flow => simpa [IsNamed] using hflow
    | data name =>
        have hnone : labelled? "data:" port = none := by rcases hflow with rfl | rfl <;> rfl
        simp [IsNamed, ← labelled?_eq_some, hnone]
  · next hflow =>
    cases found with
    | flow => simpa [IsNamed] using hflow
    | data name => simp [IsNamed, ← labelled?_eq_some]

/-- The edges that carry flow by the ports that their names stand for. -/
theorem Edge.carriesFlow_iff {edge : Edge} : edge.CarriesFlow ↔
    (SourcePort.ofName? edge.sourcePort = some .flow ∨
      ∃ slot, SourcePort.ofName? edge.sourcePort = some (.slot slot)) ∧
    TargetPort.ofName? edge.targetPort = some .flow := by
  simp only [CarriesFlow, SourcePort.ofName?_eq_some, TargetPort.ofName?_eq_some,
    SourcePort.IsNamed, TargetPort.IsNamed, or_assoc]

/-- The edges that carry a value by the ports that their names stand for. -/
theorem Edge.carriesData_iff {edge : Edge} : edge.CarriesData ↔
    (∃ port, SourcePort.ofName? edge.sourcePort = some (.data port)) ∧
    ∃ input, TargetPort.ofName? edge.targetPort = some (.data input) := by
  simp only [CarriesData, SourcePort.ofName?_eq_some, TargetPort.ofName?_eq_some,
    SourcePort.IsNamed, TargetPort.IsNamed]

end Graph

end TickScript
