import TickScript.Proofs.Settings.TextRecords
import TickScript.Snapshot

/-!
# Snapshots that are written and read again

A snapshot is written with its fields under their first names and with the data of its nodes as it is.
Whatever text it was read from, the data stood no deeper in it than it does in what is written, and its
objects are in order, so it can be read again (`steady_of_reading`). `ofText_render` concludes that the
text of a snapshot is read as the snapshot, as long as all its numbers are written as integers.
-/

namespace TickScript.Snapshot

open TickScript.Settings
open TickScript.Json (Draft Scan)

/-- How many containers may stand inside each other in the data of a node, which stands in the node, in
the list of nodes and in the snapshot. -/
def dataRoom : Nat := Draft.depthLimit - 3

/-- The data of a node can be read again where it stands. -/
def Node.Steady (node : Node) : Prop := (Draft.ofValue node.data).value dataRoom = .ok node.data

/-! ## What is read -/

/-- Whatever a node is read from, its data can be read again. -/
theorem Node.steady_of_reading {draft : Draft} {node : Node}
    (h : Node.textRecord.reading (dataRoom + 1) draft = .ok node) : node.Steady := by
  have hblank : Node.textRecord.blank.Steady := rfl
  refine TextRecord.reading_keeps hblank ?_ h
  simp only [Node.textRecord, List.forall_mem_cons, List.not_mem_nil, false_implies, implies_true,
    and_true]
  refine ⟨TextField.keeps_required fun _ _ _ _ hnode => hnode,
    TextField.keeps_required fun _ _ _ _ hnode => hnode,
    TextField.keeps_defaulted fun _ _ _ _ hnode => hnode, TextField.keeps_defaulted ?_⟩
  intro draft data hdata node _
  exact Draft.value_ofValue (ofFault_eq_ok_iff.1 hdata)

/-- The data of all nodes can be read again. -/
def Steady (snapshot : Snapshot) : Prop := ∀ node ∈ snapshot.nodes, node.Steady

/-- Whatever a snapshot is read from, the data of its nodes can be read again. -/
theorem steady_of_reading {draft : Draft} {snapshot : Snapshot}
    (h : textRecord.reading (dataRoom + 3) draft = .ok snapshot) : snapshot.Steady := by
  have hblank : textRecord.blank.Steady := List.forall_mem_nil _
  refine TextRecord.reading_keeps hblank ?_ h
  simp only [textRecord, List.forall_mem_cons, List.not_mem_nil, false_implies, implies_true,
    and_true]
  refine ⟨TextField.keeps_defaulted fun _ _ _ _ hnodes => hnodes, TextField.keeps_required ?_,
    TextField.keeps_defaulted fun _ _ _ _ hnodes => hnodes⟩
  intro draft nodes hnodes snapshot _ node hnode
  obtain ⟨item, hitem⟩ := Reading.mem_of_list hnodes node hnode
  exact Node.steady_of_reading hitem

/-! ## What is written -/

theorem Node.distinct_textRecord : Node.textRecord.Distinct where
  nodup := by decide
  found := by
    simp only [Node.textRecord, List.forall_mem_cons, List.not_mem_nil, false_implies, implies_true,
      and_true]
    exact ⟨rfl, rfl, rfl, rfl⟩

theorem Edge.distinct_textRecord : Edge.textRecord.Distinct where
  nodup := by decide
  found := by
    simp only [Edge.textRecord, List.forall_mem_cons, List.not_mem_nil, false_implies, implies_true,
      and_true]
    exact ⟨rfl, rfl, rfl, rfl⟩

theorem distinct_textRecord : textRecord.Distinct where
  nodup := by decide
  found := by
    simp only [textRecord, List.forall_mem_cons, List.not_mem_nil, false_implies, implies_true,
      and_true]
    exact ⟨rfl, rfl, rfl⟩

/-- A node without a position is read as it was written. -/
theorem Node.reading_toValue {node : Node} (hposition : node.position = none)
    (hdata : node.Steady) :
    Node.textRecord.reading (dataRoom + 1) (.ofValue node.toValue) = .ok node := by
  obtain ⟨id, type, position, data⟩ := node
  subst hposition
  have hload : List.Forall₂ (fun field entry => field.load dataRoom entry.1 = .ok entry.2)
      Node.textRecord.fields
      [(.text (.ofText id), fun node => { node with id }),
        (.text (.ofText type), fun node => { node with type }),
        (.null, fun node => { node with position := none }),
        (.ofValue data, fun node => { node with data })] := by
    refine .cons rfl (.cons rfl (.cons rfl (.cons ?_ .nil)))
    exact TextField.load_defaulted (ofFault_eq_ok_iff.2 hdata)
  exact TextRecord.reading_members Node.distinct_textRecord hload

/-- A handle is read as it was written. -/
theorem Edge.reading_optionalText (handle : Option String) (room : Nat) :
    Reading.optional .text room (.ofValue (optionalText handle)) = .ok handle := by
  cases handle <;> rfl

/-- An edge is read as it was written. -/
theorem Edge.reading_toValue (edge : Edge) (room : Nat) :
    Edge.textRecord.reading (room + 1) (.ofValue edge.toValue) = .ok edge := by
  have hload : List.Forall₂ (fun field entry => field.load room entry.1 = .ok entry.2)
      Edge.textRecord.fields
      [(.text (.ofText edge.source), fun record => { record with source := edge.source }),
        (.ofValue (optionalText edge.sourceHandle),
          fun record => { record with sourceHandle := edge.sourceHandle }),
        (.text (.ofText edge.target), fun record => { record with target := edge.target }),
        (.ofValue (optionalText edge.targetHandle),
          fun record => { record with targetHandle := edge.targetHandle })] := by
    refine .cons rfl (.cons ?_ (.cons rfl (.cons ?_ .nil)))
    · exact TextField.load_defaulted (reading_optionalText edge.sourceHandle room)
    · exact TextField.load_defaulted (reading_optionalText edge.targetHandle room)
  exact TextRecord.reading_members Edge.distinct_textRecord hload

/-- A snapshot without positions is read as it was written. -/
theorem reading_toValue {snapshot : Snapshot} (hsteady : snapshot.Steady)
    (hpositions : ∀ node ∈ snapshot.nodes, node.position = none) :
    textRecord.reading (dataRoom + 3) (.ofValue snapshot.toValue) = .ok snapshot := by
  have hnodes : Reading.list Node.textRecord.reading (dataRoom + 2)
      (.ofValue (.array (snapshot.nodes.map (·.toValue)))) = .ok snapshot.nodes :=
    Reading.list_ofValue fun node hnode => node.reading_toValue (hpositions node hnode)
      (hsteady node hnode)
  have hedges : Reading.list Edge.textRecord.reading (dataRoom + 2)
      (.ofValue (.array (snapshot.edges.map (·.toValue)))) = .ok snapshot.edges :=
    Reading.list_ofValue fun edge _ => edge.reading_toValue dataRoom
  have hload : List.Forall₂ (fun field entry => field.load (dataRoom + 2) entry.1 = .ok entry.2)
      textRecord.fields
      [(.text (.ofText snapshot.name), fun record => { record with name := snapshot.name }),
        (.ofValue (.array (snapshot.nodes.map (·.toValue))),
          fun record => { record with nodes := snapshot.nodes }),
        (.ofValue (.array (snapshot.edges.map (·.toValue))),
          fun record => { record with edges := snapshot.edges })] :=
    .cons rfl (.cons (TextField.load_required hnodes) (.cons (TextField.load_defaulted hedges) .nil))
  exact TextRecord.reading_members distinct_textRecord hload

/-- The numbers of a snapshot without positions are those in the data of its nodes. -/
theorem isWhole_toValue {snapshot : Snapshot}
    (h : ∀ node ∈ snapshot.nodes, node.position = none ∧ node.data.isWhole = true) :
    snapshot.toValue.isWhole = true := by
  have hnodes : Json.Value.wholeItems (snapshot.nodes.map (·.toValue)) = true := by
    refine Json.Value.wholeItems_iff.2 (List.forall_mem_map.2 fun node hnode => ?_)
    obtain ⟨hposition, hdata⟩ := h node hnode
    simp [Node.toValue, hposition, Codec.optional, Json.Value.isWhole, Json.Value.wholeMembers, hdata]
  have hedges : Json.Value.wholeItems (snapshot.edges.map (·.toValue)) = true := by
    refine Json.Value.wholeItems_iff.2 (List.forall_mem_map.2 fun edge _ => ?_)
    cases hsource : edge.sourceHandle <;> cases htarget : edge.targetHandle <;>
      simp [Edge.toValue, optionalText, hsource, htarget, Json.Value.isWhole, Json.Value.wholeMembers]
  simp [toValue, Json.Value.isWhole, Json.Value.wholeMembers, hnodes, hedges]

/-- A snapshot that was read from a text is read from the text that is written of it, if its nodes have
no positions and all numbers in their data are integers of 64 bits. -/
theorem ofText_render {text : String} {snapshot : Snapshot} (hread : ofText text = .ok snapshot)
    (hnodes : ∀ node ∈ snapshot.nodes, node.position = none ∧ node.data.isWhole = true) :
    ofText snapshot.render = .ok snapshot := by
  have hsteady : snapshot.Steady := by
    obtain ⟨found, hfound, h⟩ := bind_eq_ok_iff.1 hread
    obtain ⟨_, -, ⟨⟩⟩ := bind_eq_ok_iff.1 h
    exact steady_of_reading hfound
  have hdraft : Draft.read snapshot.render = (.ofValue snapshot.toValue, some []) :=
    Json.read_pretty (isWhole_toValue hnodes)
  have hvalue := reading_toValue hsteady fun node hnode => (hnodes node hnode).1
  rw [ofText, hdraft]
  exact bind_eq_ok_iff.2 ⟨snapshot, hvalue, rfl⟩

/-- A text with another name for a member, a node as a list, escapes and a member that is given
twice. -/
def crowdedText : String :=
  "\x7b\"nodes\":[[\"a\",\"start\"],\x7b\"id\":\"b\\n\",\"kind\":\"log\",\"data\":\x7b\"z\":1.5," ++
  "\"a\":\"\\ud83d\\ude00\",\"z\":[18446744073709551615,-7,-0,\x7b\x7d]\x7d\x7d]," ++
  "\"edges\":[[\"a\",null,\"b\\n\"]]\x7d"

/-- The crowded text has a snapshot, and what is written of it is read as the same snapshot. -/
theorem crowded_reads_back : ∃ snapshot, ofText crowdedText = .ok snapshot ∧
    snapshot.nodes.map (·.id) = ["a", "b\n"] ∧
    (∀ node ∈ snapshot.nodes, node.position = none ∧ node.data.isWhole = true) ∧
    ofText snapshot.render = .ok snapshot := by
  have hcheck : ((ofText crowdedText).toOption.any fun snapshot =>
      decide (snapshot.nodes.map (·.id) = ["a", "b\n"] ∧
        ∀ node ∈ snapshot.nodes, node.position = none ∧ node.data.isWhole = true)) = true := by
    decide +kernel
  cases hread : ofText crowdedText with
  | error failure =>
      rw [hread] at hcheck
      cases hcheck
  | ok snapshot =>
      rw [hread] at hcheck
      obtain ⟨hids, hnodes⟩ := of_decide_eq_true hcheck
      exact ⟨snapshot, rfl, hids, hnodes, ofText_render hread hnodes⟩

end TickScript.Snapshot
