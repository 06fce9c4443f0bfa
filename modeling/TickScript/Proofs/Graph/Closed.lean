import TickScript.Compiler
import TickScript.Proofs.Graph.Wiring

/-!
# Accepted graphs compile

A program is closed if every id that it mentions is the id of one of its nodes. The program of an
accepted graph is closed: its ids come from nodes and from the ends of edges, which are declared. It
has no defects either, so the check before it is written finds none and the graph compiles.
-/

namespace TickScript

/-- Every id that a program mentions is a key of its table of nodes. -/
structure Program.Closed (program : Program) : Prop where
  entry : program.nodes.contains program.entry = true
  outputs : ∀ node ∈ program.nodes.values, ∀ id ∈ node.outputs, program.nodes.contains id = true
  slots : ∀ node ∈ program.nodes.values, ∀ children ∈ node.slots.values, ∀ id ∈ children,
    program.nodes.contains id = true
  inputs : ∀ node ∈ program.nodes.values, ∀ port ∈ node.inputs.values, ∀ id,
    port.source? = some id → program.nodes.contains id = true
  bodies : ∀ task ∈ program.tasks, ∀ id, task.entry = some id → program.nodes.contains id = true
  defines : ∀ task ∈ program.tasks, program.nodes.contains task.defineNode = true

namespace Graph

variable {graph : Graph} {names : KindNames} {registry : Emission.Registry} {program : Program}
  {warnings : List Diagnostic} {edges : List Edge} {id : String}

/-! ## Ids of edges -/

theorem mem_targets {sort : Edge → Bool} (h : id ∈ targets edges sort) :
    ∃ edge ∈ edges, edge.target = id := by
  obtain ⟨edge, hedge, htarget⟩ := List.mem_map.1 (List.mem_eraseDups.1 h)
  exact ⟨edge, (List.mem_filter.1 hedge).1, htarget⟩

/-- The heads of slots are targets of edges. -/
theorem Node.Becomes.mem_slot {node : Graph.Node} {built : TickScript.Node}
    (h : node.Becomes edges built) {children : List String} (hslot : children ∈ built.slots.values)
    (hid : id ∈ children) : ∃ edge ∈ edges, edge.target = id := by
  obtain ⟨⟨slot, heads⟩, hentry, rfl⟩ := List.mem_map.1 hslot
  have hheads := h.slots slot
  rw [Keyed.get?_of_mem hentry] at hheads
  split at hheads
  · cases hheads
  · cases hheads
    exact mem_targets hid

/-- The nodes that inputs come from are sources of edges. -/
theorem Node.Becomes.mem_input {node : Graph.Node} {built : TickScript.Node}
    (h : node.Becomes edges built) {port : Port} (hport : port ∈ built.inputs.values)
    (hid : port.source? = some id) : ∃ edge ∈ edges, edge.source = id := by
  obtain ⟨⟨input, value⟩, hentry, rfl⟩ := List.mem_map.1 hport
  have hfed := h.inputs input
  rw [Keyed.get?_of_mem hentry, FedBy] at hfed
  split at hfed
  · next edge hlast =>
    obtain ⟨name, -, hvalue⟩ := hfed
    cases hvalue
    cases hid
    have hedge : edge ∈ connections edges node.id input := List.mem_of_getLast? hlast
    exact ⟨edge, (List.mem_filter.1 hedge).1, rfl⟩
  · obtain ⟨constant, -, hvalue⟩ := Option.map_eq_some_iff.1 hfed.symm
    cases hvalue
    cases hid

/-- The ends of the edges of an accepted graph are ids of its nodes. -/
theorem edges_declared (h : graph.build names registry = .ok (program, warnings)) :
    ∀ edge ∈ graph.edges, (∃ node ∈ graph.nodes, node.id = edge.source) ∧
      ∃ node ∈ graph.nodes, node.id = edge.target := by
  obtain ⟨hfinal, -, -, -⟩ := build_eq_ok h
  obtain ⟨-, hdefects, -⟩ := Building.foldl_addTask
    (graph.assemble names registry).declaredNodes (graph.assemble names registry, [])
  obtain ⟨-, -, hedges⟩ := (assemble_defects graph names registry).1.1 (hdefects.1 hfinal).1
  intro edge hedge
  obtain ⟨hsource, htarget, -⟩ := hedges edge hedge
  exact ⟨hsource, htarget⟩

namespace Denotes

variable (h : graph.Denotes names registry program)

include h

/-- The keys of the table are the ids of the graph. -/
theorem contains_iff : program.nodes.contains id = true ↔ ∃ node ∈ graph.nodes, node.id = id := by
  rw [Keyed.contains_iff_mem_keys, h.keys.mem_iff, List.mem_map]

/-- What stands under an id in the table is the node of the graph with this id. -/
theorem of_get? {id : String} {built : TickScript.Node}
    (hbuilt : program.nodes.get? id = some built) :
    ∃ node ∈ graph.nodes, node.id = id ∧ built.id = node.id ∧
      node.kind? names registry = some built.kind ∧ node.Becomes graph.edges built := by
  have hkey : id ∈ program.nodes.keys := List.mem_map_of_mem (Keyed.mem_entries_of_get? hbuilt)
  obtain ⟨node, hnode, rfl⟩ := List.mem_map.1 (h.keys.mem_iff.1 hkey)
  obtain ⟨other, hother, hrest⟩ := h.nodes node hnode
  obtain rfl : other = built := Option.some.inj (hother.symm.trans hbuilt)
  exact ⟨node, hnode, rfl, hrest⟩

/-- The nodes of the table stand under their ids. -/
theorem get?_id {built : TickScript.Node} (hbuilt : built ∈ program.nodes.values) :
    program.nodes.get? built.id = some built := by
  obtain ⟨⟨key, value⟩, hentry, rfl⟩ := List.mem_map.1 hbuilt
  have hvalue : program.nodes.get? key = some value := Keyed.get?_of_mem hentry
  obtain ⟨node, -, hkey, hid, -⟩ := h.of_get? hvalue
  show program.nodes.get? value.id = some value
  rw [hid, hkey, hvalue]

/-- Every node of the table stands for a node of the graph, under its id and with its kind. -/
theorem exists_node {built : TickScript.Node} (hbuilt : built ∈ program.nodes.values) :
    ∃ node ∈ graph.nodes, built.id = node.id ∧ node.kind? names registry = some built.kind ∧
      node.Becomes graph.edges built := by
  obtain ⟨node, hnode, -, hrest⟩ := h.of_get? (h.get?_id hbuilt)
  exact ⟨node, hnode, hrest⟩

/-- Every node of the table is what edges and settings make of a node of the graph. -/
theorem of_mem_values {built : TickScript.Node} (hbuilt : built ∈ program.nodes.values) :
    ∃ node ∈ graph.nodes, built.id = node.id ∧ node.Becomes graph.edges built := by
  obtain ⟨node, hnode, hid, -, hbecomes⟩ := h.exists_node hbuilt
  exact ⟨node, hnode, hid, hbecomes⟩

/-- Every task is that of a node of the graph. -/
theorem of_mem_tasks {task : Task} (htask : task ∈ program.tasks) :
    ∃ node ∈ graph.nodes, task = node.task graph.edges := by
  rw [h.tasks] at htask
  obtain ⟨node, hnode, rfl⟩ := List.mem_map.1 htask
  exact ⟨node, (List.mem_filter.1 hnode).1, rfl⟩

/-- A program that a graph denotes is closed if the ends of the edges are declared and the entry is a
start node. -/
theorem closed (hedges : ∀ edge ∈ graph.edges, (∃ node ∈ graph.nodes, node.id = edge.source) ∧
      ∃ node ∈ graph.nodes, node.id = edge.target)
    (hstarts : program.starts = [program.entry]) : program.Closed := by
  have htarget {id : String} (hid : ∃ edge ∈ graph.edges, edge.target = id) :
      program.nodes.contains id = true := by
    obtain ⟨edge, hedge, rfl⟩ := hid
    exact h.contains_iff.2 (hedges edge hedge).2
  constructor
  · have hmem : program.entry ∈ program.starts := by simp [hstarts]
    obtain ⟨built, hbuilt, hid⟩ := List.mem_map.1 hmem
    obtain ⟨node, hnode, hsame, -⟩ := h.of_mem_values (List.mem_filter.1 hbuilt).1
    exact h.contains_iff.2 ⟨node, hnode, hsame.symm.trans hid⟩
  · intro built hbuilt id hid
    obtain ⟨node, -, -, hbecomes⟩ := h.of_mem_values hbuilt
    exact htarget (mem_targets (hbecomes.outputs ▸ hid))
  · intro built hbuilt children hchildren id hid
    obtain ⟨node, -, -, hbecomes⟩ := h.of_mem_values hbuilt
    exact htarget (hbecomes.mem_slot hchildren hid)
  · intro built hbuilt port hport id hid
    obtain ⟨node, -, -, hbecomes⟩ := h.of_mem_values hbuilt
    obtain ⟨edge, hedge, rfl⟩ := hbecomes.mem_input hport hid
    exact h.contains_iff.2 (hedges edge hedge).1
  · intro task hmem id hid
    obtain ⟨node, -, rfl⟩ := h.of_mem_tasks hmem
    rcases List.mem_append.1 (List.mem_of_head? hid) with hflow | hslot
    · exact htarget (mem_targets hflow)
    · exact htarget (mem_targets hslot)
  · intro task hmem
    obtain ⟨node, hnode, rfl⟩ := h.of_mem_tasks hmem
    exact h.contains_iff.2 ⟨node, hnode, rfl⟩

end Denotes

end Graph

namespace Compiler

/-- A graph that is built also compiles, with the warnings of the build before all others. -/
theorem compile_of_build {compiler : Compiler} {program : Program} {warnings : List Diagnostic}
    (h : compiler.build = .ok (program, warnings)) (hdefects : program.defects = []) :
    compiler.compile = .ok
      { Emission.assemble program compiler.registry with
        warnings := warnings ++ (Emission.assemble program compiler.registry).warnings } := by
  simp only [compile, h, Emission.emitProgram, hdefects]

/-- The program of an accepted graph is closed and has no defects, and the graph compiles. A graph is
rejected by the compilation exactly when the build rejects it, for the same reasons. -/
theorem accepted_program_compiles (compiler : Compiler) :
    (∀ program warnings, compiler.build = .ok (program, warnings) →
      program.Closed ∧ program.defects = [] ∧
        ∃ script, compiler.compile = .ok script ∧ script.fileId = compiler.graph.name ∧
          warnings <+: script.warnings) ∧
    ∀ rejection, compiler.compile = .error rejection ↔ compiler.build = .error rejection := by
  have hdefects {program : Program} {warnings : List Diagnostic}
      (h : compiler.build = .ok (program, warnings)) : program.defects = [] :=
    (Graph.build_eq_ok h).2.1
  refine ⟨fun program warnings h => ?_, fun rejection => ?_⟩
  · have hdenotes := Graph.denotes_of_build h
    have hstarts := (Program.defects_eq_nil_iff.1 (hdefects h)).1
    exact ⟨hdenotes.closed (Graph.edges_declared h) hstarts, hdefects h, _,
      compile_of_build h (hdefects h), hdenotes.fileId, List.prefix_append _ _⟩
  · cases h : compiler.build with
    | error other => simp [compile, h]
    | ok result =>
        obtain ⟨program, warnings⟩ := result
        simp [compile_of_build h (hdefects h)]

/-- A graph with crossed connections compiles, and the warning of the build is kept. -/
theorem crossedWires_compiles :
    ∃ program warnings, build ⟨Graph.crossedWires, .empty, .empty⟩ = .ok (program, warnings) ∧
      program.nodes.contains program.entry = true ∧ warnings.length = 2 ∧
        ∃ script, compile ⟨Graph.crossedWires, .empty, .empty⟩ = .ok script ∧
          script.fileId = "crossed" ∧ warnings <+: script.warnings := by
  have hlength : (build ⟨Graph.crossedWires, .empty, .empty⟩).toOption.map (·.2.length) = some 2 := by
    decide +kernel
  cases hbuild : build ⟨Graph.crossedWires, .empty, .empty⟩ with
  | error rejection =>
      rw [hbuild] at hlength
      cases hlength
  | ok result =>
      obtain ⟨program, warnings⟩ := result
      rw [hbuild] at hlength
      obtain ⟨hclosed, -, script, hscript, hfileId, hprefix⟩ :=
        (accepted_program_compiles ⟨Graph.crossedWires, .empty, .empty⟩).1 program warnings hbuild
      exact ⟨program, warnings, rfl, hclosed.entry, Option.some.inj hlength, script, hscript,
        hfileId, hprefix⟩

end Compiler

end TickScript
