import TickScript.Proofs.Emission.Omitted
import TickScript.Proofs.Emission.Values
import TickScript.Proofs.Graph.Order

/-!
# Inputs that nothing is given for

Where neither an edge nor a setting says what an input is, a literal stands in for it, and for some
inputs this literal is undefined. Statements account for each of these (`Composes.accounted`): either
the kind of the node leaves the input open or the statements warn of it. The build warns of the open
inputs that are required, and the others are left out of the statements, all but one. So a script that
holds `undefined` for an input of a node comes with a warning about this node, unless the input is the
amount of a deal.
-/

namespace TickScript

/-! ## Accounts of a function -/

namespace Emission

variable {table : NodeTable}

/-- Nothing was given for the input, and the kind of its node leaves it open or there is a warning
about the node. -/
def StandIn.Accounted (table : NodeTable) (warnings : List Diagnostic) (standIn : StandIn) : Prop :=
  ∃ node ∈ table.values, node.id = standIn.nodeId ∧ node.input? standIn.input = none ∧
    (standIn.input ∈ node.kind.openInputs ∨ ∃ warning ∈ warnings, warning.nodeId = some node.id)

theorem StandIn.Accounted.mono {warnings warnings' : List Diagnostic} {standIn : StandIn}
    (h : standIn.Accounted table warnings) (hsub : warnings ⊆ warnings') :
    standIn.Accounted table warnings' := by
  obtain ⟨node, hnode, hid, hnone, hopen | ⟨warning, hwarning, hnamed⟩⟩ := h
  · exact ⟨node, hnode, hid, hnone, .inl hopen⟩
  · exact ⟨node, hnode, hid, hnone, .inr ⟨warning, hsub hwarning, hnamed⟩⟩

/-- All inputs that are undefined are accounted for. -/
def Context.Accounted (table : NodeTable) (context : Context) : Prop :=
  ∀ standIn ∈ context.standIns, standIn.literal.isUndefined = true →
    standIn.Accounted table context.diagnostics.warnings

namespace Context.Accounted

variable {context : Context}

theorem warn (h : context.Accounted table) (nodeId message : String) :
    (context.warn nodeId message).Accounted table := by
  intro standIn hmem hundefined
  exact (h standIn hmem hundefined).mono (List.subset_append_left _ _)

theorem standIn (h : context.Accounted table) {nodeId input : String} {literal : Literal}
    (hnew : literal.isUndefined = true →
      StandIn.Accounted table context.diagnostics.warnings ⟨nodeId, input, literal⟩) :
    (context.standIn nodeId input literal).Accounted table :=
  List.forall_mem_cons.2 ⟨hnew, h⟩

end Context.Accounted

/-- Statements account for all inputs that are undefined. -/
theorem Composes.accounted {context final : Context} (h : Composes table context final)
    (hcontext : context.Accounted table) : final.Accounted table := by
  induction h with
  | done => exact hcontext
  | say _ _ ih => exact ih hcontext
  | deeper _ _ ihbody ih => exact ih (ihbody hcontext)
  | fresh _ _ _ ih => exact ih hcontext
  | require _ _ _ _ ih => exact ih hcontext
  | warn nodeId message _ ih => exact ih (hcontext.warn nodeId message)
  | found _ _ _ _ _ _ ih => exact ih hcontext
  | missed consumer source port _ _ ih => exact ih (Context.Accounted.warn hcontext consumer _)
  | standIn node input literal hnone hopen _ ih =>
      refine ih (hcontext.standIn fun hundefined => ?_)
      obtain ⟨hnode, hinput⟩ := hopen hundefined
      exact ⟨node, hnode, rfl, hnone, .inl hinput⟩
  | warned node input literal message hnone hnode _ ih =>
      -- The literal and the warning come at once, so the warning may be taken to be first.
      refine ih (Context.Accounted.standIn (hcontext.warn node.id message) fun _ => ?_)
      refine ⟨node, hnode, rfl, hnone, .inr ⟨⟨some node.id, message⟩, ?_, rfl⟩⟩
      exact List.mem_append_right _ List.mem_cons_self
  | record _ _ _ _ _ ih => exact ih hcontext

/-- The functions of a program account for all inputs that are undefined. -/
theorem functionContexts_accounted {program : Program} {registry : Registry}
    (hplain : (Setting.mk program.nodes registry).Plain) :
    ∀ context ∈ functionContexts program registry, context.Accounted program.nodes := by
  intro context hcontext
  obtain ⟨imports, actor, hcomposed⟩ := functionContexts_composed hplain context hcontext
  exact hcomposed.accounted fun standIn hmem => absurd hmem List.not_mem_nil

end Emission

/-! ## Warnings of the build -/

namespace Graph

variable {graph : Graph} {names : KindNames} {registry : Emission.Registry} {program : Program}
  {warnings : List Diagnostic}

/-- The build warns of every required input that nothing is given for. -/
theorem warned_of_required (h : graph.build names registry = .ok (program, warnings))
    {built : TickScript.Node} (hbuilt : built ∈ program.nodes.values) {input : String}
    (hrequired : input ∈ built.kind.requiredInputs) (hnone : built.input? input = none) :
    ⟨some built.id, s!"input '{input}' is not connected and has no fallback"⟩ ∈ warnings := by
  obtain ⟨log, -, rfl⟩ := warnings_of_build h
  have hdenotes := denotes_of_build h
  obtain ⟨node, hnode, hid, -⟩ := hdenotes.of_mem_values hbuilt
  have hdeclared : built ∈ (graph.nodes.map (·.id)).filterMap program.nodes.get? :=
    List.mem_filterMap.2 ⟨node.id, List.mem_map_of_mem hnode, hid ▸ hdenotes.get?_id hbuilt⟩
  have hmissing : built.inputs.contains input = false := by
    show (built.input? input).isSome = false
    rw [hnone]
    rfl
  refine List.mem_append_right _ (List.mem_flatMap.2 ⟨built, hdeclared, ?_⟩)
  rw [Building.checkInputs_warnings_append]
  refine List.mem_append_right _ (List.mem_map.2 ⟨input, List.mem_filter.2 ⟨hrequired, ?_⟩, rfl⟩)
  rw [hmissing]
  rfl

/-- The nodes of a program are plain if the kinds of its graph are built in. -/
theorem plain_of_builtin (h : graph.build names registry = .ok (program, warnings))
    (hbuiltin : ∀ node ∈ graph.nodes, Kind.isBuiltin (names.resolve node.kind) = true) :
    (Emission.Setting.mk program.nodes registry).Plain := by
  intro built hbuilt
  obtain ⟨node, hnode, -, hkind, -⟩ := (denotes_of_build h).exists_node hbuilt
  have hname := hbuiltin node hnode
  unfold Emission.Setting.isPlain
  split
  · next custom hcustom =>
    rw [hcustom] at hkind
    rcases Node.tag_of_kind? hkind with htag | ⟨hother, -⟩
    · -- No built-in kind has the tag of the custom ones.
      rw [← htag] at hname
      exact absurd hname (by decide : Kind.isBuiltin "custom" ≠ true)
    · rw [hother] at hname
      cases hname
  · rfl

end Graph

/-! ## Scripts without silent gaps -/

namespace Emission

/-- For an accepted graph of built-in kinds, whatever is resolved to `undefined` for want of an input
is remembered. If the statements of the node hold this `undefined`, the script has a warning about the
node, unless the input is the amount of a deal. -/
theorem undefined_inputs_are_warned_of (compiler : Compiler) (program : Program)
    (warnings : List Diagnostic) (hbuild : compiler.build = .ok (program, warnings))
    (hbuiltin : ∀ node ∈ compiler.graph.nodes,
      Kind.isBuiltin (compiler.names.resolve node.kind) = true) :
    (∀ (node : Node) (input : String) (fallback : Literal) (context : Context),
      node.input? input = none → (Emit.input node input fallback).run context =
        (fallback.render, context.standIn node.id input fallback)) ∧
    ∃ script, compiler.compile = .ok script ∧
      ∀ context ∈ functionContexts program compiler.registry, ∀ standIn ∈ context.standIns,
        standIn.literal.isUndefined = true →
        ∃ node, program.nodes.get? standIn.nodeId = some node ∧ node.input? standIn.input = none ∧
          (WritesUndefined ⟨program.nodes, compiler.registry⟩ node standIn.input →
            ¬ (node.kind.isDeal = true ∧ standIn.input = "amount") →
            ∃ warning ∈ script.warnings, warning.nodeId = some standIn.nodeId) := by
  have hcompile := Compiler.compile_of_build hbuild (Graph.build_eq_ok hbuild).2.1
  refine ⟨fun node input fallback context hnone => Emit.input_of_none hnone fallback context,
    _, hcompile, ?_⟩
  intro context hcontext standIn hmem hundefined
  obtain ⟨node, hnode, hid, hnone, haccount⟩ :=
    functionContexts_accounted (Graph.plain_of_builtin hbuild hbuiltin) context hcontext standIn hmem
      hundefined
  refine ⟨node, hid ▸ (Graph.denotes_of_build hbuild).get?_id hnode, hnone, fun hwritten hother => ?_⟩
  rcases haccount with hopen | ⟨warning, hwarning, hnamed⟩
  · have hrequired : standIn.input ∈ node.kind.requiredInputs :=
      (hwritten.required_or_deal hnone hopen).resolve_right hother
    have hwarned := Graph.warned_of_required hbuild hnode hrequired hnone
    exact ⟨_, List.mem_append_left _ hwarned, congrArg some hid⟩
  · have hkept := functionContexts_warnings program compiler.registry context hcontext _ hwarning
    exact ⟨warning, List.mem_append_right _ hkept, hid ▸ hnamed⟩

/-- A look-up without an id, and an order without a price and an amount. -/
def looseEnds : Graph where
  name := "loose"
  nodes := [
    { id := "start", kind := "start" }, { id := "find", kind := "query.byId" },
    { id := "sell", kind := "structure.market" }]
  edges := [.flow "start" "find", .flow "find" "sell"]

/-- The node of the look-up. -/
def looseFind : Node := { id := "find", kind := .byId {}, outputs := ["sell"] }

/-- The program of the graph. -/
def looseProgram : Program where
  fileId := "loose"
  entry := "start"
  nodes := .ofList [
    ("start", { id := "start", kind := .start, outputs := ["find"] }), ("find", looseFind),
    ("sell", { id := "sell", kind := .market {} })]

/-- Of the inputs that are undefined, only the id is held by a statement, with a warning. -/
theorem looseEnds_warned :
    ∃ warnings, Compiler.build ⟨looseEnds, .empty, .empty⟩ = .ok (looseProgram, warnings) ∧
    ∃ script, Compiler.compile ⟨looseEnds, .empty, .empty⟩ = .ok script ∧
    ∃ context ∈ functionContexts looseProgram .empty,
      ⟨"find", "id", .undefined⟩ ∈ context.standIns ∧
      WritesUndefined ⟨looseProgram.nodes, .empty⟩ looseFind "id" ∧
      ∃ warning ∈ script.warnings, warning.nodeId = some "find" := by
  have hbuild : Compiler.build ⟨looseEnds, .empty, .empty⟩ = .ok (looseProgram,
      [⟨some "find", "input 'id' is not connected and has no fallback"⟩]) := rfl
  have hstandIns : (runWalk ⟨looseProgram.nodes, .empty⟩ {} "start").standIns = [
      ⟨"sell", "price", .undefined⟩, ⟨"sell", "amount", .undefined⟩,
      ⟨"sell", "terminal", .text "creep.room.terminal"⟩, ⟨"find", "id", .undefined⟩] := rfl
  have hmem : ⟨"find", "id", .undefined⟩ ∈
      (runWalk ⟨looseProgram.nodes, .empty⟩ {} "start").standIns := by
    rw [hstandIns]
    simp
  have hwritten : WritesUndefined ⟨looseProgram.nodes, .empty⟩ looseFind "id" :=
    writesUndefined_byId _ rfl rfl rfl
  obtain ⟨-, script, hcompile, hwarned⟩ := undefined_inputs_are_warned_of ⟨looseEnds, .empty, .empty⟩
    looseProgram _ hbuild (by decide +kernel)
  obtain ⟨node, hnode, -, hwarned⟩ := hwarned _ List.mem_cons_self _ hmem rfl
  have hfind : looseProgram.nodes.get? "find" = some looseFind := rfl
  obtain rfl : looseFind = node := Option.some.inj (hfind.symm.trans hnode)
  exact ⟨_, hbuild, script, hcompile, _, List.mem_cons_self, hmem, hwritten,
    hwarned hwritten (by decide)⟩

/-- A deal over an order, without an amount. -/
def openDeal : Graph where
  name := "market"
  nodes := [
    { id := "start", kind := "start" },
    { id := "deal", kind := "structure.market",
      settings := .object [("mode", .text "deal"), ("orderId", .text "abc")] }]
  edges := [.flow "start" "deal"]

/-- The node of the deal. -/
def openDealNode : Node :=
  { id := "deal", kind := .market { mode := .deal, orderId := some "abc" } }

/-- The program of the graph. -/
def openDealProgram : Program where
  fileId := "market"
  entry := "start"
  nodes := .ofList [
    ("start", { id := "start", kind := .start, outputs := ["deal"] }), ("deal", openDealNode)]

/-- The deal holds `undefined` for its amount, and there is no warning at all. -/
theorem openDeal_not_warned :
    Compiler.build ⟨openDeal, .empty, .empty⟩ = .ok (openDealProgram, []) ∧
    (∀ node ∈ openDeal.nodes, Kind.isBuiltin (KindNames.resolve .empty node.kind) = true) ∧
    openDealProgram.nodes.get? "deal" = some openDealNode ∧
    (∃ context ∈ functionContexts openDealProgram .empty,
      ⟨"deal", "amount", .undefined⟩ ∈ context.standIns) ∧
    WritesUndefined ⟨openDealProgram.nodes, .empty⟩ openDealNode "amount" ∧
    ∃ script, Compiler.compile ⟨openDeal, .empty, .empty⟩ = .ok script ∧ script.warnings = [] := by
  have hbuild : Compiler.build ⟨openDeal, .empty, .empty⟩ = .ok (openDealProgram, []) := by
    with_unfolding_all rfl
  have hstandIns : (runWalk ⟨openDealProgram.nodes, .empty⟩ {} "start").standIns = [
      ⟨"deal", "orderId", .text "\"abc\""⟩, ⟨"deal", "amount", .undefined⟩,
      ⟨"deal", "terminal", .text "creep.room.terminal"⟩] := rfl
  have hmem : ⟨"deal", "amount", .undefined⟩ ∈
      (runWalk ⟨openDealProgram.nodes, .empty⟩ {} "start").standIns := by
    rw [hstandIns]
    simp
  refine ⟨hbuild, by decide +kernel, rfl, ⟨_, List.mem_cons_self, hmem⟩,
    writesUndefined_deal _ rfl rfl rfl rfl, _,
    Compiler.compile_of_build hbuild (Graph.build_eq_ok hbuild).2.1, ?_⟩
  show [] ++ (assemble openDealProgram .empty).warnings = []
  decide +kernel

end Emission

end TickScript
