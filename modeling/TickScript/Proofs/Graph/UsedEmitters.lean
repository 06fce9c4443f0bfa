import Mathlib.Tactic.Convert
import TickScript.Proofs.Graph.Closed
import TickScript.Proofs.Walk.Course

/-!
# Emitters that a graph uses

A registry is asked in two places: by the build, for the kind that a node names, and by the walk, for
the kind that the program holds. `compile_depends_on_used_emitters` says that both ask only for kinds of
nodes of the graph that are not built in. So two registries with the same emitters for these compile a
graph alike, whatever else they hold, and an emitter for a built-in kind is never used. An emitter may
also ask itself which kinds are registered. `Indifferent` says that it goes on in the same way whatever
the answer is; an emitter that is given as data does, since nothing is written from its outcomes.
-/

namespace TickScript

namespace Emission

variable {registry registry' : Registry}

/-! ## Routines -/

namespace Routine

variable {α β γ : Type}

/-- It makes no difference to a routine which kinds have emitters. -/
def Indifferent : Routine α → Prop
  | done _ => True
  | ask _ next => ∀ answer, (next answer).Indifferent
  | branch _ next => next.Indifferent
  | registered next => (∀ kinds kinds', next kinds = next kinds') ∧ (next []).Indifferent

/-- Such a routine does the same with any registry. -/
theorem Indifferent.run_eq {routine : Routine α} (h : routine.Indifferent)
    (follow : List String → Walk Unit) :
    routine.run registry' follow = routine.run registry follow := by
  induction routine with
  | done value => rfl
  | ask request next ih =>
      exact congrArg (Walk.lift request.perform >>= ·) (funext fun answer => ih answer (h answer))
  | branch ids next ih => exact congrArg (fun rest => follow ids >>= fun _ => rest) (ih h)
  | registered next ih =>
      obtain ⟨hsame, hnext⟩ := h
      change (next registry'.keys).run registry' follow = (next registry.keys).run registry follow
      rw [hsame registry'.keys [], hsame registry.keys []]
      exact ih [] hnext

theorem bind_assoc (routine : Routine α) (rest : α → Routine β) (last : β → Routine γ) :
    (routine.bind rest).bind last = routine.bind fun value => (rest value).bind last := by
  induction routine with
  | done value => rfl
  | ask request next ih => exact congrArg (ask request) (funext ih)
  | branch ids next ih => exact congrArg (branch ids) ih
  | registered next ih => exact congrArg registered (funext ih)

/-- A routine is indifferent as soon as nothing looks at the first part of the pair that it yields. -/
def RegisterOnly (routine : Routine (α × String)) : Prop :=
  ∀ {β : Type} (rest : String → Routine β), (∀ register, (rest register).Indifferent) →
    (routine.bind fun result => rest result.2).Indifferent

end Routine

/-- It makes no difference to an emitter which kinds have emitters. -/
def NodeEmitter.Indifferent (emitter : NodeEmitter) : Prop :=
  ∀ node settings, (emitter.emit node settings).Indifferent

namespace Scene

variable (scene : Scene)

mutual

/-- Which kinds are registered only shows in the outcome of a step. -/
theorem routine_registerOnly (register : String) :
    ∀ step : Step, Routine.RegisterOnly (scene.routine register step)
  | .temp _ => fun _ h _ => h _
  | .statement _ => fun _ h _ => h _
  | .enter => fun _ h _ _ => h _
  | .exit => fun _ h _ _ => h _
  | .bind _ _ => fun _ h _ => h _
  | .set _ _ => fun _ h _ => h _
  | .value nodeId => fun rest h context => by
      change ((match context.valueOf? nodeId with
        | some expr => Routine.done (Outcome.text expr, register)
        | none => .done (.nothing, register)).bind fun result => rest result.2).Indifferent
      split
      · exact h register
      · exact h register
  | .resolve _ _ _ => fun _ h _ => h _
  | .require _ _ => fun _ h _ => h _
  | .warn _ _ => fun _ h _ => h _
  | .actor => fun _ h _ => h _
  | .take => fun _ h _ _ => h _
  | .branch _ => fun _ h => h _
  | .slot _ _ => fun _ h => h _
  | .block header body => fun rest h _ _ => by
      change ((((scene.routines register body).bind _).bind _).bind _).bind _ |>.Indifferent
      simp only [Routine.bind_assoc]
      exact routines_registerOnly register body
        (fun register => .ask .exit fun _ => .ask (.say "\x7d") fun _ => rest register)
        fun register _ _ => h register
  | .indented body => fun rest h _ => by
      change (((scene.routines register body).bind _).bind _).bind _ |>.Indifferent
      simp only [Routine.bind_assoc]
      exact routines_registerOnly register body (fun register => .ask .exit fun _ => rest register)
        fun register _ => h register
  | .registered _ => fun _ h => ⟨fun _ _ => rfl, h _⟩
  | .input name fallback => fun rest h => by
      change (((scene.hostInput name fallback).bind _).bind _).Indifferent
      unfold hostInput
      split
      · exact fun _ => h _
      · exact h _
  | .setting _ => fun _ h => h _
  | .produce expr => fun rest h => by
      change (((scene.hostProduce (fill register expr)).bind _).bind _).Indifferent
      unfold hostProduce
      split
      · exact fun _ => h _
      · exact h _

/-- It only shows in the outcomes of steps. -/
theorem routines_registerOnly (register : String) :
    ∀ steps : List Step, Routine.RegisterOnly (scene.routines register steps)
  | [] => fun _ h => h _
  | step :: steps => fun rest h => by
      have hlater := routine_registerOnly register step (fun register => .ask .look fun _ =>
        (scene.routines register steps).bind fun result => rest result.2) fun register _ =>
          routines_registerOnly register steps rest h
      change (((scene.routine register step).bind _).bind _).Indifferent
      rw [Routine.bind_assoc]
      -- The outcome of the step is put in front of the others, which nothing looks at.
      convert hlater using 2
      refine funext fun result => congrArg (Routine.ask .look) (funext fun context => ?_)
      change ((scene.routines result.2 steps).bind _).bind _ = _
      exact Routine.bind_assoc _ _ _

end

end Scene

/-- An emitter that is given as data is indifferent, since nothing is written from its outcomes. -/
theorem Emitter.indifferent (emitter : Emitter) : emitter.toNodeEmitter.Indifferent := by
  intro node settings
  have hlast (_ : String) :
      (Routine.done (if emitter.stop then Continuation.stop else .outputs)).Indifferent := trivial
  exact Scene.routines_registerOnly { host := some (node, settings) } "" emitter.steps _ hlast

/-! ## Walks -/

/-- Two registries have the same indifferent emitter for a node, or both none. -/
def Registry.AgreeAt (registry registry' : Registry) (node : Node) : Prop :=
  ∀ custom, node.kind = .custom custom →
    registry'.get? custom.kind = registry.get? custom.kind ∧
      ∀ emitter, registry.get? custom.kind = some emitter → emitter.Indifferent

variable {table : NodeTable} {node : Node} {branch : List String → Walk Unit}

/-- The statements of a node are the same with registries that have the same emitter for it. -/
theorem dispatch_eq (h : registry.AgreeAt registry' node) :
    dispatch ⟨table, registry'⟩ branch node = dispatch ⟨table, registry⟩ branch node := by
  unfold dispatch
  cases hkind : node.kind with
  | custom custom =>
      obtain ⟨hsame, hindifferent⟩ := h custom hkind
      unfold emitCustom
      dsimp only
      rw [hsame]
      cases hemitter : registry.get? custom.kind with
      | none => rfl
      | some emitter => exact (hindifferent emitter hemitter node custom.settings).run_eq branch
  | _ => rfl

namespace Walk

/-- Walks are the same with registries that have the same emitters for the nodes of the table. -/
theorem visit_eq (h : ∀ node ∈ table.values, registry.AgreeAt registry' node) (budget : Nat) :
    visit ⟨table, registry'⟩ budget = visit ⟨table, registry⟩ budget := by
  induction budget with
  | zero => rfl
  | succ budget ih =>
      have hwrite {id : String} {node : Node} (hnode : table.get? id = some node) :
          write ⟨table, registry'⟩ (visit ⟨table, registry⟩ budget) id node =
            write ⟨table, registry⟩ (visit ⟨table, registry⟩ budget) id node := by
        unfold write
        rw [dispatch_eq (h node (Keyed.mem_values_of_get? hnode))]
        rfl
      funext id
      unfold visit
      dsimp only
      rw [ih]
      cases hnode : table.get? id with
      | none => rfl
      | some node =>
          dsimp only
          rw [hwrite hnode]

end Walk

/-- A function is the same with registries that have the same emitters for the nodes of the table. -/
theorem runWalk_eq (h : ∀ node ∈ table.values, registry.AgreeAt registry' node) (context : Context)
    (entry : String) :
    runWalk ⟨table, registry'⟩ context entry = runWalk ⟨table, registry⟩ context entry := by
  unfold runWalk Walk.walk
  rw [Walk.visit_eq h]

theorem emitTasks_eq (h : ∀ node ∈ table.values, registry.AgreeAt registry' node) (context : Context)
    (tasks : List Task) :
    emitTasks ⟨table, registry'⟩ context tasks = emitTasks ⟨table, registry⟩ context tasks := by
  have htask (context : Context) (task : Task) :
      taskContext ⟨table, registry'⟩ context task = taskContext ⟨table, registry⟩ context task := by
    unfold taskContext
    simp only [runWalk_eq h]
  induction tasks generalizing context with
  | nil => rfl
  | cons task tasks ih => rw [emitTasks, emitTasks, htask, ih]

/-- A program is written alike with registries that have the same emitters for its nodes. -/
theorem emitProgram_eq {program : Program}
    (h : ∀ node ∈ program.nodes.values, registry.AgreeAt registry' node) :
    emitProgram program registry' = emitProgram program registry := by
  have hfunctions : functions program registry' = functions program registry := by
    unfold functions
    dsimp only
    rw [runWalk_eq h, emitTasks_eq h]
  unfold emitProgram assemble
  rw [hfunctions]

end Emission

/-! ## Builds -/

namespace Graph

variable {names : KindNames} {registry registry' : Emission.Registry}

/-- Two registries have the same emitters for all kinds of a graph that are not built in. -/
def AgreeOn (graph : Graph) (names : KindNames) (registry registry' : Emission.Registry) : Prop :=
  ∀ node ∈ graph.nodes, Kind.isBuiltin (names.resolve node.kind) = false →
    registry'.get? (names.resolve node.kind) = registry.get? (names.resolve node.kind)

/-- All emitters for kinds of a graph that are not built in are indifferent. -/
def IndifferentOn (graph : Graph) (names : KindNames) (registry : Emission.Registry) : Prop :=
  ∀ node ∈ graph.nodes, Kind.isBuiltin (names.resolve node.kind) = false →
    ∀ emitter, registry.get? (names.resolve node.kind) = some emitter → emitter.Indifferent

/-- The build asks a registry only for kinds that are not built in. -/
theorem resolveKind_eq {node : Graph.Node}
    (h : Kind.isBuiltin (names.resolve node.kind) = false →
      registry'.get? (names.resolve node.kind) = registry.get? (names.resolve node.kind))
    (settings : Json.Value) :
    Building.resolveKind names registry' node settings =
      Building.resolveKind names registry node settings := by
  rw [← Kind.shape?_isSome] at h
  unfold Building.resolveKind Kind.ofSettings Keyed.contains
  dsimp only
  cases hshape : Kind.shape? (names.resolve node.kind) with
  | some shape =>
      rw [Option.map_some]
      cases shape.read .direct settings <;> rfl
  | none =>
      rw [hshape] at h
      dsimp only [Option.map_none]
      rw [h rfl]

/-- A graph is built alike with registries that agree on its kinds. -/
theorem build_eq_of_agree {graph : Graph} (h : graph.AgreeOn names registry registry') :
    graph.build names registry' = graph.build names registry := by
  have hnodes : graph.nodes.foldl (Building.addNode names registry') {} =
      graph.nodes.foldl (Building.addNode names registry) {} := by
    refine List.foldl_ext _ _ _ fun building node hnode => ?_
    unfold Building.addNode
    simp only [resolveKind_eq (h node hnode)]
  unfold build assemble
  rw [hnodes]

/-- The kind of a node that an emitter writes is the one that its word means, which is not built in. -/
theorem Node.kind?_eq_custom {node : Graph.Node} {custom : Kind.Custom}
    (h : node.kind? names registry = some (.custom custom)) :
    Kind.isBuiltin (names.resolve node.kind) = false ∧ custom.kind = names.resolve node.kind := by
  rw [← Kind.shape?_isSome]
  cases hshape : Kind.shape? (names.resolve node.kind) with
  | some shape =>
      rcases tag_of_kind? h with htag | ⟨hother, -⟩
      · rw [← htag] at hshape
        cases hshape
      · rw [← Kind.shape?_isSome, hshape] at hother
        cases hother
  | none =>
      rw [kind?_of_no_shape hshape] at h
      split at h
      · cases h
        exact ⟨rfl, rfl⟩
      · cases h

/-- Registries that agree on the kinds of a graph have the same emitters for the nodes of its
program. -/
theorem Denotes.agreeAt {graph : Graph} {program : Program}
    (hdenotes : graph.Denotes names registry program) (h : graph.AgreeOn names registry registry')
    (hindifferent : graph.IndifferentOn names registry) :
    ∀ node ∈ program.nodes.values, registry.AgreeAt registry' node := by
  intro built hbuilt custom hkind
  obtain ⟨node, hnode, -, hsame, -⟩ := hdenotes.exists_node hbuilt
  rw [hkind] at hsame
  obtain ⟨hother, hname⟩ := Node.kind?_eq_custom hsame
  rw [hname]
  exact ⟨h node hnode hother, hindifferent node hnode hother⟩

end Graph

namespace Compiler

/-- Let no emitter for a kind of the graph care which kinds are registered; all that are given as data
do not. Then a compilation depends on the emitters for kinds of its graph that are not built in, and on
no others. In particular it makes no difference to add an emitter for a built-in kind. -/
theorem compile_depends_on_used_emitters (compiler : Compiler) :
    (∀ emitter : Emission.Emitter, emitter.toNodeEmitter.Indifferent) ∧
    ((∀ node ∈ compiler.graph.nodes,
        let kind := compiler.names.resolve node.kind
        Kind.isBuiltin kind = false →
          ∀ emitter, compiler.registry.get? kind = some emitter → emitter.Indifferent) →
      (∀ registry : Emission.Registry,
        (∀ node ∈ compiler.graph.nodes,
          let kind := compiler.names.resolve node.kind
          Kind.isBuiltin kind = false → registry.get? kind = compiler.registry.get? kind) →
        { compiler with registry }.compile = compiler.compile) ∧
      ∀ emitter : Emission.NodeEmitter, Kind.isBuiltin emitter.kind = true →
        (compiler.withNodeEmitter emitter).compile = compiler.compile) := by
  refine ⟨Emission.Emitter.indifferent, fun hindifferent => ?_⟩
  have hagree (registry : Emission.Registry)
      (h : compiler.graph.AgreeOn compiler.names compiler.registry registry) :
      { compiler with registry }.compile = compiler.compile := by
    have hbuild : { compiler with registry }.build = compiler.build := Graph.build_eq_of_agree h
    unfold compile
    rw [hbuild]
    cases hresult : compiler.build with
    | error rejection => rfl
    | ok result =>
        obtain ⟨program, warnings⟩ := result
        have hdenotes := Graph.denotes_of_build hresult
        have hemit := Emission.emitProgram_eq (hdenotes.agreeAt h hindifferent)
        dsimp only
        rw [hemit]
  refine ⟨hagree, fun emitter hbuiltin => hagree _ fun node _ hother => ?_⟩
  -- A kind that is not built in differs from that of the emitter.
  refine Keyed.get?_insert_of_ne fun hsame => ?_
  rw [hsame, hbuiltin] at hother
  cases hother

/-- An emitter that writes a message from the settings of its node, or else a message of its own. -/
def beacon : Emission.NodeEmitter where
  kind := "beacon"
  emit node settings := do
    let message :=
      match settings.get? "message" with
      | some (.text message) => message
      | _ => "ping"
    Emission.Routine.request (.say ("console.log(" ++ Text.quote message ++ ");"))
    Emission.Routine.request (.produce node.id "true")
    return .outputs

/-- A graph with a beacon, and with a kind whose emitter writes a slot of its node, after it has asked
for another kind. -/
def guardedPost : Compiler where
  graph := {
    name := "post"
    nodes := [{ id := "start", kind := "start" }, { id := "post", kind := "guard" },
      { id := "up", kind := "raise" },
      { id := "light", kind := "beacon", settings := .object [("message", .text "hello")] }]
    edges := [.flow "start" "post", .slot "post" "body" "up", .flow "post" "light"] }
  names := KindNames.define .empty "raise" "action.upgrade"
  registry := Emission.Registry.add
    (Emission.Registry.register .empty
      ⟨"guard", [.registered "flow.if", .block "if (safe)" [.slot "body" none]], false⟩)
    beacon

/-- The emitters of the graph among others, one of them for a built-in kind. -/
def crowdedRegistry : Emission.Registry :=
  Emission.Registry.register
    (Emission.Registry.register guardedPost.registry ⟨"action.upgrade", [.statement "dance();"], true⟩)
    ⟨"raise", [.statement "dance();"], true⟩

/-- The other emitters make no difference to the graph, which compiles. -/
theorem guardedPost_compiles_alike :
    (∀ node ∈ guardedPost.graph.nodes,
      let kind := guardedPost.names.resolve node.kind
      Kind.isBuiltin kind = false → crowdedRegistry.get? kind = guardedPost.registry.get? kind) ∧
    { guardedPost with registry := crowdedRegistry }.compile = guardedPost.compile ∧
    (guardedPost.withEmitter ⟨"flow.if", [], true⟩).compile = guardedPost.compile ∧
    guardedPost.compile.toOption.map (·.source) = some (String.join [
      "// @generated by sakusen from graph \"post\" -- do not edit\n\n",
      "export function run(creep) \x7b\n  if (safe) \x7b\n",
      "    const upgrade_1 = creep.upgradeController(creep.room.controller);\n  \x7d\n",
      "  console.log(\"hello\");\n\x7d\n"]) := by
  obtain ⟨hdata, hcompile⟩ := compile_depends_on_used_emitters guardedPost
  have hbeacon : beacon.Indifferent := fun _ _ _ _ => trivial
  have hindifferent : ∀ node ∈ guardedPost.graph.nodes,
      let kind := guardedPost.names.resolve node.kind
      Kind.isBuiltin kind = false →
        ∀ emitter, guardedPost.registry.get? kind = some emitter → emitter.Indifferent := by
    refine List.forall_mem_cons.2 ⟨fun h => absurd h (by decide), List.forall_mem_cons.2 ⟨?_,
      List.forall_mem_cons.2 ⟨fun h => absurd h (by decide), List.forall_mem_singleton.2 ?_⟩⟩⟩
    · exact fun _ emitter hemitter => Option.some.inj hemitter ▸ hdata _
    · exact fun _ emitter hemitter => Option.some.inj hemitter ▸ hbeacon
  have hagree : ∀ node ∈ guardedPost.graph.nodes,
      let kind := guardedPost.names.resolve node.kind
      Kind.isBuiltin kind = false → crowdedRegistry.get? kind = guardedPost.registry.get? kind := by
    refine List.forall_mem_cons.2 ⟨fun h => absurd h (by decide), List.forall_mem_cons.2 ⟨fun _ => rfl,
      List.forall_mem_cons.2 ⟨fun h => absurd h (by decide), List.forall_mem_singleton.2 fun _ => rfl⟩⟩⟩
  obtain ⟨hcrowded, hbuiltin⟩ := hcompile hindifferent
  exact ⟨hagree, hcrowded crowdedRegistry hagree, hbuiltin _ (by decide), by decide +kernel⟩

end Compiler

end TickScript
