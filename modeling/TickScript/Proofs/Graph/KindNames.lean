import TickScript.Compiler
import TickScript.Proofs.Graph.WellFormed
import TickScript.Proofs.Keyed

/-!
# Names for kinds

A name that was defined for a built-in kind is another word for it, and nothing more.
`names_are_other_words` says so of a whole compilation: to build or compile a graph with names comes to
the same as to put the kinds in the places of the names first. This holds of rejected graphs as well,
with all that is reported about them.
-/

namespace TickScript

namespace KindNames

variable {names : KindNames}

/-- What a word means after a list of definitions: the built-in kind that it was defined as last, or
itself. Definitions by anything else than a built-in kind do not count. -/
def meaning (definitions : List (String × String)) (word : String) : String :=
  match (definitions.filter fun (name, kind) => name == word && Kind.isBuiltin kind).getLast? with
  | some (_, kind) => kind
  | none => word

/-- Names stand for built-in kinds only. -/
def Sound (names : KindNames) : Prop :=
  ∀ name kind, names.get? name = some kind → Kind.isBuiltin kind = true

theorem sound_empty : Sound .empty := by
  intro name kind h
  cases h

theorem Sound.define (h : names.Sound) (name builtin : String) : (names.define name builtin).Sound := by
  unfold KindNames.define
  split
  · next hbuiltin =>
    intro other kind hkind
    by_cases hother : other = name
    · subst hother
      rw [Keyed.get?_insert_self] at hkind
      cases hkind
      exact hbuiltin
    · rw [Keyed.get?_insert_of_ne hother] at hkind
      exact h other kind hkind
  · exact h

/-- A word that does not mean a built-in kind is not a name. -/
theorem Sound.resolve_eq_self (h : names.Sound) {word : String}
    (hother : Kind.isBuiltin (names.resolve word) = false) : names.resolve word = word := by
  unfold resolve at hother ⊢
  cases hkind : names.get? word with
  | none => rfl
  | some kind =>
      rw [hkind, Option.getD_some, h word kind hkind] at hother
      cases hother

/-- One more definition changes what its name means, if it is by a built-in kind. -/
theorem resolve_define (names : KindNames) (name builtin word : String) :
    (names.define name builtin).resolve word =
      if name = word ∧ Kind.isBuiltin builtin = true then builtin else names.resolve word := by
  unfold define
  by_cases hbuiltin : Kind.isBuiltin builtin = true
  · rw [if_pos hbuiltin]
    by_cases hname : name = word
    · subst hname
      simp [resolve, hbuiltin]
    · rw [if_neg (fun h => hname h.1), resolve, Keyed.get?_insert_of_ne (Ne.symm hname)]
      rfl
  · rw [if_neg hbuiltin, if_neg (fun h => hbuiltin h.2)]

theorem meaning_append (definitions : List (String × String)) (name builtin word : String) :
    meaning (definitions ++ [(name, builtin)]) word =
      if name = word ∧ Kind.isBuiltin builtin = true then builtin else meaning definitions word := by
  unfold meaning
  rw [List.filter_append]
  by_cases hcounts : name = word ∧ Kind.isBuiltin builtin = true
  · rw [if_pos hcounts]
    simp [hcounts.1, hcounts.2]
  · rw [if_neg hcounts]
    have hnone : [(name, builtin)].filter (fun (name, kind) => name == word && Kind.isBuiltin kind) =
        [] := by
      simpa using hcounts
    rw [hnone, List.append_nil]

end KindNames

namespace Compiler

/-- Define names for kinds, one after the other. -/
def withKindNames (compiler : Compiler) (definitions : List (String × String)) : Compiler :=
  definitions.foldl (fun compiler definition => compiler.withKindName definition.1 definition.2) compiler

/-- Definitions change the names of a compiler and nothing else. The names are sound and give every
word its meaning. -/
theorem withKindNames_eq (graph : Graph) (registry : Emission.Registry)
    (definitions : List (String × String)) :
    ∃ names : KindNames, names.Sound ∧
      (∀ word, names.resolve word = KindNames.meaning definitions word) ∧
      withKindNames { graph, registry } definitions = { graph, names, registry } := by
  -- The definition that is made last decides, so the list is taken apart from its end.
  induction definitions using List.reverseRecOn with
  | nil => exact ⟨.empty, KindNames.sound_empty, fun _ => rfl, rfl⟩
  | append_singleton definitions definition ih =>
      obtain ⟨names, hsound, hmeaning, hcompiler⟩ := ih
      refine ⟨names.define definition.1 definition.2, hsound.define _ _, fun word => ?_, ?_⟩
      · rw [KindNames.resolve_define, KindNames.meaning_append, hmeaning]
      · rw [withKindNames] at hcompiler ⊢
        rw [List.foldl_append, hcompiler]
        rfl

end Compiler

namespace Graph

variable {names : KindNames} {registry : Emission.Registry}

/-- A node with the kind that its word means. -/
def Node.withKind (node : Graph.Node) (meaning : String → String) : Graph.Node :=
  { node with kind := meaning node.kind }

/-- A graph with the kinds that the words of its nodes mean. -/
def withKinds (graph : Graph) (meaning : String → String) : Graph :=
  { graph with nodes := graph.nodes.map (·.withKind meaning) }

namespace Building

/-- A node is resolved to the same with the kind in the place of the name. -/
theorem resolveKind_withKind (node : Graph.Node) (settings : Json.Value) :
    resolveKind .empty registry (node.withKind names.resolve) settings =
      resolveKind names registry node settings := rfl

/-- A node that is not resolved has a word for its kind that means only itself. -/
theorem withKind_eq_self (hsound : names.Sound) {node : Graph.Node} {settings : Json.Value}
    (h : (resolveKind names registry node settings).1 = none) :
    (node.withKind names.resolve).kind = node.kind := by
  apply hsound.resolve_eq_self
  rw [← Kind.shape?_isSome]
  cases hshape : Kind.shape? (names.resolve node.kind) with
  | none => rfl
  | some shape =>
      -- A built-in kind gives a node a kind whatever its settings are.
      simp only [resolveKind, Kind.ofSettings, Kind.withDefaults, hshape, Option.map_some] at h
      split at h <;> simp_all

/-- A node is added alike with the kind in the place of the name. The kind that a defect quotes is not
a name. -/
theorem addNode_withKind (hsound : names.Sound) (building : Building) (node : Graph.Node) :
    addNode .empty registry building (node.withKind names.resolve) =
      addNode names registry building node := by
  unfold addNode
  simp only [resolveKind_withKind]
  cases hresolved : resolveKind names registry node (splitSettings node.settings).2 with
  | mk kind warning =>
      have hkind := @withKind_eq_self names registry hsound node (splitSettings node.settings).2
      rw [hresolved] at hkind
      cases kind with
      | some kind => simp only [Node.withKind, hresolved]
      | none =>
          simp only [hkind rfl]
          simp only [Node.withKind, hresolved]

end Building

/-- A graph is built alike with the kinds in the places of the names. -/
theorem build_withKinds (graph : Graph) (hsound : names.Sound) :
    (graph.withKinds names.resolve).build .empty registry = graph.build names registry := by
  have hnodes : (graph.withKinds names.resolve).assemble .empty registry =
      graph.assemble names registry := by
    unfold assemble withKinds
    rw [List.foldl_map]
    simp only [Building.addNode_withKind hsound]
  have hempty : (graph.withKinds names.resolve).nodes.isEmpty = graph.nodes.isEmpty := by
    simp [withKinds]
  unfold build
  rw [hempty, hnodes]
  rfl

end Graph

namespace Compiler

/-- To define names for kinds comes to the same as to write the kinds that the words of the nodes mean,
in the program, in the script and in everything that is reported. -/
theorem names_are_other_words (graph : Graph) (registry : Emission.Registry)
    (definitions : List (String × String)) :
    let named := withKindNames { graph, registry } definitions
    let written : Compiler := { graph := graph.withKinds (KindNames.meaning definitions), registry }
    named.build = written.build ∧ named.compile = written.compile := by
  obtain ⟨names, hsound, hmeaning, hnamed⟩ := withKindNames_eq graph registry definitions
  rw [hnamed, ← funext hmeaning]
  have hbuild : build { graph, names, registry } =
      build { graph := graph.withKinds names.resolve, registry } :=
    (Graph.build_withKinds graph hsound).symm
  refine ⟨hbuild, ?_⟩
  show compile { graph, names, registry } = compile { graph := graph.withKinds names.resolve, registry }
  unfold compile
  rw [hbuild]

/-- The last definition by a built-in kind counts, and others do not. -/
example : KindNames.meaning
    [("miner", "action.harvest"), ("miner", "action.build"), ("miner", "action.dance")] "miner" =
      "action.build" := by
  decide

end Compiler

end TickScript
