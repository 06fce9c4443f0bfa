import TickScript.Proofs.Emission.Merging
import TickScript.Proofs.Emission.Values
import TickScript.Proofs.Walk.Evolution

/-!
# Aliases in the code

A function writes the alias that it was given for a symbol into its code long before the import
statements of the file are written. A context that evolves keeps its aliases, so `aliases_stay_imported`
concludes that an alias in the code of a function is the alias of its symbol in the file, and of no
other. An emitter may also write code in a context of its own, whose imports are taken over later; then
its aliases stay exactly if they do not clash with those that were given out meanwhile.
-/

namespace TickScript.Emission

/-! ## Contexts -/

/-- Symbols were asked for or taken over since an earlier context. Those that were asked for were noted
with their aliases. -/
structure Context.Grants (context final : Context) : Prop where
  known : context.imports.Known final.imports
  coherent : context.imports.Coherent → final.imports.Coherent
  kept : context.aliases <:+ final.aliases
  noted : ∀ entry ∈ final.aliases, entry ∈ context.aliases ∨
    final.imports.localName? entry.1 entry.2.1 = some entry.2.2

namespace Context

variable {context middle final : Context}

namespace Grants

/-- Nothing was asked for. -/
theorem of_eq (himports : final.imports = context.imports)
    (haliases : final.aliases = context.aliases) : context.Grants final where
  known := himports ▸ fun _ _ _ hname => hname
  coherent := fun h => himports ▸ h
  kept := haliases ▸ List.suffix_rfl
  noted := fun _ hentry => .inl (haliases ▸ hentry)

theorem trans (hfirst : context.Grants middle) (hlater : middle.Grants final) :
    context.Grants final where
  known := hfirst.known.trans hlater.known
  coherent := fun h => hlater.coherent (hfirst.coherent h)
  kept := hfirst.kept.trans hlater.kept
  noted := by
    intro entry hentry
    rcases hlater.noted entry hentry with hmiddle | hfinal
    · exact (hfirst.noted entry hmiddle).imp_right (hlater.known _ _ _)
    · exact .inr hfinal

theorem withImport (context : Context) (symbol module : String) :
    context.Grants (context.withImport symbol module) where
  known := context.imports.known_require symbol module
  coherent := fun h => h.require symbol module
  kept := List.suffix_cons _ _
  noted := by
    intro entry hentry
    rcases List.mem_cons.1 hentry with rfl | hentry
    · exact .inr (Imports.localName?_require _ _ _)
    · exact .inl hentry

theorem absorb (context finished : Context) : context.Grants (context.absorb finished) where
  known := context.imports.known_mergeUpTo finished.imports.toList
  coherent := fun h => h.merge finished.imports
  kept := List.suffix_rfl
  noted := fun _ hentry => .inl hentry

end Grants

theorem Step.grants (h : Step context final) : context.Grants final := by
  cases h with
  | withImport symbol module => exact .withImport context symbol module
  | absorb finished => exact .absorb context finished
  | issue | push | enter | exit | takeLines | record | ask | standIn | warn => exact .of_eq rfl rfl

/-- A context that evolves keeps its aliases. -/
theorem Evolves.grants (h : context.Evolves final) : context.Grants final := by
  induction h with
  | refl => exact .of_eq rfl rfl
  | tail _ hstep ih => exact ih.trans hstep.grants

end Context

/-! ## Functions -/

variable {setting : Setting} {context : Context}

theorem runWalk_evolves (setting : Setting) (context : Context) (entry : String) :
    context.Evolves (runWalk setting context entry) :=
  Walk.visit_evolves setting (setting.table.size + 1) entry { context }

theorem taskContext_evolves (setting : Setting) (context : Context) (task : Task) :
    context.child.Evolves (taskContext setting context task) := by
  unfold taskContext
  split
  · exact runWalk_evolves setting context.child _
  · exact .single (.warn _ _ _)

/-- A context that has not changed meanwhile takes over the imports of a child as they are. -/
theorem Context.absorb_imports {child : Context} (h : context.imports.Coherent)
    (hchild : context.child.Evolves child) : (context.absorb child).imports = child.imports :=
  (Imports.merge_eq_iff h (hchild.grants.coherent h)).2 hchild.grants.known

/-- The imports of tasks that are written one after the other grow from task to task, and every alias
that a task is given is one of its imports. -/
theorem emitTasks_grants (setting : Setting) (tasks : List Task) (h : context.imports.Coherent) :
    let imports := (emitTasks setting context tasks).2.imports
    context.imports.Known imports ∧ imports.Coherent ∧
      ∀ child ∈ taskContexts setting context tasks, child.imports.Known imports ∧
        ∀ entry ∈ child.aliases, child.imports.localName? entry.1 entry.2.1 = some entry.2.2 := by
  induction tasks generalizing context with
  | nil => exact ⟨fun _ _ _ hname => hname, h, by simp [taskContexts]⟩
  | cons task tasks ih =>
      have hchild := taskContext_evolves setting context task
      have habsorb := context.absorb_imports h hchild
      have hcoherent : (context.absorb (taskContext setting context task)).imports.Coherent :=
        (Context.Grants.absorb context _).coherent h
      obtain ⟨hknown, hfinal, hchildren⟩ := ih hcoherent
      rw [habsorb] at hknown
      refine ⟨hchild.grants.known.trans hknown, hfinal,
        List.forall_mem_cons.2 ⟨⟨hknown, fun entry hentry => ?_⟩, hchildren⟩⟩
      exact (hchild.grants.noted entry hentry).resolve_left (by simp [Context.child])

/-- The imports of a file are coherent, and they are those that its functions are given. -/
theorem functions_grants (program : Program) (registry : Registry) :
    let imports := (functions program registry).2.2.imports
    imports.Coherent ∧ ∀ context ∈ functionContexts program registry,
      context.imports.Known imports ∧
        ∀ entry ∈ context.aliases, imports.localName? entry.1 entry.2.1 = some entry.2.2 := by
  have hmain := (runWalk_evolves ⟨program.nodes, registry⟩ {} program.entry).grants
  obtain ⟨hknown, hcoherent, htasks⟩ := @emitTasks_grants
    { runWalk ⟨program.nodes, registry⟩ {} program.entry with lines := [] }
    ⟨program.nodes, registry⟩ program.tasks (hmain.coherent Imports.Built.empty.coherent)
  refine ⟨hcoherent, List.forall_mem_cons.2 ⟨⟨hknown, fun entry hentry => ?_⟩, ?_⟩⟩
  · exact hknown _ _ _ ((hmain.noted entry hentry).resolve_left (by simp))
  · intro child hchild
    obtain ⟨hchildKnown, hnoted⟩ := htasks child hchild
    exact ⟨hchildKnown, fun entry hentry => hchildKnown _ _ _ (hnoted entry hentry)⟩

theorem functions_coherent (program : Program) (registry : Registry) :
    (functions program registry).2.2.imports.Coherent :=
  (functions_grants program registry).1

/-- The aliases that the functions of a program are given are noted and not forgotten, and in the
imports of the file each of them is the alias of its symbol and of no other one. A task body begins
with the imports made so far, and afterwards its imports are those of the file so far. The same holds
of any context that is begun and finished while its parent stays as it was. In general another context
is taken over with its imports as they are exactly if these know the aliases given out meanwhile, and
all its aliases stay, to the end of the file, exactly if none of them clashes with one of those. -/
theorem aliases_stay_imported (program : Program) (registry : Registry) :
    let setting : Setting := ⟨program.nodes, registry⟩
    let imports := (functions program registry).2.2.imports
    ((functions program registry).1.body :: (functions program registry).2.1.map (·.body) =
      (functionContexts program registry).map (·.lines)) ∧
    (∀ (symbol module : String) (context : Context),
      let run := (Emit.require symbol module).run context
      run.2.aliases = (module, symbol, run.1) :: context.aliases) ∧
    (∀ (id : String) (state : Walk.State),
      state.context.Evolves (Walk.after (Walk.walk setting id) state).context) ∧
    (∀ (parent : Context) (task : Task),
      parent.child.Evolves (taskContext setting parent task)) ∧
    (∀ earlier later : Context, earlier.Evolves later →
      earlier.aliases <:+ later.aliases ∧ earlier.imports.Known later.imports ∧
        (earlier.imports.Coherent → later.imports.Coherent)) ∧
    (imports.Coherent ∧ ∀ context ∈ functionContexts program registry,
      context.imports.Known imports ∧ ∀ module symbol localName,
        (module, symbol, localName) ∈ context.aliases →
          imports.localName? module symbol = some localName ∧
            ∀ module' symbol', imports.localName? module' symbol' = some localName →
              module' = module ∧ symbol' = symbol) ∧
    (∀ parent child : Context, parent.imports.Coherent → parent.child.Evolves child →
      (∀ entry ∈ child.aliases,
        child.imports.localName? entry.1 entry.2.1 = some entry.2.2) ∧
      (parent.absorb child).imports = child.imports) ∧
    ∀ meanwhile finished : Context, meanwhile.imports.Coherent → finished.imports.Coherent →
      ((meanwhile.absorb finished).imports = finished.imports ↔
        meanwhile.imports.Known finished.imports) ∧
      ∀ later : Imports, later.Coherent → (meanwhile.absorb finished).imports.Known later →
        (finished.imports.Known later ↔ meanwhile.imports.Compatible finished.imports) := by
  obtain ⟨hcoherent, hcontexts⟩ := functions_grants program registry
  refine ⟨functions_bodies program registry, fun _ _ _ => rfl, Walk.visit_evolves _ _,
    taskContext_evolves _, fun earlier later hevolves => ?_, ⟨hcoherent, ?_⟩, ?_, ?_⟩
  · exact ⟨hevolves.grants.kept, hevolves.grants.known, hevolves.grants.coherent⟩
  · intro context hcontext
    obtain ⟨hknown, hnoted⟩ := hcontexts context hcontext
    refine ⟨hknown, fun module symbol localName hentry => ?_⟩
    have hname := hnoted (module, symbol, localName) hentry
    exact ⟨hname, fun module' symbol' hother => (hcoherent.compatible _ _ _ _ _ _ hother hname).1 rfl⟩
  · intro parent child hparent hchild
    refine ⟨fun entry hentry => ?_, parent.absorb_imports hparent hchild⟩
    exact (hchild.grants.noted entry hentry).resolve_left (by simp [Context.child])
  · intro meanwhile finished hmeanwhile hfinished
    refine ⟨Imports.merge_eq_iff hmeanwhile hfinished, fun later hlater hknown => ?_⟩
    constructor
    · have hkept := (Context.Grants.absorb meanwhile finished).known.trans hknown
      exact .of_known hlater hkept
    · intro hcompatible
      exact ((Imports.known_merge_iff hmeanwhile hfinished).2 hcompatible).trans hknown

/-- Two kinds whose emitters ask for symbols of a name that a built-in kind asks for as well. -/
def rivals : Registry :=
  Registry.register (Registry.register .empty
    ⟨"hop", [.require "travelTo" "./hop", .statement "$R(creep);"], false⟩)
    ⟨"skip", [.require "travelTo" "./skip", .statement "$R(args.creep);"], false⟩

/-- A function with one kind of the registry and a built-in one, and a task with the other kind. -/
def rivalImports : Program where
  fileId := "rivals"
  entry := "start"
  nodes := .ofList [
    ("start", { id := "start", kind := .start, outputs := ["hop"] }),
    ("hop", { id := "hop", kind := .custom ⟨"hop", .null⟩, outputs := ["move"] }),
    ("move", { id := "move", kind := .move {} }),
    ("job", { id := "job", kind := .taskDefine { name := some "job" }, outputs := ["skip"] }),
    ("skip", { id := "skip", kind := .custom ⟨"skip", .null⟩, outputs := ["move"] })]
  tasks := [⟨"job", [], some "skip", "job"⟩]

/-- A context in which a symbol of a module was asked for. -/
def askedFor (context : Context) (symbol module : String) : Context :=
  ((Emit.require symbol module).run context).2

/-- The task is given the alias of the main function for one symbol and a new one for another, and
the file imports all three symbols under their aliases. A context that asks for a symbol while its
parent asks for another one is taken over with its alias, if the two have different names. -/
theorem rivalImports_imported :
    (∃ context ∈ functionContexts rivalImports rivals, context.aliases =
      [("./lib/movement", "travelTo", "travelTo_1"), ("./skip", "travelTo", "travelTo_2")]) ∧
    (functions rivalImports rivals).2.2.imports.localName? "./skip" "travelTo" = some "travelTo_2" ∧
    (Context.absorb {} (askedFor (Context.child {}) "x" "m1")).imports =
      (askedFor (Context.child {}) "x" "m1").imports ∧
    ((askedFor {} "y" "m2").absorb (askedFor (Context.child {}) "x" "m1")).imports.localName? "m1" "x" =
      some "x" := by
  have htask : ∃ context ∈ functionContexts rivalImports rivals, context.aliases =
      [("./lib/movement", "travelTo", "travelTo_1"), ("./skip", "travelTo", "travelTo_2")] := by
    decide +kernel
  have hempty : Imports.Coherent {} := Imports.Built.empty.coherent
  have hchild : (askedFor (Context.child {}) "x" "m1").imports.Coherent := hempty.require "x" "m1"
  have hmeanwhile : (askedFor {} "y" "m2").imports.Coherent := hempty.require "y" "m2"
  obtain ⟨-, -, -, -, -, ⟨-, hkept⟩, habsorb, hclash⟩ := aliases_stay_imported rivalImports rivals
  refine ⟨htask, ?_, ?_, ?_⟩
  · obtain ⟨context, hcontext, haliases⟩ := htask
    exact ((hkept context hcontext).2 "./skip" "travelTo" "travelTo_2" (by simp [haliases])).1
  · exact (habsorb {} _ hempty (.single (.withImport _ "x" "m1"))).2
  · obtain ⟨-, hlater⟩ := hclash (askedFor {} "y" "m2") _ hmeanwhile hchild
    have hkept := (hlater _ (hmeanwhile.merge _) fun _ _ _ hname => hname).2 (by decide +kernel)
    exact hkept "m1" "x" "x" (by decide +kernel)

/-- An emitter that begins a context of its own. In it and in the one that it writes to, it asks for
symbols of the same name, and then it takes its own context over. -/
def nesting : NodeEmitter where
  kind := "nest"
  emit _ _ := do
    let parent ← Routine.request .look
    let (inner, child) := (Emit.require "x" "m1").run parent.child
    let outer ← Routine.request (.require "x" "m2")
    Routine.request (.absorb child)
    Routine.request (.say (outer ++ "(() => " ++ inner ++ "());"))
    return .outputs

/-- A function with one node of that kind. -/
def nested : Program where
  fileId := "nested"
  entry := "start"
  nodes := .ofList [
    ("start", { id := "start", kind := .start, outputs := ["nest"] }),
    ("nest", { id := "nest", kind := .custom ⟨"nest", .null⟩ })]
  tasks := []

/-- Both symbols get the alias that is their name, and the code uses it for both. In the file it stands
for the one symbol only, and the other one is imported under another alias. The imports of the parent
are not those of the child that it has taken over. -/
theorem nested_alias_lost :
    let file := functions nested (Registry.add .empty nesting)
    let child := (Emit.require "x" "m1").run (Context.child {})
    let meanwhile := (Emit.require "x" "m2").run {}
    child.1 = "x" ∧ meanwhile.1 = "x" ∧ file.1.body = [.flush "x(() => x());"] ∧
      file.2.2.imports.localName? "m1" "x" = some "x_1" ∧
      file.2.2.imports.localName? "m2" "x" = some "x" ∧
      ¬ meanwhile.2.imports.Compatible child.2.imports ∧
      (meanwhile.2.absorb child.2).imports ≠ child.2.imports := by
  intro file child meanwhile
  have hother : (meanwhile.2.absorb child.2).imports.localName? "m1" "x" ≠
      child.2.imports.localName? "m1" "x" := by decide +kernel
  refine ⟨rfl, rfl, by decide +kernel, by decide +kernel, by decide +kernel, by decide +kernel, ?_⟩
  exact fun heq => hother (heq ▸ rfl)

end TickScript.Emission
