import TickScript.Emission.File
import TickScript.Proofs.Emission.Statements
import TickScript.Proofs.Walk.Progress

/-!
# Where values are declared and used

The value of a node is looked up among the values that the function has recorded so far, in whatever
block that was. `Context.Sound` keeps account of this for all values that were recorded and asked
for, and `functionContexts_sound` establishes it for every function of a program. A name is in scope
where it was recorded, and stays so while that block is open; afterwards it can still be found.
-/

namespace TickScript.Emission

/-! ## Sound accesses -/

/-- The point at which an access was made. -/
def Access.site : Access → Site
  | .recorded _ _ site | .resolved _ _ _ _ site => site

/-- The values that accesses have recorded, the latest first. -/
def recordings (accesses : List Access) : List (String × String) :=
  accesses.filterMap fun
    | .recorded nodeId expr _ => some (nodeId, expr)
    | .resolved _ _ _ _ _ => none

/-- An access is sound. A value was recorded under a name that was in scope there, or it is a simple
expression that a memory node passes on; a value that was asked for is the last one recorded before,
and there is a warning if none was. -/
def Access.Sound (table : NodeTable) (lines : List Line) (warnings : List Diagnostic)
    (older : List Access) : Access → Prop
  | .recorded nodeId expr site => InScope lines site expr ∨
      ∃ node ∈ table.values, node.id = nodeId ∧ node.kind.isStore = true ∧ Text.isSimple expr = true
  | .resolved consumer source port found _ => found = (recordings older).lookup source ∧
      (found = none → ⟨some consumer, missingValue source port⟩ ∈ warnings)

/-- All accesses are sound and were made in the order of the lines, the latest first. -/
def SoundAccesses (table : NodeTable) (lines : List Line) (warnings : List Diagnostic) :
    List Access → Prop
  | [] => True
  | access :: older => access.Sound table lines warnings older ∧
      access.site.line ≤ lines.length ∧ (∀ other ∈ older, other.site.line ≤ access.site.line) ∧
      SoundAccesses table lines warnings older

/-- The values of a context are those that its accesses have recorded, and these are sound. -/
structure Context.Sound (table : NodeTable) (context : Context) : Prop where
  values : context.values = recordings context.accesses
  accesses : SoundAccesses table context.lines context.diagnostics.warnings context.accesses

variable {table : NodeTable} {lines : List Line} {warnings : List Diagnostic}
  {accesses : List Access}

/-- Accesses stay sound when lines and warnings are added. -/
theorem SoundAccesses.mono (h : SoundAccesses table lines warnings accesses) (written : List Line)
    {more : List Diagnostic} (hwarnings : ∀ warning ∈ warnings, warning ∈ more) :
    SoundAccesses table (lines ++ written) more accesses := by
  induction accesses with
  | nil => trivial
  | cons access older ih =>
      obtain ⟨hsound, hline, horder, holder⟩ := h
      refine ⟨?_, ?_, horder, ih holder⟩
      · cases access with
        | recorded nodeId expr site => exact hsound.imp_left fun hscope => hscope.append hline written
        | resolved consumer source port found site =>
            exact ⟨hsound.1, fun hnone => hwarnings _ (hsound.2 hnone)⟩
      · rw [List.length_append]
        exact Nat.le_trans hline (Nat.le_add_right _ _)

theorem SoundAccesses.lines_le (h : SoundAccesses table lines warnings accesses) :
    ∀ access ∈ accesses, access.site.line ≤ lines.length := by
  induction accesses with
  | nil => simp
  | cons access older ih =>
      obtain ⟨-, hline, -, holder⟩ := h
      exact List.forall_mem_cons.2 ⟨hline, ih holder⟩

/-- A sound access can be added where a function has got to. -/
theorem SoundAccesses.cons {access : Access} (h : SoundAccesses table lines warnings accesses)
    (hline : access.site.line = lines.length)
    (hsound : access.Sound table lines warnings accesses) :
    SoundAccesses table lines warnings (access :: accesses) :=
  ⟨hsound, Nat.le_of_eq hline, fun other hother => hline ▸ h.lines_le other hother, h⟩

/-- A context stays sound when only lines and warnings are added. -/
theorem Context.Sound.extend {context final : Context} (h : context.Sound table)
    (hvalues : final.values = context.values) (haccesses : final.accesses = context.accesses)
    (hlines : context.lines <+: final.lines)
    (hwarnings : context.diagnostics.warnings <+: final.diagnostics.warnings) :
    final.Sound table := by
  obtain ⟨written, hlines⟩ := hlines
  refine ⟨by rw [hvalues, haccesses, h.values], ?_⟩
  rw [haccesses, ← hlines]
  exact h.accesses.mono written fun _ hwarning => hwarnings.subset hwarning

/-- Statements keep a context sound. -/
theorem Composes.sound {context final : Context} (h : Composes table context final)
    (hsound : context.Sound table) : final.Sound table := by
  induction h with
  | done => exact hsound
  | say text _ ih => exact ih (hsound.extend rfl rfl (List.prefix_append _ _) List.prefix_rfl)
  | deeper _ _ ihbody ih =>
      have hbody := ihbody (hsound.extend rfl rfl List.prefix_rfl List.prefix_rfl)
      exact ih (hbody.extend rfl rfl List.prefix_rfl List.prefix_rfl)
  | fresh _ _ _ ih => exact ih (hsound.extend rfl rfl List.prefix_rfl List.prefix_rfl)
  | require _ _ _ _ ih => exact ih (hsound.extend rfl rfl List.prefix_rfl List.prefix_rfl)
  | warn _ _ _ ih => exact ih (hsound.extend rfl rfl List.prefix_rfl (List.prefix_append _ _))
  | @found context _ consumer source port expr hfound _ ih =>
      refine ih ⟨hsound.values, hsound.accesses.cons rfl ⟨?_, fun hnone => ?_⟩⟩
      · rw [Context.valueOf?, hsound.values]
      · rw [hfound] at hnone
        cases hnone
  | @missed context _ consumer source port hmissed _ ih =>
      -- The warning comes after the access, but the access is sound only with it.
      have hwarned : (context.warn consumer (missingValue source port)).Sound table :=
        hsound.extend rfl rfl List.prefix_rfl (List.prefix_append _ _)
      refine ih ⟨hsound.values, hwarned.accesses.cons rfl ⟨?_, fun _ => ?_⟩⟩
      · rw [Context.valueOf?, hsound.values]
        rfl
      · simp [Context.warn, Diagnostics.warn]
  | standIn _ _ _ _ _ _ ih => exact ih (hsound.extend rfl rfl List.prefix_rfl List.prefix_rfl)
  | warned _ _ _ _ _ _ _ ih =>
      exact ih (hsound.extend rfl rfl List.prefix_rfl (List.prefix_append _ _))
  | record node expr hnode hexpr _ ih =>
      refine ih ⟨by rw [Context.record, hsound.values]; rfl, hsound.accesses.cons rfl ?_⟩
      exact hexpr.imp_right fun hstore => ⟨node, hnode, rfl, hstore⟩

/-- A value that is found was recorded, and no other has been recorded since. -/
theorem recorded_of_lookup {source expr : String}
    (h : (recordings accesses).lookup source = some expr) :
    ∃ since site before, accesses = since ++ .recorded source expr site :: before ∧
      ∀ other later, .recorded source other later ∉ since := by
  induction accesses with
  | nil => cases h
  | cons access older ih =>
      cases access with
      | resolved consumer asked port found site =>
          obtain ⟨since, place, before, holder, hlatest⟩ := ih h
          exact ⟨.resolved consumer asked port found site :: since, place, before, by rw [holder]; rfl,
            by simpa using hlatest⟩
      | recorded nodeId recorded site =>
          change ((nodeId, recorded) :: recordings older).lookup source = some expr at h
          rw [List.lookup_cons] at h
          by_cases hsame : source = nodeId
          · subst hsame
            simp only [beq_self_eq_true, Option.some.injEq] at h
            subst h
            exact ⟨[], site, older, rfl, by simp⟩
          · have hfalse : (source == nodeId) = false := beq_eq_false_iff_ne.2 hsame
            rw [hfalse] at h
            obtain ⟨since, place, before, holder, hlatest⟩ := ih h
            refine ⟨.recorded nodeId recorded site :: since, place, before, by rw [holder]; rfl, ?_⟩
            intro other later hmem
            rcases List.mem_cons.1 hmem with heq | hmem
            · cases heq
              exact hsame rfl
            · exact hlatest other later hmem

/-- Where no value is found none was recorded. -/
theorem not_recorded_of_lookup {source : String}
    (h : (recordings accesses).lookup source = none) (expr : String) (site : Site) :
    .recorded source expr site ∉ accesses := by
  intro hmem
  have hvalue : (source, expr) ∈ recordings accesses := List.mem_filterMap.2 ⟨_, hmem, rfl⟩
  have hne := List.lookup_eq_none_iff.1 h _ hvalue
  simp at hne

/-! ## The functions of a program -/

namespace Walk

/-- A visit of a plain setting does to the context what statements do. -/
theorem visit_writes {setting : Setting} (hplain : setting.Plain) (budget : Nat) (id : String) :
    Writes setting.table (visit setting budget id) := by
  refine visit_obeys (fun _ state => Composes.done state.context)
    (fun _ state => Composes.done state.context) ?_ budget id
  intro follow hfollow id node state hnode
  have hchains (ids : List String) : Writes setting.table (ids.forM follow) := .forM hfollow
  have hdispatch := dispatch_obeys (hplain.isPlain hnode) (Keyed.mem_values_of_get? hnode) hchains
    ((state.enter id).opened setting id node) trivial
  exact write_obeys id (state.enter id) (hplain.isPlain hnode) hfollow hdispatch.1

end Walk

/-- The contexts of tasks that are written one after the other. -/
def taskContexts (setting : Setting) (context : Context) : List Task → List Context
  | [] => []
  | task :: tasks =>
    let child := taskContext setting context task
    child :: taskContexts setting (context.absorb child) tasks

/-- The contexts of all functions of a program, that of the main function first. -/
def functionContexts (program : Program) (registry : Registry) : List Context :=
  let setting : Setting := ⟨program.nodes, registry⟩
  let main := runWalk setting {} program.entry
  main :: taskContexts setting { main with lines := [] } program.tasks

/-- A walk of a plain setting does to the context what statements do. -/
theorem runWalk_composes {setting : Setting} (hplain : setting.Plain) (context : Context)
    (entry : String) : Composes setting.table context (runWalk setting context entry) :=
  (Walk.visit_writes hplain (setting.table.size + 1) entry { context } trivial).1

theorem taskContexts_composed {setting : Setting} (hplain : setting.Plain) (context : Context)
    (tasks : List Task) : ∀ child ∈ taskContexts setting context tasks,
      ∃ imports, Composes setting.table { imports, actor := taskActor } child := by
  induction tasks generalizing context with
  | nil => simp [taskContexts]
  | cons task tasks ih =>
      refine List.forall_mem_cons.2 ⟨⟨context.imports, ?_⟩, ih _⟩
      unfold taskContext
      split
      · exact runWalk_composes hplain context.child _
      · exact .warn _ _ (.done _)

/-- The context of every function is composed from one that knows only imports and the acting unit. -/
theorem functionContexts_composed {program : Program} {registry : Registry}
    (hplain : (Setting.mk program.nodes registry).Plain) :
    ∀ context ∈ functionContexts program registry,
      ∃ imports actor, Composes program.nodes { imports, actor } context := by
  refine List.forall_mem_cons.2 ⟨⟨{}, mainActor, runWalk_composes hplain {} _⟩, ?_⟩
  intro context hcontext
  obtain ⟨imports, hcomposed⟩ := taskContexts_composed hplain _ _ context hcontext
  exact ⟨imports, taskActor, hcomposed⟩

/-- The contexts of all functions are sound. -/
theorem functionContexts_sound {program : Program} {registry : Registry}
    (hplain : (Setting.mk program.nodes registry).Plain) :
    ∀ context ∈ functionContexts program registry, context.Sound program.nodes := by
  intro context hcontext
  obtain ⟨imports, actor, hcomposed⟩ := functionContexts_composed hplain context hcontext
  exact hcomposed.sound ⟨rfl, trivial⟩

/-- Tasks are written from their contexts, whose warnings are all kept. -/
theorem emitTasks_spec (setting : Setting) (context : Context) (tasks : List Task) :
    let children := taskContexts setting context tasks
    let written := emitTasks setting context tasks
    written.1.map (·.body) = children.map (·.lines) ∧
      (∀ warning ∈ context.diagnostics.warnings, warning ∈ written.2.diagnostics.warnings) ∧
      ∀ child ∈ children, ∀ warning ∈ child.diagnostics.warnings,
        warning ∈ written.2.diagnostics.warnings := by
  induction tasks generalizing context with
  | nil => exact ⟨rfl, fun _ h => h, by simp [taskContexts]⟩
  | cons task tasks ih =>
      obtain ⟨hbodies, hkept, hchildren⟩ := ih (context.absorb (taskContext setting context task))
      refine ⟨?_, fun warning hwarning => hkept warning ?_, List.forall_mem_cons.2 ⟨?_, hchildren⟩⟩
      · exact congrArg (List.cons _) hbodies
      · exact List.mem_append_left _ hwarning
      · intro warning hwarning
        exact hkept warning (List.mem_append_right _ hwarning)

/-- The bodies of the functions of a program are the lines of their contexts. -/
theorem functions_bodies (program : Program) (registry : Registry) :
    (functions program registry).1.body :: (functions program registry).2.1.map (·.body) =
      (functionContexts program registry).map (·.lines) :=
  congrArg (List.cons _) (emitTasks_spec _ _ _).1

/-- The warnings of all functions are warnings of the script. -/
theorem functionContexts_warnings (program : Program) (registry : Registry) :
    ∀ context ∈ functionContexts program registry, ∀ warning ∈ context.diagnostics.warnings,
      warning ∈ (assemble program registry).warnings := by
  obtain ⟨-, hmain, htasks⟩ := emitTasks_spec ⟨program.nodes, registry⟩
    { runWalk ⟨program.nodes, registry⟩ {} program.entry with lines := [] } program.tasks
  exact List.forall_mem_cons.2 ⟨hmain, htasks⟩

/-! ## Resolved inputs -/

/-- How an input was resolved, by the accesses that were made before it. With nothing recorded for
the source there is a warning. Otherwise the input is the value recorded last, be its block open or
not. It is a name that was in scope where it was recorded, or a simple expression that a memory node
passes on, and it is in scope where it is used if the block of the former place is still open. -/
def ResolvedBy (table : NodeTable) (lines : List Line) (warnings : List Diagnostic)
    (older : List Access) (consumer source port : String) (site : Site) : Option String → Prop
  | none => (∀ expr place, .recorded source expr place ∉ older) ∧
      ⟨some consumer, missingValue source port⟩ ∈ warnings
  | some name => ∃ since place before, older = since ++ .recorded source name place :: before ∧
      (∀ expr other, .recorded source expr other ∉ since) ∧
      (InScope lines place name ∨ ∃ node ∈ table.values, node.id = source ∧
        node.kind.isStore = true ∧ Text.isSimple name = true) ∧
      (InScope lines place name → StaysOpen lines place site → InScope lines site name)

/-- Accesses that are sound stay so without the later ones. -/
theorem SoundAccesses.tail {newer : List Access} {access : Access} {older : List Access}
    (h : SoundAccesses table lines warnings (newer ++ access :: older)) :
    SoundAccesses table lines warnings (access :: older) := by
  induction newer with
  | nil => exact h
  | cons _ _ ih => exact ih h.2.2.2

/-- Every input of a sound context was resolved by what was recorded before. -/
theorem Context.Sound.resolvedBy {context : Context} (h : context.Sound table)
    {newer older : List Access} {consumer source port : String} {found : Option String} {site : Site}
    (haccesses : context.accesses = newer ++ .resolved consumer source port found site :: older) :
    ResolvedBy table context.lines context.diagnostics.warnings older consumer source port site
      found := by
  have hsound := h.accesses
  rw [haccesses] at hsound
  obtain ⟨⟨hfound, hwarned⟩, -, horder, holder⟩ := hsound.tail
  cases found with
  | none => exact ⟨not_recorded_of_lookup hfound.symm, hwarned rfl⟩
  | some name =>
      obtain ⟨since, place, before, rfl, hlatest⟩ := recorded_of_lookup hfound.symm
      have hplace : place.line ≤ site.line :=
        horder (.recorded source name place) (List.mem_append_right _ List.mem_cons_self)
      refine ⟨since, place, before, rfl, hlatest, holder.tail.1, fun hscope hopen => ?_⟩
      exact hscope.later hopen hplace

/-- In every function of a program, an input that is connected to a node is resolved to the value
recorded last for that node, and to `undefined` with a warning if there is none. -/
theorem inputs_resolved_by_last_record (program : Program) (registry : Registry)
    (hplain : (Setting.mk program.nodes registry).Plain) :
    ((functions program registry).1.body :: (functions program registry).2.1.map (·.body) =
      (functionContexts program registry).map (·.lines)) ∧
    (∀ (context : Context) (consumer source port : String) (fallback : Literal),
      let run := (Emit.resolve consumer (some (.edge source port)) fallback).run context
      run.1 = (context.valueOf? source).getD "undefined" ∧
        run.2.accesses = .resolved consumer source port (context.valueOf? source) context.site ::
          context.accesses) ∧
    ∀ context ∈ functionContexts program registry, ∀ newer consumer source port found site older,
      context.accesses = newer ++ .resolved consumer source port found site :: older →
        ResolvedBy program.nodes context.lines (assemble program registry).warnings older consumer
          source port site found := by
  refine ⟨functions_bodies program registry, ?_, ?_⟩
  · intro context consumer source port fallback
    rw [Emit.resolve_edge]
    cases hvalue : context.valueOf? source <;> simp [Context.ask, Context.warn, unresolved, hvalue]
  · intro context hcontext newer consumer source port found site older haccesses
    have hresolved := (functionContexts_sound hplain context hcontext).resolvedBy haccesses
    cases found with
    | none =>
        exact ⟨hresolved.1, functionContexts_warnings program registry context hcontext _ hresolved.2⟩
    | some name => exact hresolved

/-- A search before a branch, whose result is used inside of the branch. -/
def openBranch : Program where
  fileId := "open"
  entry := "start"
  nodes := .ofList [
    ("start", { id := "start", kind := .start, outputs := ["find"] }),
    ("find", { id := "find", kind := .search {}, outputs := ["check"] }),
    ("check",
      { id := "check", kind := .branch, inputs := .ofList [("condition", .literal (.text "x"))],
        slots := .ofList [("true", ["pick"])] }),
    ("pick",
      { id := "pick", kind := .best {}, inputs := .ofList [("list", .edge "find" "value")] })]

/-- The name of the search is in scope inside of the branch. -/
theorem openBranch_name_in_scope :
    (Setting.mk openBranch.nodes .empty).Plain ∧
      ∀ context ∈ functionContexts openBranch .empty, InScope context.lines ⟨2, 2⟩ "found_1" := by
  have hplain : (Setting.mk openBranch.nodes .empty).Plain := by decide +kernel
  have haccesses : ∀ context ∈ functionContexts openBranch .empty, context.accesses =
      [.recorded "pick" "best_2" ⟨3, 2⟩] ++ .resolved "pick" "find" "value" (some "found_1") ⟨2, 2⟩ ::
        [.recorded "find" "found_1" ⟨1, 0⟩] := by
    decide +kernel
  have hopen : ∀ context ∈ functionContexts openBranch .empty,
      StaysOpen context.lines ⟨1, 0⟩ ⟨2, 2⟩ := by
    unfold StaysOpen
    decide +kernel
  have hstore : ¬ ∃ node ∈ openBranch.nodes.values, node.id = "find" ∧ node.kind.isStore = true ∧
      Text.isSimple "found_1" = true := by
    decide +kernel
  refine ⟨hplain, fun context hcontext => ?_⟩
  obtain ⟨since, place, before, holder, -, hscope, hkept⟩ :=
    (inputs_resolved_by_last_record openBranch .empty hplain).2.2 context hcontext _ _ _ _ _ _ _
      (haccesses context hcontext)
  have hplace : .recorded "find" "found_1" place ∈ [Access.recorded "find" "found_1" ⟨1, 0⟩] := by
    rw [holder]
    simp
  obtain rfl : place = ⟨1, 0⟩ := by simpa using hplace
  exact hkept (hscope.resolve_right hstore) (hopen context hcontext)

/-- A search inside of a branch, whose result is used after the branch. -/
def closedBranch : Program where
  fileId := "closed"
  entry := "start"
  nodes := .ofList [
    ("start", { id := "start", kind := .start, outputs := ["check"] }),
    ("check",
      { id := "check", kind := .branch, inputs := .ofList [("condition", .literal (.text "x"))],
        outputs := ["pick"], slots := .ofList [("true", ["find"])] }),
    ("find", { id := "find", kind := .search {} }),
    ("pick",
      { id := "pick", kind := .best {}, inputs := .ofList [("list", .edge "find" "value")] })]

/-- The name of the search is used although its block has been left. -/
theorem closedBranch_uses_hidden_name :
    closedBranch.defects = [] ∧ (Setting.mk closedBranch.nodes .empty).Plain ∧
      ∃ context ∈ functionContexts closedBranch .empty,
        .resolved "pick" "find" "value" (some "found_1") ⟨3, 0⟩ ∈ context.accesses ∧
          ¬ InScope context.lines ⟨3, 0⟩ "found_1" := by
  refine ⟨by decide +kernel, by decide +kernel, _, List.mem_cons_self, by decide +kernel, ?_⟩
  rintro ⟨before, line, between, depth, hlines, hdeclares, hdepth, -⟩
  have hnone : ∀ line ∈ (runWalk ⟨closedBranch.nodes, .empty⟩ {} closedBranch.entry).lines.take 3,
      ¬ line.Declares "found_1" 0 := by
    decide +kernel
  -- The use is not indented, so only a declaration of the outermost block could be in scope.
  obtain rfl : depth = 0 := Nat.le_zero.1 hdepth
  exact hnone line (by rw [hlines]; simp) hdeclares

end TickScript.Emission
