import Mathlib.Data.List.Pairwise
import TickScript.Proofs.Graph.Reports
import TickScript.Proofs.Text.Paths

/-!
# Calls of tasks by their names

A task definition gives its task a trimmed name, and a call is looked up as it stands.
`unknownTask_mem_reported_iff` says which calls are reported as calls of unknown tasks. If every
call repeats a name that some definition was given, these are the calls with blanks at an end of the
name, and those whose definition was left out: `calls_known_iff_trimmed`.
-/

namespace TickScript

/-- A program calls an unknown task exactly if one of its nodes does. -/
theorem Program.unknownTask_mem_defects_iff {program : Program} {id task : String} :
    .unknownTask id task ∈ program.defects ↔ ∃ node ∈ program.nodes.values, node.id = id ∧
      calledTask? node.kind = some task ∧ task ∉ program.tasks.map (·.name) := by
  constructor
  · intro h
    obtain ⟨hdefect, -⟩ | hentry | ⟨name, hdefect, -⟩ |
      ⟨node, hnode, called, hdefect, hcall, hnew⟩ := mem_defects h
    · cases hdefect
    · obtain ⟨hdefect, -⟩ | hdefect | hdefect := mem_entryDefects hentry
      · cases hdefect
      · obtain ⟨_, hdefect, -⟩ := hdefect
        cases hdefect
      · obtain ⟨_, _, _, hdefect, -⟩ := hdefect
        cases hdefect
    · cases hdefect
    · cases hdefect
      exact ⟨node, hnode, rfl, hcall, hnew⟩
  · rintro ⟨node, hnode, rfl, hcall, hnew⟩
    have hnonempty : ¬ program.nodes.isEmpty = true := by
      intro hempty
      rw [Keyed.values, List.isEmpty_iff.1 hempty] at hnode
      cases hnode
    unfold defects
    rw [if_neg hnonempty]
    refine List.mem_append_right _ (List.mem_filterMap.2 ⟨node, hnode, ?_⟩)
    simp only [hcall, List.contains_iff_mem, hnew, if_false]

namespace Graph

variable {graph : Graph} {names : KindNames} {registry : Emission.Registry}

/-! ## What the steps of a build report -/

namespace Building

variable {building : Building}

/-- No call of an unknown task has been reported. -/
def NoUnknownTask (building : Building) : Prop :=
  ∀ id task, .unknownTask id task ∉ building.defects

theorem NoUnknownTask.congr {other : Building} (h : building.NoUnknownTask)
    (hdefects : other.defects = building.defects) : other.NoUnknownTask := by
  unfold NoUnknownTask
  rw [hdefects]
  exact h

theorem NoUnknownTask.reject {defect : Defect} (h : building.NoUnknownTask)
    (hdefect : ∀ id task, defect ≠ .unknownTask id task) :
    (building.reject defect).NoUnknownTask := by
  intro id task hmem
  rcases List.mem_append.1 hmem with hmem | hmem
  · exact h id task hmem
  · exact hdefect id task (List.mem_singleton.1 hmem).symm

theorem NoUnknownTask.addNode (h : building.NoUnknownTask) (node : Graph.Node) :
    (addNode names registry building node).NoUnknownTask := by
  by_cases hold : node.id ∈ building.declared
  · unfold Building.addNode
    rw [if_pos (List.contains_iff_mem.2 hold)]
    exact h.reject nofun
  · cases hkind : node.kind? names registry with
    | none =>
        obtain ⟨warnings, hstep⟩ := addNode_of_no_kind hold hkind
        have hrejected : (building.reject (.unknownKind node.id node.kind)).NoUnknownTask :=
          h.reject nofun
        exact hrejected.congr (by rw [hstep]; rfl)
    | some kind =>
        obtain ⟨warnings, hstep⟩ := addNode_eq hold hkind
        exact h.congr (by rw [hstep])

theorem NoUnknownTask.addEdge (h : building.NoUnknownTask) (edge : Edge) :
    (building.addEdge edge).NoUnknownTask := by
  unfold Building.addEdge
  split
  · exact h.reject nofun
  · split
    · exact h.reject nofun
    · split
      · unfold addConnection
        split
        · exact h.reject nofun
        · exact h.reject nofun
        · exact h.congr update_defects
        · exact h.congr update_defects
        · exact h.congr connect_defects
        · exact h.reject nofun
      · exact h

theorem NoUnknownTask.addTask {state : Building × List Task} (h : state.1.NoUnknownTask)
    (node : TickScript.Node) : (addTask state node).1.NoUnknownTask := by
  obtain ⟨building, tasks⟩ := state
  unfold Building.addTask
  dsimp only
  split
  · split
    · exact h.reject nofun
    · dsimp only
      split <;> exact h
  · exact h

/-- The steps of a build leave it to the check of the program to report unknown tasks. -/
theorem noUnknownTask_of_steps (graph : Graph) (names : KindNames) (registry : Emission.Registry) :
    ((graph.assemble names registry).declaredNodes.foldl addTask
      (graph.assemble names registry, [])).1.NoUnknownTask := by
  have hnodes : (graph.nodes.foldl (Building.addNode names registry) {}).NoUnknownTask :=
    List.foldlRecOn (motive := NoUnknownTask) _ _ (fun _ _ => List.not_mem_nil)
      fun _ h node _ => h.addNode node
  have hedges : (graph.assemble names registry).NoUnknownTask :=
    List.foldlRecOn (motive := NoUnknownTask) _ _ hnodes fun _ h edge _ => h.addEdge edge
  exact List.foldlRecOn (motive := fun state : Building × List Task => state.1.NoUnknownTask) _ _
    hedges fun _ h node _ => h.addTask node

end Building

/-! ## Reported calls -/

/-- All that a build reports, which is nothing if it gives a program. -/
def reported (graph : Graph) (names : KindNames) (registry : Emission.Registry) : List Defect :=
  match graph.build names registry with
  | .ok _ => []
  | .error rejection => rejection.defects

/-- A node defines a task under a name, which stands in its settings. -/
def Node.Defines (names : KindNames) (node : Graph.Node) (name : String) : Prop :=
  names.resolve node.kind = "task.define" ∧ (node.coerced Kind.TaskDefine.record).name = some name

/-- A node calls a task, whose name stands in its settings. -/
def Node.Calls (names : KindNames) (node : Graph.Node) (task : String) : Prop :=
  names.resolve node.kind = "task.call" ∧ (node.coerced Kind.TaskCall.record).task = some task

/-- A name is among the names of tasks exactly if it is a trimmed name of a definition. -/
theorem mem_taskNames_iff {task : String} : task ∈ graph.taskNames names ↔
    ∃ node ∈ graph.nodes, ∃ name, node.Defines names name ∧ Text.trim name = task := by
  simp only [taskNames, List.mem_filterMap, List.mem_filter, beq_iff_eq, Option.map_eq_some_iff,
    Node.Defines]
  constructor
  · rintro ⟨node, ⟨hnode, hkind⟩, name, hname, rfl⟩
    exact ⟨node, hnode, name, ⟨hkind, hname⟩, rfl⟩
  · rintro ⟨node, hnode, name, ⟨hkind, hname⟩, rfl⟩
    exact ⟨node, ⟨hnode, hkind⟩, name, hname, rfl⟩

/-- A call is reported exactly if its node is kept and no kept definition has the name when it is
trimmed. A call without a name is a call of the empty name. -/
theorem unknownTask_mem_reported_iff {id task : String} :
    .unknownTask id task ∈ graph.reported names registry ↔
      ∃ node ∈ kept names registry graph.nodes, node.id = id ∧
        names.resolve node.kind = "task.call" ∧
        (node.coerced Kind.TaskCall.record).task.getD "" = task ∧
        ¬ (task ≠ "" ∧ task ∈ taskNames { graph with nodes := kept names registry graph.nodes }
          names) := by
  by_cases hempty : graph.nodes = []
  · have hreported : graph.reported names registry = [.emptyGraph] := by
      simp [reported, build, hempty]
    simp [hreported, hempty, kept, firsts]
  have hkeeps := assemble_keeps graph names registry
  have hmirrors := hkeeps.mirrors
  obtain ⟨-, -, hnames⟩ := Building.foldl_addTask
    (graph.assemble names registry).declaredNodes (graph.assemble names registry, [])
  have htasks := hnames.trans ((congrArg _ hkeeps.declaredNodes_eq).trans
    (@Building.Mirrors.taskNames_filter names registry
      { graph with nodes := kept names registry graph.nodes } _ hmirrors))
  have hsteps := Building.noUnknownTask_of_steps graph names registry
  have hbuild := @build_eq names registry _ hempty
  dsimp only at hbuild
  generalize (graph.assemble names registry).declaredNodes.foldl Building.addTask
    (graph.assemble names registry, []) = final at htasks hsteps hbuild
  -- The steps report no unknown task, so the report comes from the check of the program.
  have hreported : .unknownTask id task ∈ graph.reported names registry ↔
      .unknownTask id task ∈ (Program.mk graph.name (graph.assemble names registry).entry
        (graph.assemble names registry).nodes final.2).defects := by
    refine Iff.trans ?_ (mem_addDefects.trans (or_iff_right (hsteps id task)))
    rw [reported, hbuild]
    cases addDefects final.1.defects _ with
    | nil => rfl
    | cons defect defects => rfl
  rw [hreported, Program.unknownTask_mem_defects_iff]
  dsimp only
  rw [htasks]
  constructor
  · rintro ⟨built, hbuilt, rfl, hcall, hnew⟩
    obtain ⟨node, hnode, hid, hkind⟩ := hmirrors.exists_node (hmirrors.values_perm.mem_iff.1 hbuilt)
    cases hsettings : built.kind with
    | taskCall settings =>
        rw [hsettings] at hkind hcall
        obtain ⟨hname, rfl⟩ := Node.kind?_eq_taskCall_iff.1 hkind
        exact ⟨node, hnode, hid, hname, Option.some.inj hcall, by simpa [and_comm] using hnew⟩
    | _ =>
        rw [hsettings] at hcall
        cases hcall
  · rintro ⟨node, hnode, rfl, hname, rfl, hnew⟩
    obtain ⟨built, hbuilt, hid, hkind⟩ := hmirrors.built node hnode
    rw [Node.kind?_eq_taskCall_iff.2 ⟨hname, rfl⟩] at hkind
    refine ⟨built, Keyed.mem_values_of_get? hbuilt, hid, ?_, by simpa [and_comm] using hnew⟩
    rw [← Option.some.inj hkind]
    rfl

/-! ## Calls that repeat the name of a definition -/

/-- Every task definition gives a name, these differ when they are trimmed, and every call repeats
one of them. -/
structure CalledAsDefined (graph : Graph) (names : KindNames) : Prop where
  named : ∀ node ∈ graph.nodes, names.resolve node.kind = "task.define" →
    ∃ name, node.Defines names name ∧ Text.trim name ≠ ""
  distinct : (graph.taskNames names).Nodup
  calls : ∀ node ∈ graph.nodes, names.resolve node.kind = "task.call" →
    ∃ task, node.Calls names task ∧ ∃ define ∈ graph.nodes, define.Defines names task

namespace CalledAsDefined

/-- Two definitions whose names are the same when they are trimmed are one. -/
theorem eq_of_trim_eq (h : graph.CalledAsDefined names) {node other : Graph.Node}
    {name otherName : String} (hnode : node ∈ graph.nodes) (hother : other ∈ graph.nodes)
    (hname : node.Defines names name) (hotherName : other.Defines names otherName)
    (htrim : Text.trim name = Text.trim otherName) : node = other := by
  by_contra hne
  have hpairs := List.pairwise_filterMap.1 h.distinct
  have hsymm : Std.Symm fun first second : Graph.Node =>
      ∀ task, (first.coerced Kind.TaskDefine.record).name.map Text.trim = some task →
        ∀ task', (second.coerced Kind.TaskDefine.record).name.map Text.trim = some task' →
          task ≠ task' :=
    ⟨fun _ _ hfirst task htask task' htask' => (hfirst task' htask' task htask).symm⟩
  have hdiffer := hpairs.forall (List.mem_filter.2 ⟨hnode, beq_iff_eq.2 hname.1⟩)
    (List.mem_filter.2 ⟨hother, beq_iff_eq.2 hotherName.1⟩) hne
  exact hdiffer _ (by rw [hname.2]; rfl) _ (by rw [hotherName.2]; rfl) htrim

/-- A called name is known exactly if it has no blanks at its ends and its definition is kept. -/
theorem known_iff (h : graph.CalledAsDefined names) {call : Graph.Node} {task : String}
    (hcall : call ∈ graph.nodes) (htask : call.Calls names task) :
    task ≠ "" ∧ task ∈ taskNames { graph with nodes := kept names registry graph.nodes } names ↔
      Text.trim task = task ∧
        ∃ define ∈ kept names registry graph.nodes, define.Defines names task := by
  have hkept : kept names registry graph.nodes ⊆ graph.nodes := (kept_sublist _).subset
  rw [mem_taskNames_iff]
  constructor
  · rintro ⟨-, node, hnode, name, hname, rfl⟩
    obtain ⟨task, hsame, define, hdefine, hdefined⟩ := h.calls call hcall htask.1
    obtain rfl : task = Text.trim name := Option.some.inj (hsame.2.symm.trans htask.2)
    -- The called name is itself trimmed, and so the definition that it repeats is the kept one.
    have hfixed := Text.trim_trim name
    obtain rfl := h.eq_of_trim_eq (hkept hnode) hdefine hname hdefined hfixed.symm
    exact ⟨hfixed, node, hnode, hdefined⟩
  · rintro ⟨htrim, define, hdefine, hname⟩
    obtain ⟨name, hnamed, hne⟩ := h.named define (hkept hdefine) hname.1
    obtain rfl : name = task := Option.some.inj (hnamed.2.symm.trans hname.2)
    exact ⟨htrim ▸ hne, define, hdefine, name, hname, htrim⟩

end CalledAsDefined

/-- If the ids of a graph differ, the task definitions and calls are kept. -/
theorem mem_kept_of_isBuiltin (hids : (graph.nodes.map (·.id)).Nodup) {node : Graph.Node}
    (hnode : node ∈ graph.nodes) (hkind : Kind.isBuiltin (names.resolve node.kind) = true) :
    node ∈ kept names registry graph.nodes := by
  rw [kept, firsts_of_nodup hids]
  exact List.mem_filter.2 ⟨hnode, Node.kind?_isSome.2 (.inl hkind)⟩

/-- Let every call repeat a name that a definition was given. A call is reported exactly if its name
has blanks at an end or its definition is left out, which happens if an earlier node has the id of
the definition. So if the ids differ, no call is reported exactly if no called name has blanks at
its ends. -/
theorem calls_known_iff_trimmed (graph : Graph) (names : KindNames) (registry : Emission.Registry)
    (h : graph.CalledAsDefined names) :
    (∀ id task, .unknownTask id task ∈ graph.reported names registry ↔
      ∃ call ∈ kept names registry graph.nodes, call.id = id ∧ call.Calls names task ∧
        (Text.trim task ≠ task ∨
          ∀ define ∈ kept names registry graph.nodes, ¬ define.Defines names task)) ∧
    ((graph.nodes.map (·.id)).Nodup →
      ((∀ id task, .unknownTask id task ∉ graph.reported names registry) ↔
        ∀ call ∈ graph.nodes, ∀ task, call.Calls names task → Text.trim task = task)) := by
  have hreported : ∀ id task, .unknownTask id task ∈ graph.reported names registry ↔
      ∃ call ∈ kept names registry graph.nodes, call.id = id ∧ call.Calls names task ∧
        (Text.trim task ≠ task ∨
          ∀ define ∈ kept names registry graph.nodes, ¬ define.Defines names task) := by
    intro id task
    rw [unknownTask_mem_reported_iff]
    refine exists_congr fun call => and_congr_right fun hkept => and_congr_right fun _ => ?_
    have hcall : call ∈ graph.nodes := (kept_sublist _).subset hkept
    constructor
    · rintro ⟨hkind, rfl, hunknown⟩
      obtain ⟨task, htask, -⟩ := h.calls call hcall hkind
      rw [htask.2, Option.getD_some] at hunknown ⊢
      rw [h.known_iff hcall htask] at hunknown
      exact ⟨htask, (not_and_or.1 hunknown).imp_right fun hnone define hdefine hname =>
        hnone ⟨define, hdefine, hname⟩⟩
    · rintro ⟨htask, hfault⟩
      refine ⟨htask.1, by rw [htask.2]; rfl, ?_⟩
      rw [h.known_iff hcall htask]
      rintro ⟨htrim, define, hdefine, hname⟩
      exact hfault.elim (fun hne => hne htrim) fun hnone => hnone define hdefine hname
  refine ⟨hreported, fun hids =>
    ⟨fun hnone call hcall task htask => ?_, fun htrimmed id task => ?_⟩⟩
  · by_contra hne
    have hkept : call ∈ kept names registry graph.nodes :=
      mem_kept_of_isBuiltin hids hcall (by rw [htask.1]; decide)
    exact hnone call.id task ((hreported _ _).2 ⟨call, hkept, rfl, htask, .inl hne⟩)
  · rw [hreported]
    rintro ⟨call, hkept, -, htask, hfault⟩
    have hcall : call ∈ graph.nodes := (kept_sublist _).subset hkept
    obtain ⟨name, hname, define, hdefine, hdefined⟩ := h.calls call hcall htask.1
    obtain rfl : name = task := Option.some.inj (hname.2.symm.trans htask.2)
    have hdefineKept : define ∈ kept names registry graph.nodes :=
      mem_kept_of_isBuiltin hids hdefine (by rw [hdefined.1]; decide)
    exact hfault.elim (fun hne => hne (htrimmed call hcall name htask))
      fun hnone => hnone define hdefineKept hdefined

/-- A call of a task that a definition with the same name in its settings has. -/
def calledTask (name : String) : Graph where
  name := "haulage"
  nodes := [
    { id := "start", kind := "start" },
    { id := "call", kind := "task.call", settings := .object [("task", .text name)] },
    { id := "job", kind := "task.define", settings := .object [("name", .text name)] },
    { id := "spare", kind := "task.define", settings := .object [("name", .text " dig ")] },
    { id := "up", kind := "action.upgrade" }]
  edges := [.flow "start" "call", .flow "job" "up"]

theorem calledTask_calledAsDefined {name : String} (hne : Text.trim name ≠ "")
    (hdig : Text.trim name ≠ "dig") : (calledTask name).CalledAsDefined .empty := by
  have hspare : Text.trim " dig " = "dig" := by decide +kernel
  constructor
  · intro node hnode hdefine
    simp only [calledTask, List.mem_cons, List.not_mem_nil, or_false] at hnode
    obtain rfl | rfl | rfl | rfl | rfl := hnode
    · exact absurd hdefine (show "start" ≠ "task.define" by decide)
    · exact absurd hdefine (show "task.call" ≠ "task.define" by decide)
    · exact ⟨name, ⟨rfl, rfl⟩, hne⟩
    · exact ⟨" dig ", ⟨rfl, rfl⟩, by rw [hspare]; decide⟩
    · exact absurd hdefine (show "action.upgrade" ≠ "task.define" by decide)
  · have hnames : (calledTask name).taskNames .empty = [Text.trim name, Text.trim " dig "] := rfl
    simpa [hnames, hspare] using hdig
  · intro node hnode hcall
    simp only [calledTask, List.mem_cons, List.not_mem_nil, or_false] at hnode
    obtain rfl | rfl | rfl | rfl | rfl := hnode
    · exact absurd hcall (show "start" ≠ "task.call" by decide)
    · exact ⟨name, ⟨rfl, rfl⟩, _, .tail _ (.tail _ (.head _)), rfl, rfl⟩
    · exact absurd hcall (show "task.define" ≠ "task.call" by decide)
    · exact absurd hcall (show "task.define" ≠ "task.call" by decide)
    · exact absurd hcall (show "action.upgrade" ≠ "task.call" by decide)

/-- A task is called by its name, and another one has blanks around its name. -/
theorem calledTask_haul_known : (calledTask "haul").CalledAsDefined .empty ∧
    ∀ id task, .unknownTask id task ∉ (calledTask "haul").reported .empty .empty := by
  have h : (calledTask "haul").CalledAsDefined .empty :=
    calledTask_calledAsDefined (by decide +kernel) (by decide +kernel)
  have htrimmed : ∀ node ∈ (calledTask "haul").nodes, node.kind = "task.call" →
      (node.coerced Kind.TaskCall.record).task.all (fun task => Text.trim task == task) = true := by
    decide +kernel
  refine ⟨h, ((calls_known_iff_trimmed _ _ _ h).2 (by decide)).2 fun call hcall task htask => ?_⟩
  simpa [htask.2] using htrimmed call hcall htask.1

/-- With a blank around the name, the call of the task is reported. -/
theorem calledTask_padded_unknown : (calledTask " haul ").CalledAsDefined .empty ∧
    .unknownTask "call" " haul " ∈ (calledTask " haul ").reported .empty .empty :=
  ⟨calledTask_calledAsDefined (by decide +kernel) (by decide +kernel), by decide +kernel⟩

end Graph

end TickScript
