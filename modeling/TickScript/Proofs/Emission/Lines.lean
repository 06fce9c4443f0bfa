import TickScript.Proofs.Emission.TidyWalks

/-!
# Lines of scripts

Every line of a function is of one line if the texts of the nodes are, but for the comments of the
fan-outs that its walk comes to. Conversely these comments are all written. So a script can be cut at
its line feeds into the lines it was put together from exactly if no walk comes to a branch whose name
has a line feed. `script_lines_whole_iff` says this.
-/

namespace TickScript.Emission

open TickScript.Text

namespace Walk

variable {setting : Setting} {node : Node} {follow : String → Walk Unit} {id : String}

/-! ## Comments that are written -/

/-- The comments of the fan-outs that a part of a walk has written are among the lines. -/
structure Announces (table : NodeTable) (state final : State) : Prop where
  evolves : state.context.Evolves final.context
  announced : ∀ name ∈ branchNames table final.trace, name ∈ branchNames table state.trace ∨
    ∃ line ∈ final.context.written, line.text = branchComment name

/-- Nothing is announced while no node is written. -/
theorem Announces.quiet {table : NodeTable} {state final : State}
    (hids : dispatched final.trace = dispatched state.trace)
    (hevolves : state.context.Evolves final.context) : Announces table state final := by
  refine ⟨hevolves, fun name hname => .inl ?_⟩
  rwa [branchNames, hids] at hname

theorem Announces.trans {table : NodeTable} {state middle final : State}
    (h : Announces table state middle) (hlater : Announces table middle final) :
    Announces table state final := by
  refine ⟨h.evolves.trans hlater.evolves, fun name hname => ?_⟩
  rcases hlater.announced name hname with hmiddle | hwritten
  · refine (h.announced name hmiddle).imp_right fun ⟨line, hline, htext⟩ => ⟨line, ?_, htext⟩
    exact hlater.evolves.extends.written.subset hline
  · exact .inr hwritten

theorem announces_evolution (table : NodeTable) : Evolution (Announces table) where
  refl := fun _ => .quiet rfl .refl
  trans := .trans
  context := fun _ _ h => .quiet rfl h

/-- A fan-out writes a comment before every branch. -/
theorem after_emitFanOut {table : NodeTable} (hfollow : ∀ id, Keeps (Announces table) (follow id))
    (node : Node) (state : State) : ∀ name ∈ node.slots.keys,
      ∃ line ∈ (after (Kind.emitFanOut (·.forM follow) node) state).context.written,
        line.text = branchComment name := by
  have h := announces_evolution table
  let branch (entry : String × List String) : Walk Unit := do
    Walk.say s!"// branch: {entry.1}"
    entry.2.forM follow
  have hbranch (entry : String × List String) : Keeps (Announces table) (branch entry) :=
    h.bind (h.lift (Emit.say_evolves _)) fun _ => h.forM hfollow
  change ∀ name ∈ node.slots.entries.map (·.1),
    ∃ line ∈ (after (node.slots.entries.forM branch) state).context.written,
      line.text = branchComment name
  generalize node.slots.entries = entries
  induction entries generalizing state with
  | nil => exact fun _ h => nomatch h
  | cons entry entries ih =>
      refine List.forall_mem_cons.2 ⟨?_, ih _⟩
      -- The comment stands once it is written, whatever follows it.
      let said : State := { state with context := state.context.push (branchComment entry.1) }
      have hlater : Announces table said (after ((entry :: entries).forM branch) state) :=
        h.trans (@Evolution.forM _ _ h entry.2 _ hfollow said) (h.forM hbranch _)
      refine ⟨⟨state.context.indent, branchComment entry.1⟩, ?_, rfl⟩
      refine hlater.evolves.extends.written.subset ?_
      exact List.mem_append_right _ (List.mem_append_right _ List.mem_cons_self)

/-- The statements of a node announce its branches and those of the nodes in its slots. -/
theorem dispatch_announces (state : State) (hnode : setting.table.get? id = some node)
    (hfollow : ∀ id, Keeps (Announces setting.table) (follow id)) :
    Announces setting.table state
      (after (dispatch setting (·.forM follow) node) (state.opened setting id node)) := by
  have hinside := @Evolution.dispatch _ setting node follow (announces_evolution setting.table) hfollow
    (state.opened setting id node)
  refine ⟨hinside.evolves, fun name hname => ?_⟩
  rcases hinside.announced name hname with hopened | hwritten
  · rw [branchNames_opened state hnode] at hopened
    rcases List.mem_append.1 hopened with hown | hearlier
    · right
      unfold Node.branchNames at hown
      split at hown
      · next hkind =>
        have hemit : after (dispatch setting (·.forM follow) node) (state.opened setting id node) =
            after (Kind.emitFanOut (·.forM follow) node) (state.opened setting id node) := by
          unfold dispatch
          rw [hkind]
          rfl
        rw [hemit]
        exact after_emitFanOut hfollow node _ name hown
      · cases hown
    · exact .inl hearlier
  · exact .inr hwritten

/-- A walk announces the branches of all fan-outs that it writes. -/
theorem walk_announces (setting : Setting) (id : String) (state : State) :
    Announces setting.table state (after (walk setting id) state) := by
  refine (announces_evolution setting.table).visit ?_ ?_ (setting.table.size + 1) id state
  · intro state final hcontext hids
    exact .quiet hids (hcontext ▸ .refl)
  · intro follow hfollow id node state hnode
    exact dispatch_announces state hnode hfollow

/-! ## Functions -/

variable {table : NodeTable} {state : State}

/-- The lines with line feeds are the comments before branches whose names have line feeds. -/
theorem State.Awaits.broken_iff (h : state.Awaits .lines table [] [])
    (hannounced : ∀ name ∈ branchNames table state.trace,
      ∃ line ∈ state.context.written, line.text = branchComment name)
    {text : String} (htext : ¬ OneLine text) :
    (∃ line ∈ state.context.written, line.text = text) ↔
      ∃ name ∈ branchNames table state.trace, branchComment name = text := by
  constructor
  · rintro ⟨line, hline, rfl⟩
    rw [Context.written, h.context.taken, List.nil_append] at hline
    rcases h.context.lines line hline with honeLine | ⟨name, hname, hcomment⟩
    · exact (htext honeLine).elim
    · exact ⟨name, hname, hcomment.symm⟩
  · rintro ⟨name, hname, rfl⟩
    exact hannounced name hname

theorem State.Awaits.whole_iff (h : state.Awaits .lines table [] [])
    (hannounced : ∀ name ∈ branchNames table state.trace,
      ∃ line ∈ state.context.written, line.text = branchComment name) :
    (∀ line ∈ state.context.written, OneLine line.text) ↔
      ∀ name ∈ branchNames table state.trace, OneLine name := by
  have hcomment (name : String) : OneLine (branchComment name) ↔ OneLine name := by
    simp +decide [branchComment]
  constructor
  · intro hlines name hname
    obtain ⟨line, hline, htext⟩ := hannounced name hname
    exact (hcomment name).1 (htext ▸ hlines line hline)
  · intro hnames line hline
    by_contra hbroken
    obtain ⟨name, hname, htext⟩ := (h.broken_iff hannounced hbroken).1 ⟨line, hline, rfl⟩
    exact hbroken (htext ▸ (hcomment name).2 (hnames name hname))

end Walk

theorem taskStates_announced (setting : Setting) (context : Context) (tasks : List Task) :
    ∀ state ∈ taskStates setting context tasks, ∀ name ∈ Walk.branchNames setting.table state.trace,
      ∃ line ∈ state.context.written, line.text = branchComment name := by
  induction tasks generalizing context with
  | nil => exact fun _ h => nomatch h
  | cons task tasks ih =>
      refine List.forall_mem_cons.2 ⟨fun name hname => ?_, ih _⟩
      unfold taskState at hname ⊢
      split at hname
      · exact ((Walk.walk_announces setting _ _).announced name hname).resolve_left
          List.not_mem_nil
      · cases hname

/-- Every function has the comments of the fan-outs that its walk comes to. -/
theorem functionStates_announced (program : Program) (registry : Registry) :
    ∀ state ∈ functionStates program registry, ∀ name ∈ Walk.branchNames program.nodes state.trace,
      ∃ line ∈ state.context.written, line.text = branchComment name := by
  refine List.forall_mem_cons.2 ⟨fun name hname => ?_, taskStates_announced _ _ _⟩
  exact ((Walk.walk_announces ⟨program.nodes, registry⟩ _ _).announced name hname).resolve_left
    List.not_mem_nil

/-! ## Files -/

variable {function main : Function} {tasks : List Function} {imports : Imports}

theorem Function.oneLine_lines_iff (h : function.Framed .lines) :
    (∀ line ∈ function.lines, OneLine line.text) ↔ ∀ line ∈ function.body, OneLine line.text := by
  obtain ⟨hheader, hpreamble⟩ := h
  have hpreamble : ∀ text ∈ function.preamble, OneLine text := fun text htext =>
    Discipline.fits_lines_iff.1 (hpreamble text htext)
  have hbody : (∀ line ∈ (if function.body.isEmpty then [.flush emptyBody] else function.body : List Line),
      OneLine line.text) ↔ ∀ line ∈ function.body, OneLine line.text := by
    split
    · next hempty =>
      rw [List.isEmpty_iff.1 hempty]
      simp +decide
    · rfl
  have hindent (lines : List Line) :
      (∀ line ∈ lines.map indentLine, OneLine line.text) ↔ ∀ line ∈ lines, OneLine line.text :=
    List.forall_mem_map
  have hopen : ∀ line ∈ [Line.flush (function.header ++ " \x7b")], OneLine line.text :=
    List.forall_mem_singleton.2
      (oneLine_append.2 ⟨Discipline.fits_lines_iff.1 hheader, by decide⟩)
  have hclose : ∀ line ∈ [Line.flush "\x7d"], OneLine line.text := by decide
  unfold lines
  dsimp only
  rw [List.forall_mem_append, List.forall_mem_append, hindent, List.forall_mem_append, hbody,
    List.forall_mem_map]
  exact ⟨fun h => h.1.2.2, fun h => ⟨⟨hopen, hpreamble, h⟩, hclose⟩⟩

/-- The lines of a file are of one line exactly if the bodies of its functions are. -/
theorem oneLine_fileLines_iff (fileId : String)
    (himports : ∀ line ∈ importLines imports, Discipline.lines.Fits line.text)
    (hframed : ∀ function ∈ main :: tasks, function.Framed .lines) :
    (∀ line ∈ fileLines fileId imports main tasks, OneLine line.text) ↔
      ∀ body ∈ main.body :: tasks.map (·.body), ∀ line ∈ body, OneLine line.text := by
  obtain ⟨hmain, htasks⟩ := List.forall_mem_cons.1 hframed
  have himports : ∀ line ∈ importLines imports, OneLine line.text := fun line hline =>
    Discipline.fits_lines_iff.1 (himports line hline)
  have hempty : OneLine emptyLine.text := by decide
  have hhead : ∀ line ∈ [headLine fileId, emptyLine], OneLine line.text :=
    List.forall_mem_cons.2 ⟨Discipline.fits_lines_iff.1 (fits_headLine trivial),
      List.forall_mem_singleton.2 hempty⟩
  have htasks : (∀ line ∈ tasks.flatMap fun task => emptyLine :: task.lines, OneLine line.text) ↔
      ∀ body ∈ tasks.map (·.body), ∀ line ∈ body, OneLine line.text := by
    rw [List.forall_mem_map, List.forall_mem_flatMap]
    refine forall₂_congr fun task htask => ?_
    rw [List.forall_mem_cons, Function.oneLine_lines_iff (htasks task htask)]
    exact and_iff_right hempty
  rw [List.forall_mem_cons]
  unfold fileLines
  rw [List.forall_mem_append, List.forall_mem_append, List.forall_mem_append,
    Function.oneLine_lines_iff hmain, htasks]
  exact ⟨fun h => ⟨h.1.2, h.2⟩, fun h => ⟨⟨⟨hhead, himports⟩, h.1⟩, h.2⟩⟩

theorem toList_joinLines (lines : List Line) :
    (joinLines lines).toList = (lines.map (·.render.toList)).flatMap (· ++ ['\n']) := by
  induction lines with
  | nil => rfl
  | cons line lines ih =>
      unfold joinLines at ih ⊢
      rw [List.map_cons, String.join_cons, String.toList_append, ih]
      simp

/-- A script can be cut at its line feeds into its lines exactly if they are of one line. -/
theorem splitAtMarks_joinLines_iff (lines : List Line) :
    splitAtMarks '\n' (joinLines lines).toList = lines.map (·.render.toList) ++ [[]] ↔
      ∀ line ∈ lines, OneLine line.text := by
  rw [toList_joinLines, splitAtMarks_lines_iff, List.forall_mem_map]
  refine forall₂_congr fun line _ => ?_
  have hspaces : OneLine (String.ofList (List.replicate line.indent ' ')) := by
    simp [OneLine, List.mem_replicate]
  change OneLine (_ ++ line.text) ↔ _
  rw [oneLine_append]
  exact and_iff_right hspaces

/-- The lines that the script of a program is put together from. -/
def scriptLines (program : Program) (registry : Registry) : List Line :=
  let (main, tasks, context) := functions program registry
  fileLines program.fileId context.imports main tasks

theorem assemble_source (program : Program) (registry : Registry) :
    (assemble program registry).source = joinLines (scriptLines program registry) := by
  unfold assemble scriptLines
  obtain ⟨main, tasks, context⟩ := functions program registry
  dsimp only

/-- If the texts that a program writes as they are have no line feeds, and no emitter of the registry
writes to the script, then the lines with line feeds that its functions write are the comments before
branches with such names, of the fan-outs that their walks come to. So all lines of the functions are
of one line, all lines of the file are, and the script can be cut at its line feeds into the lines of
the file, exactly if no walk comes to a branch whose name has a line feed. -/
theorem script_lines_whole_iff (program : Program) (registry : Registry)
    (hplain : (Setting.mk program.nodes registry).Plain)
    (hflat : ∀ text ∈ program.verbatim, OneLine text) :
    let states := functionStates program registry
    let lines := scriptLines program registry
    let NamesWhole := ∀ state ∈ states, ∀ name ∈ Walk.branchNames program.nodes state.trace,
      OneLine name
    (∀ state ∈ states, ∀ text, ¬ OneLine text →
      ((∃ line ∈ state.context.written, line.text = text) ↔
        ∃ name ∈ Walk.branchNames program.nodes state.trace, branchComment name = text)) ∧
    ((∀ state ∈ states, ∀ line ∈ state.context.written, OneLine line.text) ↔ NamesWhole) ∧
    ((∀ line ∈ lines, OneLine line.text) ↔ NamesWhole) ∧
    (splitAtMarks '\n' (assemble program registry).source.toList =
      lines.map (·.render.toList) ++ [[]] ↔ NamesWhole) := by
  obtain ⟨hstates, hframed, htidy⟩ := functions_tidy hplain (Discipline.suits_lines hflat)
  have himports := fits_importLines htidy (functions_coherent program registry)
  have hannounced := functionStates_announced program registry
  have hwritten : (∀ state ∈ functionStates program registry, ∀ line ∈ state.context.written,
      OneLine line.text) ↔ ∀ state ∈ functionStates program registry,
        ∀ name ∈ Walk.branchNames program.nodes state.trace, OneLine name :=
    forall₂_congr fun state hstate => (hstates state hstate).whole_iff (hannounced state hstate)
  have hlines : (∀ line ∈ scriptLines program registry, OneLine line.text) ↔
      ∀ state ∈ functionStates program registry,
        ∀ name ∈ Walk.branchNames program.nodes state.trace, OneLine name := by
    refine (oneLine_fileLines_iff program.fileId himports hframed).trans ?_
    rw [functionStates_lines, List.forall_mem_map, ← hwritten]
    refine forall₂_congr fun state hstate => ?_
    rw [Context.written, (hstates state hstate).context.taken, List.nil_append]
  refine ⟨fun state hstate text htext => ?_, hwritten, hlines, ?_⟩
  · exact (hstates state hstate).broken_iff (hannounced state hstate) htext
  · rw [assemble_source]
    exact (splitAtMarks_joinLines_iff _).trans hlines

/-- A fan-out inside of a task, with line feeds in every text that is quoted: the ids, the id of the
file, a key of a map and the path of a memory node. -/
def quotedFeeds : Program where
  fileId := "two\nlines"
  entry := "st\nart"
  nodes := .ofList [
    ("st\nart", { id := "st\nart", kind := .start, outputs := ["fan"] }),
    ("fan", { id := "fan", kind := .fanOut, slots := .ofList [("left", ["no\nte"]), ("right \"x\"", [])] }),
    ("no\nte",
      { id := "no\nte", kind := .memoryWrite { path := "a\nb", value := .map [("k\ney", .null)] } })]
  tasks := [⟨"job\n", [⟨"ra\nte", "any", some (.bool true)⟩], none, "job"⟩]

/-- The script of the fan-out can be cut into its lines. -/
theorem quotedFeeds_whole :
    (Setting.mk quotedFeeds.nodes .empty).Plain ∧ (∀ text ∈ quotedFeeds.verbatim, OneLine text) ∧
      (functions quotedFeeds .empty).1.body = [
        ⟨0, "// branch: left"⟩,
        ⟨0, "const value_1 = \x7b \"k\\ney\": null \x7d;"⟩,
        ⟨0, "Memory[\"a\\nb\"] = value_1;"⟩,
        ⟨0, "// branch: right \"x\""⟩] ∧
      splitAtMarks '\n' (assemble quotedFeeds .empty).source.toList =
        (scriptLines quotedFeeds .empty).map (·.render.toList) ++ [[]] := by
  have hplain : (Setting.mk quotedFeeds.nodes .empty).Plain := by decide +kernel
  have hflat : ∀ text ∈ quotedFeeds.verbatim, OneLine text := by decide +kernel
  have hnames : ∀ state ∈ functionStates quotedFeeds .empty,
      ∀ name ∈ Walk.branchNames quotedFeeds.nodes state.trace, OneLine name := by decide +kernel
  refine ⟨hplain, hflat, by decide +kernel, ?_⟩
  exact (script_lines_whole_iff quotedFeeds .empty hplain hflat).2.2.2.2 hnames

/-- A fan-out with a branch whose name has a line feed. -/
def brokenBranch : Program where
  fileId := "fan"
  entry := "start"
  nodes := .ofList [
    ("start", { id := "start", kind := .start, outputs := ["fan"] }),
    ("fan", { id := "fan", kind := .fanOut, slots := .ofList [("a\nb", ["up"])] }),
    ("up", { id := "up", kind := .upgrade {} })]

/-- The rest of the name stands on a line of its own, outside of the comment. -/
theorem brokenBranch_splits :
    (Setting.mk brokenBranch.nodes .empty).Plain ∧ (∀ text ∈ brokenBranch.verbatim, OneLine text) ∧
      (functions brokenBranch .empty).1.body = [
        ⟨0, "// branch: a\nb"⟩,
        ⟨0, "const upgrade_1 = creep.upgradeController(creep.room.controller);"⟩] ∧
      "b".toList ∈ splitAtMarks '\n' (assemble brokenBranch .empty).source.toList := by
  decide +kernel

end TickScript.Emission
