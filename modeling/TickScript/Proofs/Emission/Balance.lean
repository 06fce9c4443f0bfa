import TickScript.Proofs.Emission.TidyWalks

/-!
# Brackets of scripts

The lines of every function close the brackets that they open, and so do the other lines of a file. So
the script is nested. `script_brackets_nested` says this for programs whose texts have no brackets.
-/

namespace TickScript.Emission

open TickScript.Text

variable {lines : List Line} {function : Function}

/-! ## Lines -/

theorem scanLines_append (awaited : List Char) (lines more : List Line) :
    scanLines awaited (lines ++ more) =
      (scanLines awaited lines).bind fun awaited => scanLines awaited more :=
  List.foldlM_append

theorem scanLines_of_fits (h : ∀ line ∈ lines, Discipline.brackets.Fits line.text)
    (awaited : List Char) : scanLines awaited lines = some awaited := by
  induction lines with
  | nil => rfl
  | cons line lines ih =>
      obtain ⟨hline, hlines⟩ := List.forall_mem_cons.1 h
      exact Option.bind_eq_some_iff.2 ⟨awaited, hline.scan awaited, ih hlines⟩

theorem scanLines_frame {before after : List Char} (h : scanLines before lines = some after)
    (outer : List Char) : scanLines (before ++ outer) lines = some (after ++ outer) := by
  induction lines generalizing before with
  | nil =>
      cases h
      rfl
  | cons line lines ih =>
      obtain ⟨middle, hline, hlines⟩ := Option.bind_eq_some_iff.1 h
      exact Option.bind_eq_some_iff.2 ⟨middle ++ outer, scan_frame hline, ih hlines⟩

/-- Spaces and line feeds are no brackets. -/
theorem scan_joinLines (awaited : List Char) (lines : List Line) :
    scan awaited (joinLines lines).toList = scanLines awaited lines := by
  have hline (line : Line) (awaited : List Char) :
      scan awaited (line.render ++ "\n").toList = scan awaited line.text.toList := by
    have hspaces : ∀ c ∈ List.replicate line.indent ' ', isPlain c = true := fun c hc =>
      List.eq_of_mem_replicate hc ▸ by decide
    have hfeed : ∀ c ∈ "\n".toList, isPlain c = true := List.all_eq_true.1 (by decide)
    rw [Line.render, String.toList_append, String.toList_append, String.toList_ofList, scan_append,
      scan_append, scan_of_isPlain hspaces, Option.bind_some]
    simp only [scan_of_isPlain hfeed, Option.bind_fun_some]
  induction lines generalizing awaited with
  | nil => rfl
  | cons line lines ih =>
      rw [joinLines, List.map_cons, String.join_cons, String.toList_append, scan_append, hline]
      exact Option.bind_congr fun middle _ => ih middle

/-- A function is nested if what stands around its body fits and its body is nested. -/
theorem Function.scanLines_lines (hframed : function.Framed .brackets)
    (hbody : scanLines [] function.body = some []) : scanLines [] function.lines = some [] := by
  obtain ⟨hheader, hpreamble⟩ := hframed
  have hindent (awaited : List Char) (lines : List Line) :
      scanLines awaited (lines.map indentLine) = scanLines awaited lines :=
    List.foldlM_map
  have hpreamble : ∀ line ∈ function.preamble.map Line.flush, Discipline.brackets.Fits line.text :=
    List.forall_mem_map.2 hpreamble
  have hinside : scanLines ['\x7d'] (if function.body.isEmpty then [.flush emptyBody]
      else function.body) = some ['\x7d'] := by
    split
    · decide
    · exact scanLines_frame hbody ['\x7d']
  have hopen : scanLines [] [.flush (function.header ++ " \x7b")] = some ['\x7d'] := by
    have hturns : Discipline.brackets.Turns [] ['\x7d'] (function.header ++ " \x7b") :=
      Emit.turns_opening hheader
    exact Option.bind_eq_some_iff.2 ⟨['\x7d'], hturns, rfl⟩
  unfold lines
  simp only [scanLines_append, hopen, hindent, scanLines_of_fits hpreamble, hinside,
    Option.bind_some]
  decide

/-- The lines of a file are nested if its parts are. -/
theorem scanLines_fileLines {fileId : String} {imports : Imports} {main : Function}
    {tasks : List Function} (hfile : isClean fileId = true)
    (himports : ∀ line ∈ importLines imports, Discipline.brackets.Fits line.text)
    (hfunctions : ∀ function ∈ main :: tasks, scanLines [] function.lines = some []) :
    scanLines [] (fileLines fileId imports main tasks) = some [] := by
  obtain ⟨hmain, htasks⟩ := List.forall_mem_cons.1 hfunctions
  have hhead : ∀ line ∈ [headLine fileId, emptyLine], Discipline.brackets.Fits line.text :=
    List.forall_mem_cons.2 ⟨fits_headLine hfile, List.forall_mem_singleton.2 (by decide)⟩
  have htasks : scanLines [] (tasks.flatMap fun task => emptyLine :: task.lines) = some [] := by
    clear hfunctions
    induction tasks with
    | nil => rfl
    | cons task tasks ih =>
        obtain ⟨htask, htasks⟩ := List.forall_mem_cons.1 htasks
        rw [List.flatMap_cons, scanLines_append]
        exact Option.bind_eq_some_iff.2 ⟨[], htask, ih htasks⟩
  unfold fileLines
  simp only [scanLines_append, scanLines_of_fits hhead, scanLines_of_fits himports, hmain, htasks,
    Option.bind_some]

/-! ## Scripts -/

theorem scan_source {program : Program} {registry : Registry}
    (hplain : (Setting.mk program.nodes registry).Plain)
    (hclean : ∀ text ∈ program.texts, isClean text = true) :
    scan [] (assemble program registry).source.toList = some [] := by
  have hsuits := Discipline.suits_brackets program.verbatim_subset_texts hclean
  obtain ⟨hstates, hframed, himports⟩ := functions_tidy hplain hsuits
  have hbodies : ∀ body ∈ (functions program registry).1.body ::
      (functions program registry).2.1.map (·.body), scanLines [] body = some [] := by
    rw [functionStates_lines]
    exact List.forall_mem_map.2 fun state hstate => (hstates state hstate).context.lines
  refine (scan_joinLines [] _).trans (scanLines_fileLines (hclean _ List.mem_cons_self)
    (fits_importLines himports (functions_coherent program registry)) fun function hfunction => ?_)
  exact Function.scanLines_lines (hframed function hfunction)
    (List.forall_mem_map.1 hbodies function hfunction)

/-- The script of a program without brackets in its texts is nested, if no emitter of the registry
writes to it: each beginning of it can be completed by closing brackets, each closing bracket is that
of the latest bracket that is open before it, with a nested text in between, and no bracket is open
at its end. -/
theorem script_brackets_nested (program : Program) (registry : Registry)
    (hplain : (Setting.mk program.nodes registry).Plain)
    (hclean : ∀ text ∈ program.texts, isClean text = true) :
    let source := (assemble program registry).source.toList
    (∀ shown, shown <+: source → ∃ closers, (∀ c ∈ closers, isCloser c = true) ∧
      scan [] (shown ++ closers) = some []) ∧
    (∀ before c after, source = before ++ c :: after → isCloser c = true →
      ∃ earlier opener inner, before = earlier ++ opener :: inner ∧ closer? opener = some c ∧
        scan [] inner = some []) ∧
    scan [] source = some [] := by
  intro source
  have hsource : scan [] source = some [] := scan_source hplain hclean
  refine ⟨?_, ?_, hsource⟩
  · rintro shown ⟨rest, hrest⟩
    rw [← hrest, scan_append] at hsource
    obtain ⟨awaited, hshown, -⟩ := Option.bind_eq_some_iff.1 hsource
    have hclosers := closers_of_scan hshown fun _ h => nomatch h
    exact ⟨awaited, hclosers, by rw [scan_append, hshown, Option.bind_some, scan_awaited hclosers]⟩
  · intro before c after hcut hc
    rw [hcut, scan_append] at hsource
    obtain ⟨awaited, hbefore, hrest⟩ := Option.bind_eq_some_iff.1 hsource
    obtain ⟨outer, hstep, -⟩ := Option.bind_eq_some_iff.1 hrest
    rw [(step_closer_iff hc).1 hstep] at hbefore
    obtain ⟨earlier, opener, inner, hsplit, hopener, -, hinner⟩ := opener_of_scan hbefore
    exact ⟨earlier, opener, inner, hsplit, hopener, hinner⟩

/-- A choice inside of a guarded block, with a branch that is cut short at the node after the choice
and one that returns, and with nothing to do about errors. -/
def guardedChoice : Program where
  fileId := "guarded \"choice\""
  entry := "start"
  nodes := .ofList [
    ("start", { id := "start", kind := .start, outputs := ["try"] }),
    ("try", { id := "try", kind := .attempt, slots := .ofList [("try", ["if"]), ("catch", [])] }),
    ("if", { id := "if", kind := .branch, outputs := ["after"], slots := .ofList [
      ("true", ["note"]), ("false", ["leave"])] }),
    ("note", { id := "note", kind := .custom ⟨"note", .null⟩, outputs := ["after"] }),
    ("leave", { id := "leave", kind := .return {} }),
    ("after", { id := "after", kind := .move {} })]
  tasks := [⟨"job", [⟨"rate", "any", some (.list [])⟩], none, "job"⟩]

/-- The branches are closed where they are cut short and after they return. -/
theorem guardedChoice_nested :
    (Setting.mk guardedChoice.nodes .empty).Plain ∧
      (∀ text ∈ guardedChoice.texts, isClean text = true) ∧
      (functions guardedChoice .empty).1.body = [
        ⟨0, "try \x7b"⟩,
        ⟨2, "if (false) \x7b"⟩,
        ⟨2, "\x7d else \x7b"⟩,
        ⟨4, "return;"⟩,
        ⟨2, "\x7d"⟩,
        ⟨2, "const move_1 = travelTo(creep, undefined);"⟩,
        ⟨0, "\x7d catch (err_2) \x7b"⟩,
        ⟨2, "// error suppressed"⟩,
        ⟨0, "\x7d"⟩] ∧
      scan [] (assemble guardedChoice .empty).source.toList = some [] := by
  have hplain : (Setting.mk guardedChoice.nodes .empty).Plain := by decide +kernel
  have hclean : ∀ text ∈ guardedChoice.texts, isClean text = true := by decide +kernel
  refine ⟨hplain, hclean, by decide +kernel, ?_⟩
  exact (script_brackets_nested guardedChoice .empty hplain hclean).2.2

end TickScript.Emission
