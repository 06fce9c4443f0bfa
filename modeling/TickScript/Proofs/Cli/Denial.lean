import TickScript.Cli.Folder
import TickScript.Proofs.Graph.Closed
import TickScript.Proofs.Settings.Stable
import TickScript.Proofs.Text.Utf8

/-!
# Runs that deny warnings

A run with `--deny-warnings` is to succeed only if nothing was warned of, and to write nothing if it
fails over the graph. The first part of the module follows the flag through the arguments, the
second one what a run prints and writes. Where the program is printed instead of the script, the
flag has no effect.
-/

namespace TickScript.Cli

open TickScript.Settings (bind_eq_ok_iff)

/-! ## The flag among the arguments -/

namespace Parse

variable {parse next final : Parse}

/-- What all steps of reading the arguments keep: the flag, once it is set, and whether only paths
follow. -/
structure Follows (parse next : Parse) : Prop where
  denies : parse.options.denyWarnings = true → next.options.denyWarnings = true
  paths : next.onlyPaths = parse.onlyPaths

theorem Follows.refl (parse : Parse) : Follows parse parse := ⟨id, rfl⟩

theorem Follows.trans (h : Follows parse next) (hnext : Follows next final) : Follows parse final :=
  ⟨hnext.denies ∘ h.denies, hnext.paths.trans h.paths⟩

theorem setValue_follows {option : ValueOption} {value : String}
    (h : parse.setValue option value = .ok next) : Follows parse next := by
  cases option <;> simp only [setValue] at h <;> split at h <;> cases h <;> exact ⟨id, rfl⟩

theorem settle_follows (h : parse.settle = .ok next) : Follows parse next := by
  unfold settle at h
  split at h
  · cases h
    exact .refl parse
  · cases h
  · exact setValue_follows h

theorem attach_follows {option : ValueOption} {value : String}
    (h : parse.attach option value = .ok next) : Follows parse next := by
  obtain ⟨settled, hsettled, hvalue⟩ := bind_eq_ok_iff.1 h
  exact (settle_follows hsettled).trans (setValue_follows hvalue)

theorem await_follows {option : ValueOption} (h : parse.await option = .ok next) :
    Follows parse next := by
  obtain ⟨settled, hsettled, hnext⟩ := bind_eq_ok_iff.1 h
  cases hnext
  exact (settle_follows hsettled).trans ⟨id, rfl⟩

theorem setFlag_follows {flag : Flag} {named : Bool} (h : parse.setFlag flag named = .ok next) :
    Follows parse next := by
  cases flag with
  | emitIr =>
      simp only [setFlag] at h
      split at h <;> cases h
      exact ⟨id, rfl⟩
  | denyWarnings =>
      simp only [setFlag] at h
      split at h <;> cases h
      exact ⟨fun _ => rfl, rfl⟩
  | verbose =>
      cases h
      exact ⟨id, rfl⟩
  | help => cases h
  | version => cases h

theorem takeFlag_follows {flag : Flag} {named : Bool} (h : parse.takeFlag flag named = .ok next) :
    Follows parse next := by
  obtain ⟨settled, hsettled, hflag⟩ := bind_eq_ok_iff.1 h
  exact (settle_follows hsettled).trans (setFlag_follows hflag)

theorem takePath_follows {path : String} (h : parse.takePath path = .ok next) :
    Follows parse next := by
  unfold takePath at h
  split at h
  · cases h
  · obtain ⟨settled, hsettled, hnext⟩ := bind_eq_ok_iff.1 h
    cases hnext
    exact (settle_follows hsettled).trans ⟨id, rfl⟩

theorem takeLetters_follows {letters : List Char} (h : parse.takeLetters letters = .ok next) :
    Follows parse next := by
  induction letters generalizing parse with
  | nil =>
      cases h
      exact .refl _
  | cons c letters ih =>
      unfold takeLetters at h
      split at h
      · cases h
      · obtain ⟨flagged, hflagged, hrest⟩ := bind_eq_ok_iff.1 h
        exact (takeFlag_follows hflagged).trans (ih hrest)
      · exact await_follows h
      · exact attach_follows h
      · exact attach_follows h

theorem takeName_follows {text : List Char} (h : parse.takeName text = .ok next) :
    Follows parse next := by
  unfold takeName at h
  dsimp only at h
  split at h
  · cases h
  · exact await_follows h
  · exact attach_follows h
  · exact takeFlag_follows h
  · cases h

/-- An argument keeps the flag; only two dashes say that paths follow. -/
theorem takeArgument_follows {text : String} (h : parse.takeArgument text = .ok next) :
    (parse.options.denyWarnings = true → next.options.denyWarnings = true) ∧
      (text ≠ "--" → next.onlyPaths = parse.onlyPaths) := by
  have hfollows (h : Follows parse next) :
      (parse.options.denyWarnings = true → next.options.denyWarnings = true) ∧
        (text ≠ "--" → next.onlyPaths = parse.onlyPaths) := ⟨h.denies, fun _ => h.paths⟩
  unfold takeArgument at h
  split at h
  · exact hfollows (takePath_follows h)
  · next hdashes =>
    cases h
    have htext : text = "--" := String.toList_inj.1 hdashes
    exact ⟨id, fun hne => absurd htext hne⟩
  · exact hfollows (takeName_follows h)
  · exact hfollows (takeLetters_follows h)
  · cases h
    exact hfollows ⟨id, rfl⟩
  · exact hfollows (takePath_follows h)

/-- The flag is set by its name. -/
theorem takeArgument_denies (h : parse.takeArgument "--deny-warnings" = .ok next)
    (hpaths : parse.onlyPaths = false) : next.options.denyWarnings = true := by
  have hflag : parse.takeArgument "--deny-warnings" = parse.takeFlag .denyWarnings true := by
    unfold takeArgument
    rw [hpaths]
    rfl
  rw [hflag] at h
  obtain ⟨settled, -, hset⟩ := bind_eq_ok_iff.1 h
  simp only [setFlag] at hset
  split at hset <;> cases hset
  rfl

/-- Further arguments keep the flag. -/
theorem foldlM_denies {arguments : List String}
    (h : arguments.foldlM takeArgument parse = .ok final)
    (hdenies : parse.options.denyWarnings = true) : final.options.denyWarnings = true := by
  induction arguments generalizing parse with
  | nil =>
      cases h
      exact hdenies
  | cons argument arguments ih =>
      obtain ⟨next, hnext, hrest⟩ := bind_eq_ok_iff.1 h
      exact ih hrest ((takeArgument_follows hnext).1 hdenies)

/-- Arguments without two dashes do not say that only paths follow. -/
theorem foldlM_paths {arguments : List String}
    (h : arguments.foldlM takeArgument parse = .ok final) (hdashes : "--" ∉ arguments) :
    final.onlyPaths = parse.onlyPaths := by
  induction arguments generalizing parse with
  | nil =>
      cases h
      rfl
  | cons argument arguments ih =>
      rw [List.mem_cons, not_or] at hdashes
      obtain ⟨next, hnext, hrest⟩ := bind_eq_ok_iff.1 h
      rw [ih hrest hdashes.2]
      exact (takeArgument_follows hnext).2 fun hsame => hdashes.1 hsame.symm

end Parse

/-- A command line with the flag denies warnings. -/
theorem Options.denies_of_flag {before after : List String} {options : Options}
    (h : Options.ofArguments (before ++ "--deny-warnings" :: after) = .ok options)
    (hdashes : "--" ∉ before) : options.denyWarnings = true := by
  obtain ⟨parse, hparse, h⟩ := bind_eq_ok_iff.1 h
  obtain ⟨settled, hsettled, h⟩ := bind_eq_ok_iff.1 h
  rw [List.foldlM_append] at hparse
  obtain ⟨middle, hbefore, hparse⟩ := bind_eq_ok_iff.1 hparse
  obtain ⟨flagged, hflagged, hafter⟩ := bind_eq_ok_iff.1 hparse
  have hpaths : middle.onlyPaths = false := Parse.foldlM_paths hbefore hdashes
  have hdenies := Parse.foldlM_denies hafter (Parse.takeArgument_denies hflagged hpaths)
  have hfinal := (Parse.settle_follows hsettled).denies hdenies
  split at h
  · cases h
  · cases h
    exact hfinal

/-! ## What is printed -/

namespace Folder

variable {folder final : Folder}

/-- A folder after some lines of standard error. -/
def say (folder : Folder) (lines : List String) : Folder :=
  { folder with err := folder.err ++ lines }

theorem say_say (folder : Folder) (first second : List String) :
    (folder.say first).say second = folder.say (first ++ second) := by
  simp [say, List.append_assoc]

/-- Lines that report diagnostics behind a label. -/
def reportLines (label : String) (diagnostics : List Diagnostic) : List String :=
  diagnostics.map fun diagnostic => label ++ ": " ++ diagnostic.render

theorem report_eq (label : String) (diagnostics : List Diagnostic) (folder : Folder) :
    report host label diagnostics folder = ((), folder.say (reportLines label diagnostics)) := by
  induction diagnostics generalizing folder with
  | nil =>
      show ((), folder) = ((), folder.say [])
      simp [say]
  | cons diagnostic diagnostics ih =>
      show report host label diagnostics (folder.say [label ++ ": " ++ diagnostic.render]) = _
      rw [ih, say_say]
      rfl

theorem fail_eq (message : String) (folder : Folder) :
    fail host message folder = (1, folder.say ["Error: " ++ message]) := rfl

theorem reportRejection_eq (rejection : Graph.Rejection) (folder : Folder) :
    reportRejection host rejection folder =
      ((), folder.say (reportLines "warning" (CompileError.rejected rejection).diagnostics.warnings ++
        reportLines "error" (CompileError.rejected rejection).diagnostics.errors)) := by
  show report host "error" _ (report host "warning" _ folder).2 = _
  rw [report_eq, report_eq, say_say]

/-- A line that warns. -/
def IsWarning (line : String) : Prop := ∃ text, line = "warning: " ++ text

/-- No warning was printed on the way from a folder to another one. -/
def Quiet (folder final : Folder) : Prop :=
  ∃ lines, final.err = folder.err ++ lines ∧ ∀ line ∈ lines, ¬ IsWarning line

/-- A warning begins with its label. -/
theorem not_isWarning {line : String} {c : Char} (h : line.toList.head? = some c)
    (hc : c ≠ 'w') : ¬ IsWarning line := by
  rintro ⟨text, rfl⟩
  rw [String.toList_append] at h
  exact hc (Option.some.inj h).symm

theorem quiet_of_err_eq (h : final.err = folder.err) : Quiet folder final :=
  ⟨[], by simpa using h, by simp⟩

/-- A line that does not warn comes before more such lines. -/
theorem Quiet.of_line {middle : Folder} {line : String} (h : Quiet middle final)
    (hmiddle : middle.err = folder.err ++ [line]) (hline : ¬ IsWarning line) : Quiet folder final := by
  obtain ⟨lines, hfinal, hlines⟩ := h
  refine ⟨line :: lines, ?_, List.forall_mem_cons.2 ⟨hline, hlines⟩⟩
  rw [hfinal, hmiddle, List.append_assoc, List.singleton_append]

theorem Quiet.congr {other : Folder} (h : Quiet other final) (hother : other.err = folder.err) :
    Quiet folder final := by
  obtain ⟨lines, hfinal, hlines⟩ := h
  exact ⟨lines, by rw [hfinal, hother], hlines⟩

theorem fail_quiet (message : String) (folder : Folder) :
    Quiet folder (fail host message folder).2 := by
  refine (quiet_of_err_eq rfl).of_line rfl (not_isWarning (c := 'E') ?_ (by decide))
  rw [String.toList_append]
  rfl

/-- Reported warnings are printed as such. -/
theorem quiet_reportLines_iff {warnings : List Diagnostic}
    (h : final.err = folder.err ++ reportLines "warning" warnings) :
    Quiet folder final ↔ warnings = [] := by
  constructor
  · rintro ⟨lines, hfinal, hlines⟩
    obtain rfl : reportLines "warning" warnings = lines :=
      List.append_cancel_left (h.symm.trans hfinal)
    cases warnings with
    | nil => rfl
    | cons warning warnings => exact absurd ⟨warning.render, rfl⟩ (hlines _ List.mem_cons_self)
  · rintro rfl
    exact quiet_of_err_eq (by simpa [reportLines] using h)

/-- What follows an action begins in the folder that the action leaves. -/
theorem bind_run {α β : Type} (action : StateM Folder α) (rest : α → StateM Folder β)
    (folder : Folder) : (action >>= rest) folder = rest (action folder).1 (action folder).2 :=
  rfl

/-- To save an artifact is no matter of warnings. -/
theorem saveArtifact_quiet (options : Options) (script : Script) (folder : Folder) :
    Quiet folder (saveArtifact host options script folder).2 := by
  unfold saveArtifact
  cases options.artifact with
  | none => exact quiet_of_err_eq rfl
  | some path =>
      have hwrite : host.writeBytes path (Artifact.encode script) folder =
          folder.writeBytes path (Artifact.encode script) := rfl
      dsimp only
      rw [bind_run, hwrite, writeBytes]
      cases folder.resolve path with
      | error fault => exact fail_quiet _ folder
      | ok name =>
          refine (quiet_of_err_eq rfl).of_line rfl (not_isWarning (c := 'S') ?_ (by decide))
          simp only [String.toList_append]
          rfl

/-- To write a script is no matter of warnings. -/
theorem writeScript_quiet (path : String) (options : Options) (script : Script) (folder : Folder) :
    Quiet folder (writeScript host path options script folder).2 := by
  unfold writeScript
  cases options.output with
  | none => exact (saveArtifact_quiet options script { folder with out := _ }).congr rfl
  | some output =>
      have hwrite : host.writeText output script.source folder =
          folder.writeBytes output (Text.encodeText script.source) := rfl
      dsimp only
      rw [bind_run, hwrite, writeBytes]
      cases folder.resolve output with
      | error fault => exact fail_quiet _ folder
      | ok name =>
          refine (saveArtifact_quiet options script _).of_line rfl
            (not_isWarning (c := 'C') ?_ (by decide))
          simp only [String.toList_append]
          rfl

/-! ## What is done -/

variable {path text : String} {options : Options} {compiler : Compiler}

theorem run_eq : run host path options folder =
    (match folder.readText path with
      | .error fault =>
        let reason := fault.message
        fail host s!"Could not read '{path}': {reason}"
      | .ok text =>
        match Compiler.ofText text with
        | .error error => fail host error.message
        | .ok compiler =>
          if options.emitIr then emitProgram host compiler
          else compileGraph host path options compiler) folder :=
  rfl

/-- The program of an accepted graph is printed, whatever was warned of. -/
theorem emitProgram_of_build {program : Program} {warnings : List Diagnostic}
    (h : compiler.build = .ok (program, warnings)) : emitProgram host compiler folder =
      (0, { folder.say (reportLines "warning" warnings) with
        out := folder.out ++ ((Program.record.codec.write program).pretty ++ "\n") }) := by
  unfold emitProgram
  rw [h]
  show (do
    host.out ((Program.record.codec.write program).pretty ++ "\n")
    return 0 : StateM Folder Nat) (report host "warning" warnings folder).2 = _
  rw [report_eq]
  rfl

/-- A rejected graph is only talked about. -/
theorem emitProgram_of_rejection {rejection : Graph.Rejection} (h : compiler.build = .error rejection) :
    ∃ lines, emitProgram host compiler folder = (1, folder.say lines) := by
  unfold emitProgram
  rw [h]
  show ∃ lines, (1, (reportRejection host rejection folder).2) = (1, folder.say lines)
  rw [reportRejection_eq]
  exact ⟨_, rfl⟩

theorem compileGraph_of_rejection {rejection : Graph.Rejection}
    (h : compiler.compile = .error rejection) :
    ∃ lines, compileGraph host path options compiler folder = (1, folder.say lines) := by
  unfold compileGraph
  rw [h]
  show ∃ lines, fail host _ (reportRejection host rejection folder).2 = (1, folder.say lines)
  rw [reportRejection_eq, fail_eq, say_say]
  exact ⟨_, rfl⟩

/-- If warnings are denied, a graph with warnings is only talked about. -/
theorem compileGraph_of_warnings {script : Script} (h : compiler.compile = .ok script)
    (hwarnings : script.warnings ≠ []) (hdenies : options.denyWarnings = true) :
    ∃ lines, compileGraph host path options compiler folder = (1, folder.say lines) := by
  have hcondition : (options.denyWarnings && !script.warnings.isEmpty) = true := by
    simp [hdenies, hwarnings]
  unfold compileGraph
  rw [h]
  dsimp only
  rw [if_pos hcondition]
  show ∃ lines, fail host _ (report host "warning" script.warnings folder).2 = (1, folder.say lines)
  rw [report_eq, fail_eq, say_say]
  exact ⟨_, rfl⟩

/-- A script without warnings is written. -/
theorem compileGraph_of_no_warnings {script : Script} (h : compiler.compile = .ok script)
    (hwarnings : script.warnings = []) : compileGraph host path options compiler folder =
      writeScript host path options script folder := by
  unfold compileGraph
  rw [h]
  dsimp only
  rw [hwarnings, List.isEmpty_nil, Bool.not_true, Bool.and_false]
  rfl

/-- Why the text of a graph makes a run fail that denies warnings: it cannot be read, the graph is
rejected, or the script is asked for and comes with warnings. -/
inductive Refused (options : Options) (text : String) : Prop where
  | unreadable (error : CompileError) (htext : Compiler.ofText text = .error error)
  | rejected (compiler : Compiler) (rejection : Graph.Rejection)
      (htext : Compiler.ofText text = .ok compiler) (hbuild : compiler.build = .error rejection)
  | warned (compiler : Compiler) (script : Script) (htext : Compiler.ofText text = .ok compiler)
      (hcompile : compiler.compile = .ok script) (hscript : options.emitIr = false)
      (hwarnings : script.warnings ≠ [])

/-- A text that is refused is only talked about. -/
theorem run_of_refused (hread : folder.readText path = .ok text)
    (hdenies : options.denyWarnings = true) (h : Refused options text) :
    ∃ lines, run host path options folder = (1, folder.say lines) := by
  rw [run_eq, hread]
  cases h with
  | unreadable error htext =>
      simp only [htext]
      exact ⟨_, fail_eq _ _⟩
  | rejected compiler rejection htext hbuild =>
      have hcompile : compiler.compile = .error rejection := by rw [Compiler.compile, hbuild]
      simp only [htext]
      split
      · exact emitProgram_of_rejection hbuild
      · exact compileGraph_of_rejection hcompile
  | warned compiler script htext hcompile hscript hwarnings =>
      simp only [htext, hscript, Bool.false_eq_true, if_false]
      exact compileGraph_of_warnings hcompile hwarnings hdenies

/-- A run that succeeds has read a graph that can be built. If it wrote the script, nothing was warned
of; if it printed the program, no warning was printed exactly when the build had none. -/
theorem run_succeeds (hdenies : options.denyWarnings = true)
    (hzero : (run host path options folder).1 = 0) :
    ∃ text compiler, folder.readText path = .ok text ∧ Compiler.ofText text = .ok compiler ∧
      (options.emitIr = false → Quiet folder (run host path options folder).2 ∧
        ∃ script, compiler.compile = .ok script ∧ script.warnings = []) ∧
      (options.emitIr = true → ∃ program warnings, compiler.build = .ok (program, warnings) ∧
        (Quiet folder (run host path options folder).2 ↔ warnings = [])) := by
  -- A run that ends with the code 1 does not succeed.
  have hfail (lines : List String) : run host path options folder ≠ (1, folder.say lines) := by
    intro hrun
    rw [hrun] at hzero
    cases hzero
  cases hread : folder.readText path with
  | error fault =>
      rw [run_eq, hread] at hzero
      cases hzero
  | ok text =>
      have haccepted : ¬ Refused options text := fun hrefused =>
        (run_of_refused hread hdenies hrefused).elim hfail
      cases htext : Compiler.ofText text with
      | error error => exact absurd (.unreadable error htext) haccepted
      | ok compiler =>
          cases hbuild : compiler.build with
          | error rejection => exact absurd (.rejected compiler rejection htext hbuild) haccepted
          | ok result =>
              obtain ⟨program, warnings⟩ := result
              refine ⟨text, compiler, rfl, htext, fun hscript => ?_, fun hprogram => ?_⟩
              · obtain ⟨script, hcompile⟩ : ∃ script, compiler.compile = .ok script :=
                  ⟨_, Compiler.compile_of_build hbuild (Graph.build_eq_ok hbuild).2.1⟩
                have hwarnings : script.warnings = [] := by
                  by_contra hne
                  exact haccepted (.warned compiler script htext hcompile hscript hne)
                refine ⟨?_, script, hcompile, hwarnings⟩
                simp only [run_eq, hread, htext, hscript, Bool.false_eq_true, if_false]
                rw [compileGraph_of_no_warnings hcompile hwarnings]
                exact writeScript_quiet path options script folder
              · refine ⟨program, warnings, hbuild, ?_⟩
                simp only [run_eq, hread, htext, hprogram, if_true]
                rw [emitProgram_of_build hbuild]
                exact quiet_reportLines_iff rfl

end Folder

open Folder

/-- A run with the flag that succeeds has read a graph that can be built. If it wrote the script,
nothing was warned of. If it printed the program, no warning was printed exactly when the build had
none. A run that fails over its graph prints nothing to standard output and writes no file. -/
theorem denied_warnings_end_run (folder : Folder) (before after : List String) (options : Options)
    (hdashes : "--" ∉ before)
    (hoptions : Options.ofArguments (before ++ "--deny-warnings" :: after) = .ok options) :
    let path := options.graphPath.getD ""
    let result := runArguments host (before ++ "--deny-warnings" :: after) folder
    (result.1 = 0 → ∃ text compiler,
      folder.readText path = .ok text ∧ Compiler.ofText text = .ok compiler ∧
      (options.emitIr = false → Quiet folder result.2 ∧
        ∃ script, compiler.compile = .ok script ∧ script.warnings = []) ∧
      (options.emitIr = true → ∃ program warnings, compiler.build = .ok (program, warnings) ∧
        (Quiet folder result.2 ↔ warnings = []))) ∧
    ∀ text, folder.readText path = .ok text → Refused options text →
      result.1 = 1 ∧ result.2.out = folder.out ∧ result.2.files = folder.files := by
  have hdenies := Options.denies_of_flag hoptions hdashes
  have hrun : runArguments host (before ++ "--deny-warnings" :: after) folder =
      run host (options.graphPath.getD "") options folder := by
    unfold runArguments
    rw [hoptions]
  intro path result
  rw [show result = run host path options folder from hrun]
  refine ⟨run_succeeds hdenies, fun text hread hrefused => ?_⟩
  obtain ⟨lines, hlines⟩ := run_of_refused hread hdenies hrefused
  rw [hlines]
  exact ⟨rfl, rfl, rfl⟩

/-- The text of a graph with a condition that nothing is connected to. -/
def watchedText : String :=
  "\x7b\"name\":\"g\",\"nodes\":[\x7b\"id\":\"s\",\"type\":\"start\"\x7d," ++
    "\x7b\"id\":\"i\",\"type\":\"flow.if\"\x7d],\"edges\":[]\x7d"

/-- A folder with the graph. -/
def watchedFolder : Folder where
  files := Keyed.empty.insert "graph.json" (Text.encodeText watchedText)

theorem watchedFolder_text : watchedFolder.readText "graph.json" = .ok watchedText := by
  have hfile : watchedFolder.files.get? "graph.json" = some (Text.encodeText watchedText) :=
    Keyed.get?_insert_self
  have hname : watchedFolder.resolve "graph.json" = .ok "graph.json" := rfl
  refine bind_eq_ok_iff.2 ⟨"graph.json", hname, ?_⟩
  rw [hfile]
  dsimp only
  rw [Text.decodeText_encodeText]

/-- The graph can be built, with a warning. -/
theorem watchedText_warns : ∃ compiler program warnings, Compiler.ofText watchedText = .ok compiler ∧
    compiler.build = .ok (program, warnings) ∧ warnings ≠ [] := by
  have hwarns : ((Compiler.ofText watchedText).toOption.bind (·.build.toOption)).any
      (!·.2.isEmpty) = true := by decide +kernel
  cases htext : Compiler.ofText watchedText with
  | error error => simp [htext, Except.toOption] at hwarns
  | ok compiler =>
      cases hbuild : compiler.build with
      | error rejection => simp [htext, hbuild, Except.toOption] at hwarns
      | ok result =>
          refine ⟨compiler, result.1, result.2, rfl, hbuild, ?_⟩
          simpa [htext, hbuild, Except.toOption] using hwarns

/-- With the flag, the graph is refused, and neither of the files is written. -/
theorem watchedFolder_refused :
    let result := runArguments Folder.host
      (["graph.json", "-o", "out.js"] ++ "--deny-warnings" :: ["--artifact", "out.bin"]) watchedFolder
    result.1 = 1 ∧ result.2.out = "" ∧ result.2.files.get? "out.js" = none ∧
      result.2.files.get? "out.bin" = none := by
  obtain ⟨compiler, program, warnings, htext, hbuild, hwarnings⟩ := watchedText_warns
  have hcompile := Compiler.compile_of_build hbuild (Graph.build_eq_ok hbuild).2.1
  obtain ⟨-, hrefused⟩ := denied_warnings_end_run watchedFolder ["graph.json", "-o", "out.js"]
    ["--artifact", "out.bin"] _ (by decide) rfl
  obtain ⟨hcode, hout, hfiles⟩ := hrefused watchedText watchedFolder_text
    (.warned compiler _ htext hcompile rfl (by simp [hwarnings]))
  refine ⟨hcode, hout, ?_, ?_⟩
  · rw [hfiles]
    decide
  · rw [hfiles]
    decide

/-- If the program is to be printed, a run succeeds in spite of the flag and a warning. -/
theorem watchedFolder_dump_succeeds :
    let result := runArguments Folder.host ["graph.json", "--emit-ir", "--deny-warnings"] watchedFolder
    result.1 = 0 ∧ ¬ Folder.Quiet watchedFolder result.2 := by
  obtain ⟨compiler, program, warnings, htext, hbuild, hwarnings⟩ := watchedText_warns
  have hrun : runArguments Folder.host ["graph.json", "--emit-ir", "--deny-warnings"] watchedFolder =
      emitProgram Folder.host compiler watchedFolder := by
    show run Folder.host "graph.json" _ watchedFolder = _
    rw [Folder.run_eq, watchedFolder_text]
    simp only [htext]
    rfl
  intro result
  rw [show result = _ from hrun, Folder.emitProgram_of_build hbuild]
  exact ⟨rfl, fun hquiet => hwarnings ((Folder.quiet_reportLines_iff rfl).1 hquiet)⟩

end TickScript.Cli
