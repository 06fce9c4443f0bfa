import TickScript.Proofs.Emission.Aliases
import TickScript.Proofs.Emission.Calls
import TickScript.Proofs.Emission.Temporaries
import TickScript.Proofs.Emission.TidyStatements

/-!
# Tidy walks

Control structures open a block, write chains of nodes and close the block again, whatever the chains
are: a chain that stops early at a join point or ends in a return has closed its brackets as any other.
A fan-out names its branches in comments, and these names are written as they are, so a walk keeps the
names of the fan-outs that it has come to. `functions_tidy` says of all functions of a program that
they are written tidily, if the texts of the program suit.
-/

namespace TickScript

open TickScript.Text TickScript.Emission
open Text.Discipline (fits_iff turns_iff scan_text_append fits_repr)

/-- The names that a node writes into comments. -/
def Node.branchNames (node : Node) : List String :=
  match node.kind with
  | .fanOut => node.slots.keys
  | _ => []

/-! ## Control structures -/

namespace Emission.Walk

/-- The names of the branches of all fan-outs that a walk has written. -/
def branchNames (table : NodeTable) (trace : List Event) : List String :=
  (dispatched trace).flatMap fun id =>
    match table.get? id with
    | some node => node.branchNames
    | none => []

/-- The lines of a walk await some brackets, or are of one line but for the comments of the fan-outs
that it has written. Some of their names are known. -/
structure State.Awaits (discipline : Discipline) (table : NodeTable) (known : List String)
    (awaited : List Char) (state : State) : Prop where
  known : known ⊆ branchNames table state.trace
  context : state.context.Awaits discipline (branchNames table state.trace) awaited

variable {α : Type} {discipline : Discipline} {table : NodeTable} {known : List String}
  {before after : List Char} {text : String} {result : α → Prop}

/-- An action of a walk closes the brackets that it opens, and its lines are of one line. -/
abbrev Tidy (discipline : Discipline) (table : NodeTable) (known : List String) (action : Walk α)
    (result : α → Prop) : Prop :=
  Turns (State.Awaits discipline table known) [] action [] result

theorem lift_turns {action : Emit α}
    (h : ∀ branches, Turns (Context.Awaits discipline branches) before action after result) :
    Turns (State.Awaits discipline table known) before (lift action) after result :=
  fun outer state hstate =>
    have hcontext := h _ outer state.context hstate.context
    ⟨⟨hstate.known, hcontext.1⟩, hcontext.2⟩

theorem say_turns (h : discipline.Turns before after text) :
    Turns (State.Awaits discipline table known) before (say text) after fun _ => True :=
  lift_turns fun _ => Emit.say_turns h

theorem say_tidy (h : discipline.Fits text) :
    Tidy discipline table known (say text) fun _ => True :=
  say_turns h

/-- The comment before a branch whose name is known. -/
theorem say_branchComment {name : String} (hname : discipline.Admits name) (hknown : name ∈ known) :
    Tidy discipline table known (say (branchComment name)) fun _ => True := fun _ _ hstate =>
  have hcontext := hstate.context
  ⟨⟨hstate.known, { hcontext with
      lines := hcontext.lines.comment hname (hstate.known hknown) _ }⟩, trivial⟩

theorem indented_turns {body : Walk α}
    (h : Turns (State.Awaits discipline table known) before body after result) :
    Turns (State.Awaits discipline table known) before (indented body) after result := by
  have hindent (awaited : List Char) (change : Context → Context)
      (hchange : ∀ branches awaited context, context.Awaits discipline branches awaited →
        (change context).Awaits discipline branches awaited) :
      Turns (State.Awaits discipline table known) awaited (lift (modify change)) awaited
        fun _ => True :=
    lift_turns fun _ _ context hcontext => ⟨hchange _ _ context hcontext, trivial⟩
  refine (hindent before Context.enter fun _ _ _ h => { h with }).bind fun _ _ =>
    h.bind fun _ hvalue => ?_
  exact (hindent after Context.exit fun _ _ _ h => { h with }).bind fun _ _ => .pure hvalue

theorem block_tidy {header : String} {body : Walk Unit} (hheader : discipline.Fits header)
    (hbody : Tidy discipline table known body fun _ => True) :
    Tidy discipline table known (block header body) fun _ => True := by
  refine (say_turns (Emit.turns_opening hheader)).bind fun _ _ => ?_
  refine (indented_turns (hbody.frame (discipline.inside '\x7d'))).bind fun _ _ => ?_
  exact (say_turns Emit.turns_closing).bind fun _ _ => .skip _

theorem fresh_tidy {stem : String} (hstem : Harmless stem) :
    Tidy discipline table known (lift (Emit.fresh stem)) discipline.Fits :=
  lift_turns fun _ => Emit.fresh_tidy hstem

theorem input_tidy {node : Node} {fallback : Literal} (hnode : TidyInputs discipline node)
    (name : String) (hfallback : fallback.Tidy discipline) :
    Tidy discipline table known (lift (Emit.input node name fallback)) discipline.Fits :=
  lift_turns fun _ => Emit.input_tidy hnode name hfallback

theorem produce_tidy {expr : String} (nodeId : String) (h : discipline.Fits expr) :
    Tidy discipline table known (lift (Emit.produce nodeId expr)) fun _ => True :=
  lift_turns fun _ => Emit.produce_tidy nodeId h

end Emission.Walk

namespace Kind

open Emission.Walk

variable {discipline : Discipline} {table : NodeTable} {known : List String}
  {branch : List String → Walk Unit} {node : Node}
  (hbranch : ∀ ids, Tidy discipline table known (branch ids) fun _ => True)

include hbranch

theorem emitBranch_tidy (hnode : TidyInputs discipline node) :
    Tidy discipline table known (emitBranch branch node) fun _ => True := by
  refine (input_tidy hnode _ (.bool false)).bind fun condition hcondition => ?_
  have hopen : discipline.Turns [] (discipline.inside '\x7d') s!"if ({condition}) \x7b" := by
    simp only [turns_iff, toString, scan_text_append, hcondition.scan]
    cases discipline <;> decide
  have helse : discipline.Turns (discipline.inside '\x7d') (discipline.inside '\x7d')
      "\x7d else \x7b" := by
    cases discipline <;> decide
  have hslot (name : String) :=
    indented_turns ((hbranch (node.slot name)).frame (discipline.inside '\x7d'))
  refine (say_turns hopen).bind fun _ _ => (hslot _).bind fun _ _ => ?_
  dsimp only
  split
  · exact (say_turns helse).bind fun _ _ => (hslot _).bind fun _ _ => say_turns Emit.turns_closing
  · exact say_turns Emit.turns_closing

namespace Switch

theorem emitCases_tidy {cases : List SwitchCase} (h : ∀ case ∈ cases, case.value.Tidy discipline)
    (index : Nat) (earlier : List Literal) :
    Tidy discipline table known (emitCases branch node index earlier cases) fun _ => True := by
  induction cases generalizing index earlier with
  | nil => exact .skip _
  | cons case cases ih =>
      obtain ⟨hcase, hcases⟩ := List.forall_mem_cons.1 h
      have hheader : discipline.Fits s!"case {case.value.render}:" := by
        simp only [fits_iff, toString, scan_text_append, hcase.fits_render.scan]
        cases discipline <;> decide
      unfold emitCases
      dsimp only
      split
      · exact (lift_turns fun _ => Emit.warn_tidy _ _).bind fun _ _ => ih hcases _ _
      · refine (block_tidy hheader ((hbranch _).bind fun _ _ => ?_)).bind fun _ _ => ih hcases _ _
        exact say_tidy ((by decide : Harmless "break;") _)

theorem emit_tidy {settings : Switch} (hnode : TidyInputs discipline node)
    (h : (Kind.switch settings).Suits discipline) :
    Tidy discipline table known (settings.emit branch node) fun _ => True := by
  have hcases : ∀ case ∈ settings.cases, case.value.Tidy discipline := fun case hcase =>
    Literal.tidy_of_suits (h.mono (fun text htext => List.mem_flatMap.2 ⟨case, hcase, htext⟩)
      fun text htext => List.mem_flatMap.2 ⟨case, hcase, htext⟩)
  refine (input_tidy hnode _ .undefined).bind fun value hvalue => ?_
  refine block_tidy ?_ ((emitCases_tidy hbranch hcases _ _).bind fun _ _ => block_tidy ?_ ?_)
  · simp only [fits_iff, toString, scan_text_append, hvalue.scan]
    cases discipline <;> decide
  · cases discipline <;> decide
  · exact (hbranch _).bind fun _ _ => say_tidy ((by decide : Harmless "break;") _)

end Switch

namespace Loop

theorem emitCounted_tidy (settings : Loop) {ran : String} (hran : discipline.Fits ran) :
    Tidy discipline table known (settings.emitCounted branch node ran) fun _ => True := by
  have hloop {counter : String} (hcounter : discipline.Fits counter) : Tidy discipline table known
      (Walk.block s!"for (let {counter} = 0; {counter} < {settings.maxIterations}; {counter}++)" do
        Walk.say s!"{ran} = true;"
        Walk.lift (Emit.produce node.id counter)
        branch (node.slot "body")) fun _ => True := by
    refine block_tidy ?_ ((say_tidy ?_).bind fun _ _ =>
      (produce_tidy _ hcounter).bind fun _ _ => hbranch _)
    · simp only [fits_iff, toString, scan_text_append, hcounter.scan, (fits_repr _).scan]
      cases discipline <;> decide
    · simp only [fits_iff, toString, scan_text_append, hran.scan]
      cases discipline <;> decide
  unfold emitCounted
  dsimp only
  split
  · split
    · next name hname =>
      exact (Turns.pure (Discipline.harmless_of_isIdentifier hname discipline)).bind fun _ => hloop
    · exact (fresh_tidy (by decide)).bind fun _ => hloop
  · exact (fresh_tidy (by decide)).bind fun _ => hloop

theorem emitConditional_tidy (settings : Loop) (hnode : TidyInputs discipline node) {ran : String}
    (hran : discipline.Fits ran) :
    Tidy discipline table known (settings.emitConditional branch node ran) fun _ => True := by
  refine (input_tidy hnode _ (.bool true)).bind fun condition hcondition => ?_
  refine (fresh_tidy (by decide)).bind fun counter hcounter => ?_
  refine (say_tidy ?_).bind fun _ _ => block_tidy ?_ ((say_tidy ?_).bind fun _ _ =>
    (say_tidy ?_).bind fun _ _ => (say_tidy ?_).bind fun _ _ =>
      (produce_tidy _ hcounter).bind fun _ _ => hbranch _)
  · simp only [fits_iff, toString, scan_text_append, hcounter.scan]
    cases discipline <;> decide
  · simp only [fits_iff, toString, scan_text_append, hcondition.scan]
    cases discipline <;> decide
  · simp only [fits_iff, toString, scan_text_append, hcounter.scan, (fits_repr _).scan]
    cases discipline <;> decide
  · simp only [fits_iff, toString, scan_text_append, hcounter.scan]
    cases discipline <;> decide
  · simp only [fits_iff, toString, scan_text_append, hran.scan]
    cases discipline <;> decide

theorem emit_tidy (settings : Loop) (hnode : TidyInputs discipline node) :
    Tidy discipline table known (settings.emit branch node) fun _ => True := by
  refine (fresh_tidy (by decide)).bind fun ran hran => ?_
  have helse : Tidy discipline table known (if !(node.slot "else").isEmpty then
      Walk.block s!"if (!{ran})" (branch (node.slot "else")) else pure ()) fun _ => True := by
    split
    · refine block_tidy ?_ (hbranch _)
      simp only [fits_iff, toString, scan_text_append, hran.scan]
      cases discipline <;> decide
    · exact .skip _
  refine (say_tidy ?_).bind fun _ _ => ?_
  · simp only [fits_iff, toString, scan_text_append, hran.scan]
    cases discipline <;> decide
  · cases settings.mode with
    | counted => exact (settings.emitCounted_tidy hbranch hran).bind fun _ _ => helse
    | conditional => exact (settings.emitConditional_tidy hbranch hnode hran).bind fun _ _ => helse

end Loop

theorem emitAttempt_tidy : Tidy discipline table known (emitAttempt branch node) fun _ => True := by
  have htry : discipline.Turns [] (discipline.inside '\x7d') "try \x7b" := by
    cases discipline <;> decide
  have hfinally : discipline.Turns (discipline.inside '\x7d') (discipline.inside '\x7d')
      "\x7d finally \x7b" := by
    cases discipline <;> decide
  have hslot (name : String) := (hbranch (node.slot name)).frame (discipline.inside '\x7d')
  refine (say_turns htry).bind fun _ _ => (indented_turns (hslot "try")).bind fun _ _ => ?_
  refine ((fresh_tidy (by decide)).frame (discipline.inside '\x7d')).bind fun error herror => ?_
  have hcatch : discipline.Turns (discipline.inside '\x7d') (discipline.inside '\x7d')
      s!"\x7d catch ({error}) \x7b" := by
    simp only [turns_iff, toString, scan_text_append, herror.scan]
    cases discipline <;> decide
  have hcaught : Tidy discipline table known (do
      Walk.lift (Emit.produce node.id error)
      if (node.slot "catch").isEmpty then Walk.say "// error suppressed"
      else branch (node.slot "catch")) fun _ => True := by
    refine (produce_tidy node.id herror).bind fun _ _ => ?_
    split
    · exact say_tidy ((by decide : Harmless "// error suppressed") _)
    · exact hbranch _
  refine (say_turns hcatch).bind fun _ _ =>
    (indented_turns (hcaught.frame (discipline.inside '\x7d'))).bind fun _ _ => ?_
  dsimp only
  split
  · exact (say_turns hfinally).bind fun _ _ => (indented_turns (hslot _)).bind fun _ _ =>
      say_turns Emit.turns_closing
  · exact say_turns Emit.turns_closing

omit hbranch in
theorem Tick.fits_condition (settings : Tick) : discipline.Fits settings.condition := by
  have hint (number : Int) : discipline.Fits number.repr :=
    Discipline.harmless_of_isNumeral (isNumeral_int number) discipline
  unfold condition
  dsimp only
  split
  · split
    · simp only [fits_iff, toString, scan_text_append, (hint _).scan]
      cases discipline <;> decide
    · split <;>
      · simp only [fits_iff, toString, scan_text_append, (hint _).scan, (fits_repr _).scan]
        cases discipline <;> decide
  · simp only [fits_iff, toString, scan_text_append, (hint _).scan]
    cases discipline <;> decide

theorem Tick.emit_tidy (settings : Tick) :
    Tidy discipline table known (settings.emit branch node) fun _ => True := by
  refine (lift_turns fun _ => Emit.define_tidy (by decide) settings.fits_condition).bind ?_
  intro gate hgate
  refine block_tidy ?_ (hbranch _)
  simp only [fits_iff, toString, scan_text_append, hgate.scan]
  cases discipline <;> decide

theorem emitFanOut_tidy (h : ∀ name ∈ node.slots.keys, discipline.Admits name)
    (hknown : node.slots.keys ⊆ known) :
    Tidy discipline table known (emitFanOut branch node) fun _ => True := by
  refine .forM fun entry hentry => ?_
  have hname : entry.1 ∈ node.slots.keys := List.mem_map_of_mem hentry
  exact (say_branchComment (h _ hname) (hknown hname)).bind fun _ _ => hbranch entry.2

end Kind

/-! ## Walks -/

namespace Emission

open Kind

variable {discipline : Discipline} {setting : Setting} {node : Node}

/-- The statements of a node are tidy if the chains that it follows are. -/
theorem dispatch_tidy {known : List String} {branch : List String → Walk Unit}
    (hplain : setting.isPlain node = true) (hsuits : discipline.Suits node.verbatim node.texts)
    (hknown : node.branchNames ⊆ known)
    (hbranch : ∀ ids, Walk.Tidy discipline setting.table known (branch ids) fun _ => True) :
    Walk.Tidy discipline setting.table known (dispatch setting branch node) fun _ => True := by
  have hnode := tidyInputs_of_suits hsuits
  have hslots : ∀ name ∈ node.slots.keys, discipline.Admits name := fun name hname =>
    hsuits.admits name (List.mem_append_right _ hname)
  have hsettings {kind : Kind} (hkind : node.kind = kind) : kind.Suits discipline :=
    hkind ▸ kind_suits hsuits
  have hemit {action : Emit Unit} (h : ∀ branches, Emit.Tidy discipline branches action fun _ => True)
      (continuation : Continuation) : Walk.Tidy discipline setting.table known (do
        Walk.lift action
        return continuation) fun _ => True :=
    (Walk.lift_turns h).bind fun _ _ => .skip _
  have hconstruct {action : Walk Unit}
      (h : Walk.Tidy discipline setting.table known action fun _ => True) :
      Walk.Tidy discipline setting.table known (do
        action
        return Continuation.outputs) fun _ => True :=
    h.bind fun _ _ => .skip _
  unfold dispatch
  cases hkind : node.kind with
  | start | merge | taskDefine => exact .skip _
  | branch => exact hconstruct (emitBranch_tidy hbranch hnode)
  | switch settings => exact hconstruct (settings.emit_tidy hbranch hnode (hsettings hkind))
  | loop settings => exact hconstruct (settings.emit_tidy hbranch hnode)
  | attempt => exact hconstruct (emitAttempt_tidy hbranch)
  | tick settings => exact hconstruct (settings.emit_tidy hbranch)
  | fanOut =>
      refine hconstruct (emitFanOut_tidy hbranch hslots ?_)
      rwa [Node.branchNames, hkind] at hknown
  | «return» settings =>
      exact hemit (fun _ => settings.emit_tidy hnode (Literal.tidy_of_suits (hsettings hkind))) _
  | «break» => exact hemit (fun _ => Emit.say_tidy ((by decide : Harmless "break;") _)) _
  | «continue» => exact hemit (fun _ => Emit.say_tidy ((by decide : Harmless "continue;") _)) _
  | search settings => exact hemit (fun _ => settings.emit_tidy hnode (hsettings hkind)) _
  | byId settings => exact hemit (fun _ => settings.emit_tidy hnode (hsettings hkind)) _
  | look settings => exact hemit (fun _ => settings.emit_tidy hnode (hsettings hkind)) _
  | best settings => exact hemit (fun _ => settings.emit_tidy hnode (hsettings hkind)) _
  | move settings =>
      exact hemit (fun _ => settings.emit_tidy hnode (Literal.tidy_of_suits (hsettings hkind))) _
  | harvest settings | build settings | repair settings | upgrade settings | attack settings
  | heal settings =>
      have htarget : settings.target.Tidy discipline := Literal.tidy_of_suits (hsettings hkind)
      exact hemit (fun _ => settings.emit_tidy hnode (by decide) htarget) _
  | transfer settings => exact hemit (fun _ => settings.emit_tidy hnode (hsettings hkind)) _
  | withdraw settings => exact hemit (fun _ => settings.emit_tidy hnode (hsettings hkind)) _
  | spawn settings => exact hemit (fun _ => settings.emit_tidy hnode (hsettings hkind)) _
  | link settings => exact hemit (fun _ => settings.emit_tidy hnode (hsettings hkind)) _
  | market settings => exact hemit (fun _ => settings.emit_tidy hnode (hsettings hkind)) _
  | tower settings => exact hemit (fun _ => settings.emit_tidy hnode) _
  | memoryRead settings => exact hemit (fun _ => settings.emitRead_tidy hnode (hsettings hkind)) _
  | memoryWrite settings => exact hemit (fun _ => settings.emitWrite_tidy hnode (hsettings hkind)) _
  | memoryDelete settings =>
      exact hemit (fun _ => settings.emitDelete_tidy hnode (hsettings hkind)) _
  | taskCall settings =>
      exact hemit (fun _ => settings.emit_tidy hnode (Literal.tidy_of_suits (hsettings hkind))) _
  | custom custom =>
      dsimp only
      rw [emitCustom_of_plain hplain hkind]
      exact hemit (fun _ => Emit.warn_tidy _ _) _

/-- The texts that the nodes of a table write suit. -/
def Setting.Suits (discipline : Discipline) (setting : Setting) : Prop :=
  ∀ node ∈ setting.table.values, discipline.Suits node.verbatim node.texts

namespace Walk

variable {follow : String → Walk Unit} {id : String}

/-- A node that is written adds the names of its branches. -/
theorem branchNames_opened (state : State) (hnode : setting.table.get? id = some node) :
    branchNames setting.table (state.opened setting id node).trace =
      node.branchNames ++ branchNames setting.table state.trace := by
  change (id :: dispatched state.trace).flatMap _ = _
  rw [List.flatMap_cons, hnode]
  rfl

theorem write_tidy (hplain : setting.isPlain node = true)
    (hsuits : discipline.Suits node.verbatim node.texts) (hnode : setting.table.get? id = some node)
    (hfollow : ∀ known id, Tidy discipline setting.table known (follow id) fun _ => True)
    (known : List String) :
    Tidy discipline setting.table known (write setting follow id node) fun _ => True := by
  intro outer state hstate
  -- While the node is written, the names of its branches are known as well.
  have hopened : (state.opened setting id node).Awaits discipline setting.table
      (node.branchNames ++ known) outer := by
    have hnames := branchNames_opened state hnode
    refine ⟨?_, hnames ▸ hstate.context.mono (List.subset_append_right _ _)⟩
    rw [hnames]
    exact List.append_subset.2 ⟨List.subset_append_left _ _,
      List.subset_append_of_subset_right _ hstate.known⟩
  have hdispatch : Tidy discipline setting.table (node.branchNames ++ known)
      (dispatch setting (·.forM follow) node) fun _ => True :=
    dispatch_tidy hplain hsuits (List.subset_append_left _ _) fun _ =>
      .forM fun id _ => hfollow _ id
  have hclosed := (hdispatch outer _ hopened).1
  have hresumed : ((after (dispatch setting (·.forM follow) node)
      (state.opened setting id node)).resume id (continuationOf node.kind) state.joins).Awaits
        discipline setting.table known outer :=
    ⟨(List.append_subset.1 hclosed.known).2, hclosed.context⟩
  refine ⟨?_, trivial⟩
  change (after (write setting follow id node) state).Awaits discipline setting.table known outer
  rw [after_write follow id state hplain]
  dsimp only
  split
  · exact hresumed
  · exact (Turns.forM (fun id _ => hfollow known id) outer _ hresumed).1

/-- A visit is tidy, wherever it ends. -/
theorem visit_tidy (hplain : setting.Plain) (hsuits : setting.Suits discipline) (budget : Nat)
    (known : List String) (id : String) :
    Tidy discipline setting.table known (visit setting budget id) fun _ => True := by
  induction budget generalizing known id with
  | zero => exact .skip _
  | succ budget ih =>
      intro outer state hstate
      refine ⟨?_, trivial⟩
      change (after (visit setting (budget + 1) id) state).Awaits discipline setting.table known outer
      have hentered : (state.enter id).Awaits discipline setting.table known outer :=
        ⟨hstate.known, hstate.context⟩
      rw [after_visit]
      split
      · exact hstate
      · split
        · exact ⟨hstate.known, hstate.context⟩
        · split
          · next node hnode =>
            have hwritten := (write_tidy (hplain.isPlain hnode)
              (hsuits node (Keyed.mem_values_of_get? hnode)) hnode ih known outer _ hentered).1
            exact ⟨hwritten.known, hwritten.context⟩
          · exact ⟨hentered.known, hentered.context⟩

theorem walk_tidy {context : Context} (hplain : setting.Plain) (hsuits : setting.Suits discipline)
    (h : context.Awaits discipline [] []) (entry : String) :
    (after (walk setting entry) { context }).Awaits discipline setting.table [] [] :=
  (visit_tidy hplain hsuits _ [] entry [] { context } ⟨List.nil_subset _, h⟩).1

end Walk

end Emission

/-! ## Functions -/

/-- The texts of a task that get into a script. -/
def Task.texts (task : Task) : List String :=
  task.params.flatMap fun param =>
    param.key :: param.type :: param.default.toList.flatMap Literal.texts

/-- The texts of a task that get into a script as they are. -/
def Task.verbatim (task : Task) : List String :=
  task.params.flatMap fun param => param.type :: param.default.toList.flatMap Literal.strings

/-- The texts of a program that get into a script, but for names that are made identifiers. -/
def Program.texts (program : Program) : List String :=
  program.fileId :: (program.nodes.values.flatMap Node.texts ++ program.tasks.flatMap Task.texts)

/-- The texts of a program that get into a script as they are, but for the names of branches. -/
def Program.verbatim (program : Program) : List String :=
  program.nodes.values.flatMap Node.verbatim ++ program.tasks.flatMap Task.verbatim

theorem Program.verbatim_subset_texts (program : Program) : program.verbatim ⊆ program.texts := by
  refine List.subset_cons_of_subset _ (List.append_subset.2 ⟨?_, ?_⟩)
  · exact List.subset_append_of_subset_left _ (flatMap_subset_flatMap Node.verbatim_subset_texts)
  · refine List.subset_append_of_subset_right _ (flatMap_subset_flatMap fun task => ?_)
    refine flatMap_subset_flatMap fun param => List.subset_cons_of_subset _ ?_
    exact List.cons_subset_cons _ (flatMap_subset_flatMap Literal.strings_subset_texts)

namespace Emission

variable {discipline : Discipline} {setting : Setting} {context : Context} {task : Task}

/-- The texts around the body of a function fit. -/
def Function.Framed (discipline : Discipline) (function : Function) : Prop :=
  discipline.Fits function.header ∧ ∀ text ∈ function.preamble, discipline.Fits text

theorem fits_paramText {param : Kind.TaskParam} (hkey : discipline.Fits (propertyKey param.key))
    (htype : discipline.Fits param.type)
    (hdefault : ∀ default ∈ param.default, default.Tidy discipline) :
    discipline.Fits (paramText param) := by
  have hname : discipline.Fits (propertyKey param.key ++ ": " ++ param.type) :=
    (hkey.append ((by decide : Harmless ": ") _)).append htype
  unfold paramText
  dsimp only
  split
  · next default heq =>
    exact (hname.append ((by decide : Harmless " = ") _)).append (hdefault default heq).fits_render
  · exact hname

theorem taskFunction_framed (h : discipline.Suits task.verbatim task.texts) (body : List Line) :
    (taskFunction task body).Framed discipline := by
  have hparam : ∀ param ∈ task.params, discipline.Fits (paramText param) := by
    intro param hparam
    have hsuits : discipline.Suits (param.type :: param.default.toList.flatMap Literal.strings)
        (param.key :: param.type :: param.default.toList.flatMap Literal.texts) :=
      h.mono (fun text htext => List.mem_flatMap.2 ⟨param, hparam, htext⟩)
        fun text htext => List.mem_flatMap.2 ⟨param, hparam, htext⟩
    refine fits_paramText (hsuits.admits _ List.mem_cons_self).propertyKey
      (hsuits.fits _ List.mem_cons_self) fun default hdefault => ?_
    have hmem := Option.mem_toList.2 hdefault
    refine Literal.tidy_of_suits (hsuits.mono ?_ ?_)
    · exact fun text htext => List.mem_cons_of_mem _ (List.mem_flatMap.2 ⟨default, hmem, htext⟩)
    · exact fun text htext => List.mem_cons_of_mem _
        (List.mem_cons_of_mem _ (List.mem_flatMap.2 ⟨default, hmem, htext⟩))
  have hheader : discipline.Fits ("function " ++ taskIdentifier task.name ++ "(args)") := by
    simp only [fits_iff, scan_text_append, (Discipline.fits_taskIdentifier task.name).scan]
    cases discipline <;> decide
  refine ⟨hheader, ?_⟩
  change ∀ text ∈ paramComment task, discipline.Fits text
  unfold paramComment
  split
  · exact fun _ h => nomatch h
  · refine List.forall_mem_singleton.2 (Discipline.Fits.append ?_ ?_)
    · exact (by decide : Harmless "// params: ") _
    · exact Discipline.fits_commas (List.forall_mem_map.2 hparam)

theorem taskState_tidy (hplain : setting.Plain) (hsuits : setting.Suits discipline)
    (h : context.imports.Tidy discipline) (task : Task) :
    (taskState setting context task).Awaits discipline setting.table [] [] := by
  have hchild : context.child.Awaits discipline [] [] :=
    ⟨.nil _ _, (fun _ h => nomatch h), h, (by decide : Harmless taskActor) _, rfl⟩
  unfold taskState
  split
  · exact Walk.walk_tidy hplain hsuits hchild _
  · next hentry =>
    unfold taskContext
    rw [hentry]
    exact ⟨List.nil_subset _, { hchild with }⟩

/-- Tasks are written tidily, and leave tidy imports. -/
theorem emitTasks_tidy (hplain : setting.Plain) (hsuits : setting.Suits discipline)
    {tasks : List Task} (htasks : ∀ task ∈ tasks, discipline.Suits task.verbatim task.texts)
    (h : context.imports.Tidy discipline) :
    (∀ state ∈ taskStates setting context tasks, state.Awaits discipline setting.table [] []) ∧
      (∀ function ∈ (emitTasks setting context tasks).1, function.Framed discipline) ∧
      (emitTasks setting context tasks).2.imports.Tidy discipline := by
  induction tasks generalizing context with
  | nil => exact ⟨(fun _ h => nomatch h), (fun _ h => nomatch h), h⟩
  | cons task tasks ih =>
      obtain ⟨htask, htasks⟩ := List.forall_mem_cons.1 htasks
      have hstate := taskState_tidy hplain hsuits h task
      have hchild := hstate.context.imports
      rw [taskState_context] at hchild
      have habsorbed : (context.absorb (taskContext setting context task)).imports.Tidy discipline :=
        h.merge hchild
      obtain ⟨hstates, hfunctions, himports⟩ := ih htasks habsorbed
      refine ⟨List.forall_mem_cons.2 ⟨hstate, ?_⟩,
        List.forall_mem_cons.2 ⟨taskFunction_framed htask _, hfunctions⟩, himports⟩
      rwa [taskState_context]

/-- All functions of a program are written tidily. -/
theorem functions_tidy {program : Program} {registry : Registry}
    (hplain : (Setting.mk program.nodes registry).Plain)
    (hsuits : discipline.Suits program.verbatim program.texts) :
    (∀ state ∈ functionStates program registry, state.Awaits discipline program.nodes [] []) ∧
      (∀ function ∈ (functions program registry).1 :: (functions program registry).2.1,
        function.Framed discipline) ∧
      (functions program registry).2.2.imports.Tidy discipline := by
  have hnodes : (Setting.mk program.nodes registry).Suits discipline := by
    refine fun node hnode => hsuits.mono (fun text htext => ?_) fun text htext => ?_
    · exact List.mem_append_left _ (List.mem_flatMap.2 ⟨node, hnode, htext⟩)
    · exact List.mem_cons_of_mem _ (List.mem_append_left _
        (List.mem_flatMap.2 ⟨node, hnode, htext⟩))
  have htasks : ∀ task ∈ program.tasks, discipline.Suits task.verbatim task.texts := by
    refine fun task htask => hsuits.mono (fun text htext => ?_) fun text htext => ?_
    · exact List.mem_append_right _ (List.mem_flatMap.2 ⟨task, htask, htext⟩)
    · exact List.mem_cons_of_mem _ (List.mem_append_right _
        (List.mem_flatMap.2 ⟨task, htask, htext⟩))
  have hempty : Context.Awaits discipline [] [] {} :=
    ⟨.nil _ _, (fun _ h => nomatch h), .empty _, (by decide : Harmless mainActor) _, rfl⟩
  have hmain := Walk.walk_tidy hplain hnodes hempty program.entry
  obtain ⟨hstates, hfunctions, himports⟩ := @emitTasks_tidy discipline _
    { runWalk ⟨program.nodes, registry⟩ {} program.entry with lines := [] }
    hplain hnodes program.tasks htasks hmain.context.imports
  have hframed : (functions program registry).1.Framed discipline :=
    ⟨(by decide : Harmless "export function run(creep)") _, fun _ h => nomatch h⟩
  exact ⟨List.forall_mem_cons.2 ⟨hmain, hstates⟩, List.forall_mem_cons.2 ⟨hframed, hfunctions⟩,
    himports⟩

/-- The import statements fit. -/
theorem Imports.Tidy.fits_lines {imports : Imports} (h : imports.Tidy discipline)
    (hcoherent : imports.Coherent) : ∀ line ∈ imports.lines, discipline.Fits line := by
  refine List.forall_mem_map.2 fun entry hentry => ?_
  obtain ⟨module, symbols⟩ := entry
  have hmodule := Keyed.get?_of_mem hentry
  have htidy {symbol localName : String} (hname : symbols.get? symbol = some localName) :
      discipline.Fits (quote module) ∧ discipline.Fits symbol ∧ discipline.Fits localName :=
    h (module, symbol, localName) (mem_toList_iff.2 (Option.bind_eq_some_iff.2 ⟨_, hmodule, hname⟩))
  -- A module is listed with one symbol at least, and so its name fits.
  obtain ⟨symbol, hsome⟩ := hcoherent.inhabited module symbols hmodule
  obtain ⟨localName, hname⟩ := Option.isSome_iff_exists.1 hsome
  have hline {clauses : List String} (hclauses : ∀ clause ∈ clauses, discipline.Fits clause) :
      discipline.Fits
        ("import \x7b " ++ ", ".intercalate clauses ++ " \x7d from " ++ quote module ++ ";") := by
    simp only [fits_iff, scan_text_append, (Discipline.fits_commas hclauses).scan,
      (htidy hname).1.scan]
    cases discipline <;> decide
  refine hline (List.forall_mem_map.2 fun entry hentry => ?_)
  obtain ⟨-, hsymbol, halias⟩ := htidy (Keyed.get?_of_mem hentry)
  dsimp only [clause]
  split
  · exact hsymbol
  · exact (hsymbol.append ((by decide : Harmless " as ") _)).append halias

theorem fits_importLines {imports : Imports} (h : imports.Tidy discipline)
    (hcoherent : imports.Coherent) :
    ∀ line ∈ importLines imports, discipline.Fits line.text := by
  unfold importLines
  split
  · exact List.forall_mem_nil _
  · refine List.forall_mem_append.2 ⟨List.forall_mem_map.2 (h.fits_lines hcoherent), ?_⟩
    exact List.forall_mem_singleton.2 ((by decide : Harmless emptyLine.text) _)

theorem fits_headLine {fileId : String} (h : discipline.Admits fileId) :
    discipline.Fits (headLine fileId).text := by
  simp only [headLine, Line.flush, fits_iff, scan_text_append, h.quote.scan]
  cases discipline <;> decide

end Emission

end TickScript
