import TickScript.Proofs.Emission.Composition
import TickScript.Proofs.Emission.Imports
import TickScript.Proofs.Text.Discipline

/-!
# Actions that write tidily

While a function is written, its lines so far await some closing brackets, or they are all of one line
but for the comments that name the branches of a fan-out. `Turns` says of an action what is awaited
before and after it, whatever else is awaited around it, and what holds of its result. Expressions that
are passed from node to node fit. `Kind.texts` lists the texts of settings that get into a script at
all, and `Kind.verbatim` those that get there as they are.
-/

namespace TickScript

open TickScript.Text TickScript.Emission

/-! ## Texts of nodes -/

namespace Kind

/-- The texts of a search that get into a script. -/
def Search.texts (settings : Search) : List String :=
  settings.find :: settings.filters.flatMap fun filter => filter.field.toList ++ filter.value.texts

/-- The texts of a spawn that get into a script. -/
def Spawn.texts (settings : Spawn) : List String :=
  settings.name :: (settings.spawn.toList ++ settings.memory.texts)

/-- The texts of a link that get into a script. -/
def Link.texts (settings : Link) : List String := settings.source.toList ++ settings.target.toList

/-- The texts of a market node that get into a script. -/
def Market.texts (settings : Market) : List String := settings.resource :: settings.orderId.toList

/-- The texts of a memory node that get into a script. -/
def Memory.texts (settings : Memory) : List String :=
  settings.path :: (settings.default.texts ++ settings.value.texts)

/-- The texts of the settings of a kind that get into a script, in quotes or without. Names of tasks do
not, nor does the name of a counter that is no identifier. -/
def texts : Kind → List String
  | .switch settings => settings.cases.flatMap (·.value.texts)
  | .return settings => settings.value.texts
  | .search settings => settings.texts
  | .byId settings => settings.id.toList
  | .look settings => [settings.look]
  | .best settings => settings.key.toList
  | .move settings => settings.target.texts
  | .harvest settings | .build settings | .repair settings => settings.target.texts
  | .transfer settings => settings.resource :: settings.target.texts
  | .withdraw settings => settings.resource :: settings.target.texts
  | .upgrade settings | .attack settings | .heal settings => settings.target.texts
  | .spawn settings => settings.texts
  | .link settings => settings.texts
  | .market settings => settings.texts
  | .memoryRead settings | .memoryWrite settings | .memoryDelete settings => settings.texts
  | .taskCall settings => settings.args.texts
  | _ => []

/-- The texts of the settings of a kind that get into a script as they are. Ids, names and paths are
quoted there, and keys are if they have to be. -/
def verbatim : Kind → List String
  | .switch settings => settings.cases.flatMap (·.value.strings)
  | .return settings => settings.value.strings
  | .search settings => settings.find :: settings.filters.flatMap (·.value.strings)
  | .look settings => [settings.look]
  | .move settings => settings.target.strings
  | .harvest settings | .build settings | .repair settings => settings.target.strings
  | .transfer settings => settings.resource :: settings.target.strings
  | .withdraw settings => settings.resource :: settings.target.strings
  | .upgrade settings | .attack settings | .heal settings => settings.target.strings
  | .spawn settings => settings.memory.strings
  | .market settings => [settings.resource]
  | .memoryRead settings => settings.default.strings
  | .memoryWrite settings => settings.value.strings
  | .taskCall settings => settings.args.strings
  | _ => []

end Kind

/-- The texts of the settings of a kind suit a script. -/
abbrev Kind.Suits (discipline : Discipline) (kind : Kind) : Prop :=
  discipline.Suits kind.verbatim kind.texts

/-- The texts of a constant input. -/
def Port.texts : Port → List String
  | .edge _ _ => []
  | .literal value => value.texts

/-- The texts of a constant input, the keys of maps aside. -/
def Port.verbatim : Port → List String
  | .edge _ _ => []
  | .literal value => value.strings

/-- The texts of a node that get into a script. -/
def Node.texts (node : Node) : List String :=
  node.kind.texts ++ node.inputs.values.flatMap Port.texts ++ node.slots.keys

/-- The texts of a node that get into a script as they are. -/
def Node.verbatim (node : Node) : List String :=
  node.kind.verbatim ++ node.inputs.values.flatMap Port.verbatim

theorem flatMap_subset_flatMap {α : Type} {items : List α} {few more : α → List String}
    (h : ∀ item, few item ⊆ more item) : items.flatMap few ⊆ items.flatMap more := by
  intro text htext
  obtain ⟨item, hitem, hmem⟩ := List.mem_flatMap.1 htext
  exact List.mem_flatMap.2 ⟨item, hitem, h item hmem⟩

theorem Kind.verbatim_subset_texts (kind : Kind) : kind.verbatim ⊆ kind.texts := by
  have hstrings (literal : Literal) := literal.strings_subset_texts
  cases kind with
  | switch settings => exact flatMap_subset_flatMap fun case => hstrings case.value
  | search settings =>
      exact List.cons_subset_cons _ (flatMap_subset_flatMap fun filter =>
        List.subset_append_of_subset_right _ (hstrings filter.value))
  | look settings => exact List.Subset.refl _
  | «return» settings | taskCall settings => exact hstrings _
  | move settings | harvest settings | build settings | repair settings | upgrade settings
  | attack settings | heal settings => exact hstrings settings.target
  | transfer settings | withdraw settings => exact List.cons_subset_cons _ (hstrings settings.target)
  | spawn settings =>
      exact List.subset_cons_of_subset _
        (List.subset_append_of_subset_right _ (hstrings settings.memory))
  | market settings => exact List.cons_subset_cons _ (List.nil_subset _)
  | memoryRead settings =>
      exact List.subset_cons_of_subset _
        (List.subset_append_of_subset_left _ (hstrings settings.default))
  | memoryWrite settings =>
      exact List.subset_cons_of_subset _
        (List.subset_append_of_subset_right _ (hstrings settings.value))
  | _ => exact List.nil_subset _

theorem Node.verbatim_subset_texts (node : Node) : node.verbatim ⊆ node.texts := by
  have hport (port : Port) : port.verbatim ⊆ port.texts := by
    cases port with
    | edge => exact List.nil_subset _
    | literal value => exact value.strings_subset_texts
  refine List.append_subset.2 ⟨?_, ?_⟩
  · exact List.subset_append_of_subset_left _
      (List.subset_append_of_subset_left _ node.kind.verbatim_subset_texts)
  · exact List.subset_append_of_subset_left _
      (List.subset_append_of_subset_right _ (flatMap_subset_flatMap hport))

namespace Emission

variable {discipline : Discipline} {node : Node} {imports : Imports}

/-- The constant inputs of a node are tidy. -/
def TidyInputs (discipline : Discipline) (node : Node) : Prop :=
  ∀ name value, node.input? name = some (.literal value) → value.Tidy discipline

theorem kind_suits (h : discipline.Suits node.verbatim node.texts) : node.kind.Suits discipline :=
  h.mono (List.subset_append_left _ _)
    (List.subset_append_of_subset_left _ (List.subset_append_left _ _))

theorem tidyInputs_of_suits (h : discipline.Suits node.verbatim node.texts) :
    TidyInputs discipline node := by
  intro name value hvalue
  have hmem := Keyed.mem_values_of_get? hvalue
  refine Literal.tidy_of_suits (h.mono ?_ ?_)
  · exact fun text htext =>
      List.mem_append_right _ (List.mem_flatMap.2 ⟨.literal value, hmem, htext⟩)
  · exact fun text htext => List.mem_append_left _
      (List.mem_append_right _ (List.mem_flatMap.2 ⟨.literal value, hmem, htext⟩))

/-! ## Contexts -/

/-- The comment before a branch of a fan-out. -/
def branchComment (name : String) : String := "// branch: " ++ name

/-- The brackets that are awaited after more lines. -/
def scanLines (awaited : List Char) (lines : List Line) : Option (List Char) :=
  lines.foldlM (fun awaited line => scan awaited line.text.toList) awaited

/-- The lines of a function await some brackets. Or they are of one line, but for comments before
branches of the given names. -/
def Reads (branches : List String) : Discipline → List Char → List Line → Prop
  | .brackets, awaited, lines => scanLines [] lines = some awaited
  | .lines, _, lines => ∀ line ∈ lines,
      OneLine line.text ∨ ∃ name ∈ branches, line.text = branchComment name

namespace Reads

variable {branches : List String} {before after : List Char} {lines : List Line} {text : String}

theorem nil (discipline : Discipline) (branches : List String) : Reads branches discipline [] [] := by
  cases discipline with
  | brackets => rfl
  | lines => exact fun _ h => nomatch h

theorem push (h : Reads branches discipline before lines) (htext : discipline.Turns before after text)
    (indent : Nat) : Reads branches discipline after (lines ++ [⟨indent, text⟩]) := by
  cases discipline with
  | brackets =>
      change scanLines [] (lines ++ _) = _
      rw [scanLines, List.foldlM_append]
      exact Option.bind_eq_some_iff.2 ⟨before, h, Option.bind_eq_some_iff.2 ⟨after, htext, rfl⟩⟩
  | lines =>
      exact List.forall_mem_append.2 ⟨h, List.forall_mem_singleton.2 (.inl htext.oneLine)⟩

/-- The comment before a branch whose name is known. -/
theorem comment {name : String} (h : Reads branches discipline before lines)
    (hname : discipline.Admits name) (hknown : name ∈ branches) (indent : Nat) :
    Reads branches discipline before (lines ++ [⟨indent, branchComment name⟩]) := by
  cases discipline with
  | brackets =>
      have hfits := Discipline.fits_of_isClean hname
      refine h.push ?_ indent
      rw [Discipline.turns_iff, branchComment, Discipline.scan_text_append,
        Discipline.Fits.scan ((by decide : Harmless "// branch: ") _), Option.bind_some, hfits.scan]
  | lines =>
      refine List.forall_mem_append.2 ⟨h, List.forall_mem_singleton.2 ?_⟩
      exact .inr ⟨name, hknown, rfl⟩

/-- More names are known. -/
theorem mono {more : List String} (h : Reads branches discipline before lines)
    (hmore : branches ⊆ more) : Reads more discipline before lines := by
  cases discipline with
  | brackets => exact h
  | lines =>
      exact fun line hline => (h line hline).imp_right fun ⟨name, hname, htext⟩ =>
        ⟨name, hmore hname, htext⟩

end Reads

/-- Modules that are imported fit in quotes, and so do symbols and their aliases as they are. -/
def Imports.Tidy (discipline : Discipline) (imports : Imports) : Prop :=
  imports.Each fun module symbol localName =>
    discipline.Fits (quote module) ∧ discipline.Fits symbol ∧ discipline.Fits localName

theorem Imports.fits_numbered {symbol : String} (h : discipline.Fits symbol) (number : Nat) :
    discipline.Fits (numbered symbol number) := by
  cases number with
  | zero => exact h
  | succ number =>
      exact (h.append ((by decide : Harmless "_") _)).append (Discipline.fits_repr _)

theorem Imports.Tidy.merge {other : Imports} (h : imports.Tidy discipline)
    (hother : other.Tidy discipline) : (imports.merge other).Tidy discipline :=
  Each.merge h hother fun _ _ _ hentry number =>
    ⟨hentry.1, hentry.2.1, fits_numbered hentry.2.1 number⟩

/-- The lines of a context await brackets, and the expressions that it keeps fit. No line has been
taken away. -/
structure Context.Awaits (discipline : Discipline) (branches : List String) (awaited : List Char)
    (context : Context) : Prop where
  lines : Reads branches discipline awaited context.lines
  values : ∀ entry ∈ context.values, discipline.Fits entry.2
  imports : context.imports.Tidy discipline
  actor : discipline.Fits context.actor
  taken : context.taken = []

/-- More names are known. -/
theorem Context.Awaits.mono {branches more : List String} {awaited : List Char} {context : Context}
    (h : context.Awaits discipline branches awaited) (hmore : branches ⊆ more) :
    context.Awaits discipline more awaited :=
  { h with lines := h.lines.mono hmore }

/-! ## Actions -/

/-- `Turns holds before action after result` says that an action leads from states in which some
brackets are awaited to states in which others are, inside of whatever else is awaited, and what holds
of its result. -/
def Turns {σ α : Type} (holds : List Char → σ → Prop) (before : List Char) (action : StateM σ α)
    (after : List Char) (result : α → Prop) : Prop :=
  ∀ outer state, holds (before ++ outer) state →
    holds (after ++ outer) (action.run state).2 ∧ result (action.run state).1

namespace Turns

variable {σ α β : Type} {holds : List Char → σ → Prop} {before middle after : List Char}

theorem pure {value : α} {result : α → Prop} (h : result value) :
    Turns holds before (Pure.pure value) before result := fun _ _ hstate => ⟨hstate, h⟩

/-- An action that does nothing. -/
theorem skip (value : α) : Turns holds before (Pure.pure value) before fun _ => True := pure trivial

theorem bind {action : StateM σ α} {next : α → StateM σ β} {between : α → Prop} {result : β → Prop}
    (haction : Turns holds before action middle between)
    (hnext : ∀ value, between value → Turns holds middle (next value) after result) :
    Turns holds before (action >>= next) after result := by
  intro outer state hstate
  obtain ⟨hmiddle, hvalue⟩ := haction outer state hstate
  exact hnext _ hvalue outer _ hmiddle

/-- More can be awaited around an action. -/
theorem frame {action : StateM σ α} {result : α → Prop} (h : Turns holds before action after result)
    (around : List Char) : Turns holds (before ++ around) action (after ++ around) result := by
  intro outer state hstate
  rw [List.append_assoc] at hstate ⊢
  exact h (around ++ outer) state hstate

/-- Something is done first if a condition is met. -/
theorem guarded {condition : Prop} [Decidable condition] {first : StateM σ PUnit}
    {rest : PUnit → StateM σ α} {result : α → Prop}
    (hfirst : Turns holds before first before fun _ => True)
    (hrest : ∀ done, Turns holds before (rest done) after result) :
    Turns holds before (if condition then first >>= rest else rest ⟨⟩) after result := by
  split
  · exact hfirst.bind fun done _ => hrest done
  · exact hrest _

/-- The same for every item of a list. -/
theorem forM {items : List α} {action : α → StateM σ PUnit}
    (h : ∀ item ∈ items, Turns holds before (action item) before fun _ => True) :
    Turns holds before (items.forM action) before fun _ => True := by
  induction items with
  | nil => exact skip _
  | cons item items ih =>
      obtain ⟨hitem, hitems⟩ := List.forall_mem_cons.1 h
      exact hitem.bind fun _ _ => ih hitems

end Turns

namespace Emit

variable {α : Type} {branches : List String} {before after : List Char} {text stem expr : String}
  {fallback : Literal}

/-- An action on contexts closes the brackets that it opens, and its lines are of one line. -/
abbrev Tidy (discipline : Discipline) (branches : List String) (action : Emit α)
    (result : α → Prop) : Prop :=
  Turns (Context.Awaits discipline branches) [] action [] result

theorem say_turns (h : discipline.Turns before after text) :
    Turns (Context.Awaits discipline branches) before (say text) after fun _ => True :=
  fun outer _ hcontext =>
    ⟨{ hcontext with lines := hcontext.lines.push (h.frame outer) _ }, trivial⟩

theorem say_tidy (h : discipline.Fits text) : Tidy discipline branches (say text) fun _ => True :=
  say_turns h

theorem fresh_tidy (hstem : Harmless stem) :
    Tidy discipline branches (fresh stem) discipline.Fits := fun _ _ hcontext =>
  ⟨{ hcontext with },
    ((hstem _).append ((by decide : Harmless "_") _)).append (Discipline.fits_repr _)⟩

theorem turns_opening {header : String} (h : discipline.Fits header) :
    discipline.Turns [] (discipline.inside '\x7d') (header ++ " \x7b") := by
  simp only [Discipline.turns_iff, Discipline.scan_text_append, h.scan]
  cases discipline <;> decide

theorem turns_closing : discipline.Turns (discipline.inside '\x7d') [] "\x7d" := by
  cases discipline <;> decide

theorem block_tidy {header : String} {body : Emit Unit} (hheader : discipline.Fits header)
    (hbody : Tidy discipline branches body fun _ => True) :
    Tidy discipline branches (block header body) fun _ => True := by
  have hindent (change : Context → Context)
      (hchange : ∀ awaited context, context.Awaits discipline branches awaited →
        (change context).Awaits discipline branches awaited) :
      Turns (Context.Awaits discipline branches) (discipline.inside '\x7d') (modify change)
        (discipline.inside '\x7d') fun _ => True :=
    fun _ context hcontext => ⟨hchange _ context hcontext, trivial⟩
  refine (say_turns (turns_opening hheader)).bind fun _ _ => ?_
  refine (hindent Context.enter fun _ _ h => { h with }).bind fun _ _ => ?_
  refine (hbody.frame (discipline.inside '\x7d')).bind fun _ _ => ?_
  refine (hindent Context.exit fun _ _ h => { h with }).bind fun _ _ => ?_
  exact (say_turns turns_closing).bind fun _ _ => .skip _

theorem warn_tidy (nodeId message : String) :
    Tidy discipline branches (warn nodeId message) fun _ => True :=
  fun _ _ hcontext => ⟨{ hcontext with }, trivial⟩

theorem produce_tidy (nodeId : String) (h : discipline.Fits expr) :
    Tidy discipline branches (produce nodeId expr) fun _ => True := fun _ _ hcontext =>
  ⟨{ hcontext with values := List.forall_mem_cons.2 ⟨h, hcontext.values⟩ }, trivial⟩

theorem require_tidy {symbol module : String} (hsymbol : Harmless symbol)
    (hmodule : Harmless module) :
    Tidy discipline branches (require symbol module) discipline.Fits := by
  intro _ context hcontext
  have hentry (number : Nat) : discipline.Fits (quote module) ∧ discipline.Fits symbol ∧
      discipline.Fits (Imports.numbered symbol number) :=
    ⟨(hmodule _).quote, hsymbol _, Imports.fits_numbered (hsymbol _) number⟩
  refine ⟨{ hcontext with imports := hcontext.imports.require hentry }, ?_⟩
  exact (hcontext.imports.alias hentry).2.2

theorem actor_tidy : Tidy discipline branches actor discipline.Fits := fun _ _ hcontext =>
  ⟨hcontext, hcontext.actor⟩

theorem input_tidy (hnode : TidyInputs discipline node) (name : String)
    (hfallback : fallback.Tidy discipline) :
    Tidy discipline branches (input node name fallback) discipline.Fits := by
  intro _ context hcontext
  cases hport : node.input? name with
  | none =>
      rw [input_of_none hport]
      exact ⟨{ hcontext with }, hfallback.fits_render⟩
  | some port =>
      rw [input_of_some hport]
      cases port with
      | literal value => exact ⟨hcontext, (hnode name value hport).fits_render⟩
      | edge source port =>
          rw [resolve_edge]
          cases hvalue : context.valueOf? source with
          | none => exact ⟨{ hcontext with }, (by decide : Harmless unresolved) _⟩
          | some expr =>
              obtain ⟨before, after, hvalues, -⟩ := List.lookup_eq_some_iff.1 hvalue
              exact ⟨{ hcontext with }, hcontext.values (source, expr) (by simp [hvalues])⟩

theorem optionalInput_tidy (hnode : TidyInputs discipline node) (name : String)
    (hfallback : fallback.Tidy discipline) :
    Tidy discipline branches (optionalInput node name fallback) (Literal.Tidy discipline) := by
  refine (input_tidy hnode name hfallback).bind fun expr hexpr => .pure ?_
  split
  · exact .undefined
  · exact .text hexpr

theorem actorInput_tidy (hnode : TidyInputs discipline node) :
    Tidy discipline branches (actorInput node) discipline.Fits :=
  actor_tidy.bind fun _ hactor => input_tidy hnode _ (.text hactor)

/-- A member of an expression. -/
theorem fits_member {member : String} (hexpr : discipline.Fits expr) (hmember : Harmless member) :
    discipline.Fits (expr ++ "." ++ member) :=
  (hexpr.append ((by decide : Harmless ".") _)).append (hmember _)

theorem actorMember_tidy {member : String} (h : Harmless member) :
    Tidy discipline branches (actorMember member) (Literal.Tidy discipline) :=
  actor_tidy.bind fun _ hactor => .pure (.text (fits_member hactor h))

/-- The declaration of a constant. -/
theorem fits_const {name : String} (hname : discipline.Fits name) (hexpr : discipline.Fits expr) :
    discipline.Fits s!"const {name} = {expr};" := by
  simp only [Discipline.fits_iff, toString, Discipline.scan_text_append, hname.scan, hexpr.scan]
  cases discipline <;> decide

theorem bind_tidy (hstem : Harmless stem) (hexpr : discipline.Fits expr) :
    Tidy discipline branches (bind stem expr) discipline.Fits := by
  unfold bind
  split
  · exact .pure hexpr
  · exact (fresh_tidy hstem).bind fun _ hname =>
      (say_tidy (fits_const hname hexpr)).bind fun _ _ => .pure hname

theorem define_tidy (hstem : Harmless stem) (hexpr : discipline.Fits expr) :
    Tidy discipline branches (define node stem expr) discipline.Fits :=
  (fresh_tidy hstem).bind fun _ hname => (say_tidy (fits_const hname hexpr)).bind fun _ _ =>
    (produce_tidy _ hname).bind fun _ _ => .pure hname

end Emit

end Emission

end TickScript
