import Mathlib.Logic.Function.Basic
import Mathlib.Order.Bounds.Defs
import TickScript.Emission.File
import TickScript.Proofs.Emission.Composition
import TickScript.Proofs.Keyed

/-!
# Presets of bodies

A preset is chosen by a level, either when the script is written or by a loop of the script. The
statements that choose it in a script are data here, with their lines and with what they do to the
names of a function. The expression for the level stands inside of the loop, so it is read with the
names that the statements bind. `run?_selecting` says which tier the loop comes to, and
`presets_selected_alike` that both ways lead to the same parts, those of the greatest tier up to the
level or else of the least tier, if these names make no difference to the expression. Where only the
words of the expression are known, this is so exactly if it refers to none of the names or there is
one tier only.
-/

namespace TickScript.Kind.Spawn

open TickScript.Emission TickScript.Text

/-! ## Tiers -/

/-- The tier that is held after one more has been looked at. -/
def raised (level tier other : Nat) : Nat := if other ≤ level then other else tier

/-- What a loop over ascending tiers comes to: it keeps what it started with until there is a tier
up to the level, and then takes each of those. -/
theorem foldl_raised_bounds {level start : Nat} {tiers : List Nat}
    (h : (start :: tiers).Pairwise (· ≤ ·)) :
    (tiers.foldl (raised level) start = start ∨
      tiers.foldl (raised level) start ∈ tiers ∧ tiers.foldl (raised level) start ≤ level) ∧
    start ≤ tiers.foldl (raised level) start ∧
    ∀ other ∈ tiers, other ≤ level → other ≤ tiers.foldl (raised level) start := by
  induction tiers generalizing start with
  | nil => exact ⟨.inl rfl, Nat.le_refl _, nofun⟩
  | cons tier tiers ih =>
      obtain ⟨hstart, htiers⟩ := List.pairwise_cons.1 h
      rw [List.foldl_cons, raised]
      split
      · next hlevel =>
        obtain ⟨hfinal, hlow, hhigh⟩ := ih htiers
        refine ⟨.inr ?_, Nat.le_trans (hstart tier List.mem_cons_self) hlow,
          List.forall_mem_cons.2 ⟨fun _ => hlow, hhigh⟩⟩
        rcases hfinal with hsame | ⟨hmem, hbound⟩
        · rw [hsame]
          exact ⟨List.mem_cons_self, hlevel⟩
        · exact ⟨List.mem_cons_of_mem _ hmem, hbound⟩
      · next hlevel =>
        have hrest : (start :: tiers).Pairwise (· ≤ ·) :=
          List.pairwise_cons.2 ⟨fun other hother => hstart other (List.mem_cons_of_mem _ hother),
            (List.pairwise_cons.1 htiers).2⟩
        obtain ⟨hfinal, hlow, hhigh⟩ := ih hrest
        refine ⟨hfinal.imp_right fun h => ⟨List.mem_cons_of_mem _ h.1, h.2⟩, hlow, ?_⟩
        exact List.forall_mem_cons.2 ⟨fun hother => absurd hother hlevel, hhigh⟩

/-- The tier for a level: the greatest one up to the level if there is one, and the least one
otherwise. -/
structure TierFor (tiers : List Nat) (level tier : Nat) : Prop where
  mem : tier ∈ tiers
  greatest : (∃ other ∈ tiers, other ≤ level) →
    IsGreatest {other | other ∈ tiers ∧ other ≤ level} tier
  least : (∀ other ∈ tiers, level < other) → IsLeast {other | other ∈ tiers} tier

/-- A loop over ascending tiers that starts with the first of them finds the tier for the level. -/
theorem tierFor_foldl {first : Nat} {rest : List Nat} (h : (first :: rest).Pairwise (· < ·))
    (level : Nat) : TierFor (first :: rest) level ((first :: rest).foldl (raised level) first) := by
  have hfirst : ∀ tier ∈ first :: rest, first ≤ tier :=
    List.forall_mem_cons.2
      ⟨Nat.le_refl _, fun tier htier => Nat.le_of_lt ((List.pairwise_cons.1 h).1 tier htier)⟩
  obtain ⟨hfinal, -, hhigh⟩ := @foldl_raised_bounds level first (first :: rest)
    (List.pairwise_cons.2 ⟨hfirst, h.imp Nat.le_of_lt⟩)
  generalize (first :: rest).foldl (raised level) first = final at hfinal hhigh
  refine ⟨?_, ?_, ?_⟩
  · rcases hfinal with rfl | hfinal
    · exact List.mem_cons_self
    · exact hfinal.1
  · rintro ⟨tier, htier, hlevel⟩
    refine ⟨?_, fun other hother => hhigh other hother.1 hother.2⟩
    rcases hfinal with rfl | hfinal
    · exact ⟨List.mem_cons_self, Nat.le_trans (hfirst tier htier) hlevel⟩
    · exact hfinal
  · intro habove
    rcases hfinal with rfl | hfinal
    · exact ⟨List.mem_cons_self, fun other hother => hfirst other hother⟩
    · exact absurd hfinal.2 (Nat.not_le.2 (habove final hfinal.1))

/-- The choice by filters is the tier for the level. -/
theorem TierFor.selectTier_eq {tiers : List Nat} {level tier : Nat} (h : TierFor tiers level tier) :
    selectTier tiers level = some tier := by
  unfold selectTier
  by_cases hlevel : ∃ other ∈ tiers, other ≤ level
  · obtain ⟨hmem, hbound⟩ := h.greatest hlevel
    have hmax : (tiers.filter (· ≤ level)).max? = some tier := by
      rw [List.max?_eq_some_iff]
      refine ⟨List.mem_filter.2 ⟨hmem.1, decide_eq_true hmem.2⟩, fun other hother => ?_⟩
      obtain ⟨hother, hle⟩ := List.mem_filter.1 hother
      exact hbound ⟨hother, of_decide_eq_true hle⟩
    rw [hmax, Option.some_or]
  · have habove : ∀ other ∈ tiers, level < other := fun other hother =>
      Nat.not_le.1 fun hle => hlevel ⟨other, hother, hle⟩
    have hnone : tiers.filter (· ≤ level) = [] := by
      refine List.filter_eq_nil_iff.2 fun other hother => ?_
      rw [decide_eq_true_eq]
      exact Nat.not_le.2 (habove other hother)
    obtain ⟨hmem, hbound⟩ := h.least habove
    rw [hnone, List.max?_nil, Option.none_or, List.min?_eq_some_iff]
    exact ⟨hmem, fun other hother => hbound hother⟩

/-- A level that is itself a tier is the tier for the level. -/
theorem TierFor.eq_of_mem {tiers : List Nat} {level tier : Nat} (h : TierFor tiers level tier)
    (hlevel : level ∈ tiers) : tier = level := by
  obtain ⟨hmem, hbound⟩ := h.greatest ⟨level, hlevel, Nat.le_refl _⟩
  exact Nat.le_antisymm hmem.2 (hbound ⟨hlevel, Nat.le_refl _⟩)

/-! ## Names in expressions -/

/-- A word that refers to something may begin after these characters, the last of which comes first. A
word after a single dot names a member. -/
def startsWord : List Char → Bool
  | '.' :: '.' :: _ => true
  | c :: _ => !(isNamePart c || c == '.')
  | [] => true

/-- A word ends before these characters. -/
def endsWord : List Char → Bool
  | c :: _ => !isNamePart c
  | [] => true

/-- A name stands as a word in some characters, before which there are others. -/
def standsIn (name before : List Char) : List Char → Bool
  | [] => false
  | c :: rest =>
    (startsWord before && name.isPrefixOf (c :: rest) && endsWord ((c :: rest).drop name.length)) ||
      standsIn name (c :: before) rest

/-- A text refers to a name: it stands there as a word, and not as that of a member. Only words are
looked at, so one in quotes counts like any other. -/
def mentions (text name : String) : Bool := standsIn name.toList [] text.toList

/-! ## Statements -/

/-- What a name of a function is bound to. -/
inductive Bound where
  | number (value : Nat)
  | body (parts : List BodyPart)
  /-- An object with a body under each of its keys. -/
  | presets (rows : List (String × List BodyPart))

/-- One of the statements by which a script chooses a preset. -/
inductive Statement where
  /-- Hold the presets in a constant. -/
  | hold (name : String) (presets : List (Nat × List BodyPart))
  /-- Declare a variable for a tier. -/
  | start (name : String) (tier : Nat)
  /-- Do something with each of several tiers. -/
  | each (item : String) (tiers : List Nat) (action : Statement)
  /-- Put one tier in place of another unless it is above the level. -/
  | raise (name item level : String)
  /-- Hold the body of a tier in a constant. -/
  | pick (name presets tier : String)

/-- The presets under the numbers of their tiers. -/
def rows (presets : List (Nat × List BodyPart)) : List (String × List BodyPart) :=
  presets.map fun (tier, parts) => (Nat.repr tier, parts)

/-- The object that has the presets under the numbers of their tiers. -/
def presetLiteral (presets : List (Nat × List BodyPart)) : Literal :=
  .map (presets.map fun (tier, parts) => (Nat.repr tier, .text (partsList parts)))

/-- The lines of a statement at an indentation. -/
def Statement.lines (indent : Nat) : Statement → List Line
  | .hold name presets =>
    let object := (presetLiteral presets).render
    [⟨indent, s!"const {name} = {object};"⟩]
  | .start name tier => [⟨indent, s!"let {name} = {tier};"⟩]
  | .each item tiers action =>
    let list := listing (tiers.map Nat.repr)
    ⟨indent, s!"for (const {item} of {list})" ++ " \x7b"⟩ ::
      (action.lines (indent + indentStep) ++ [⟨indent, "\x7d"⟩])
  | .raise name item level =>
    let level := atom level
    [⟨indent, s!"if ({item} <= {level}) {name} = {item};"⟩]
  | .pick name presets tier => [⟨indent, s!"const {name} = {presets}[{tier}];"⟩]

/-- The name that a statement declares in its block. -/
def Statement.declared : Statement → List String
  | .hold name _ | .start name _ | .pick name _ _ => [name]
  | .each _ _ _ | .raise _ _ _ => []

/-- What the names of a function are bound to. -/
abbrev Bindings := String → Option Bound

/-- The names at the beginning of a block: those that are declared in it have no meaning yet. -/
def hide (statements : List Statement) (names : Bindings) : Bindings :=
  (statements.flatMap (·.declared)).foldl (fun names name => Function.update names name none) names

variable (value : Bindings → String → Nat)

/-- What a statement does to the names, where the expressions for levels are read as numbers with the
names as they are then. The name for the items of a loop is bound inside of the loop only. -/
def Statement.run? : Statement → Bindings → Option Bindings
  | .hold name presets, names => some (Function.update names name (some (.presets (rows presets))))
  | .start name tier, names => some (Function.update names name (some (.number tier)))
  | .each item tiers action, names =>
    tiers.foldlM (fun names tier => do
      let after ← action.run? (Function.update names item (some (.number tier)))
      return Function.update after item (names item)) names
  | .raise name item level, names =>
    match names name, names item with
    | some (.number held), some (.number tier) =>
      some (Function.update names name (some (.number (raised (value names level) held tier))))
    | _, _ => none
  | .pick name presets tier, names =>
    match names presets, names tier with
    | some (.presets rows), some (.number tier) =>
      (rows.lookup (Nat.repr tier)).map fun parts => Function.update names name (some (.body parts))
    | _, _ => none

/-- What the statements of a block do one after the other. -/
def run? (statements : List Statement) (names : Bindings) : Option Bindings :=
  statements.foldlM (fun names statement => statement.run? value names) (hide statements names)

/-- The tier that is held after one more has been looked at, with the names as they are then. -/
def round (names : Bindings) (name item level : String) (held tier : Nat) : Nat :=
  let inside := Function.update (Function.update names name (some (.number held))) item
    (some (.number tier))
  raised (value inside level) held tier

variable {value} {name item level : String} {names : Bindings} {held : Nat}

/-- One round of the loop raises the tier that is held. -/
theorem run?_raise (hne : name ≠ item) (h : names name = some (.number held)) (tier : Nat) :
    (Statement.raise name item level).run? value (Function.update names item (some (.number tier))) =
      some (Function.update (Function.update names name
        (some (.number (round value names name item level held tier)))) item
          (some (.number tier))) := by
  have hheld : Function.update names item (some (.number tier)) name = some (.number held) :=
    (Function.update_of_ne hne _ _).trans h
  have hitem : Function.update names item (some (.number tier)) item = some (.number tier) :=
    Function.update_self ..
  have hnames : Function.update names name (some (.number held)) = names := by
    rw [← h, Function.update_eq_self]
  simp only [Statement.run?, hheld, hitem, round, hnames]
  rw [Function.update_comm hne]

/-- What the held name is bound to outside makes no difference to a round. -/
theorem round_update (bound : Option Bound) :
    round value (Function.update names name bound) name item level =
      round value names name item level := by
  funext held tier
  simp only [round, Function.update_idem]

/-- A loop over tiers raises the tier that is held by each of them. -/
theorem run?_each (hne : name ≠ item) (h : names name = some (.number held)) (tiers : List Nat) :
    (Statement.each item tiers (.raise name item level)).run? value names =
      some (Function.update names name
        (some (.number (tiers.foldl (round value names name item level) held)))) := by
  rw [Statement.run?]
  induction tiers generalizing names held with
  | nil =>
      rw [List.foldlM_nil, List.foldl_nil, ← h, Function.update_eq_self]
      rfl
  | cons tier tiers ih =>
      rw [List.foldlM_cons, run?_raise hne h]
      -- After the round the name for the items has its former meaning.
      change (tiers.foldlM _ (Function.update (Function.update (Function.update names name _)
        item _) item (names item))) = _
      rw [Function.update_idem, ← Function.update_of_ne hne.symm (some (Bound.number _)) names,
        Function.update_eq_self, ih (Function.update_self ..), Function.update_idem, round_update,
        List.foldl_cons]

/-- However the level is read, the loop comes to a tier that it has looked at. -/
theorem foldl_round_mem (tiers : List Nat) (held : Nat) :
    tiers.foldl (round value names name item level) held ∈ held :: tiers := by
  induction tiers generalizing held with
  | nil => exact List.mem_cons_self
  | cons tier tiers ih =>
      have hround : round value names name item level held tier = held ∨
          round value names name item level held tier = tier := by
        unfold round raised
        exact (ite_eq_or_eq _ _ _).symm
      have hlater := ih (round value names name item level held tier)
      rw [List.foldl_cons]
      rcases List.mem_cons.1 hlater with hsame | hlater
      · rw [hsame]
        rcases hround with hround | hround <;> simp [hround]
      · simp [hlater]

/-- A loop in which the level is read alike in all rounds. -/
theorem foldl_round_eq {number : Nat} (tiers : List Nat) (held : Nat)
    (h : ∀ held tier, value (Function.update (Function.update names name (some (.number held))) item
      (some (.number tier))) level = number) :
    tiers.foldl (round value names name item level) held = tiers.foldl (raised number) held := by
  have hround : round value names name item level = raised number := by
    funext held tier
    exact congrArg (raised · held tier) (h held tier)
  rw [hround]

/-- The rows of an object are found by their numbers. -/
theorem lookup_rows (presets : List (Nat × List BodyPart)) (tier : Nat) :
    (rows presets).lookup (Nat.repr tier) = presets.lookup tier := by
  induction presets with
  | nil => rfl
  | cons entry presets ih =>
      have hkey : (Nat.repr tier == Nat.repr entry.1) = (tier == entry.1) := by
        rw [Bool.eq_iff_iff, beq_iff_eq, beq_iff_eq, repr_injective.eq_iff]
      change List.lookup _ ((_, entry.2) :: rows presets) = _
      rw [List.lookup_cons, List.lookup_cons, ih, hkey]

/-- The body of a tier is what the object has under its number. -/
theorem run?_pick {presets tier : String} {entries : List (Nat × List BodyPart)} {found : Nat}
    {parts : List BodyPart} (hpresets : names presets = some (.presets (rows entries)))
    (htier : names tier = some (.number found)) (hparts : entries.lookup found = some parts) :
    (Statement.pick name presets tier).run? value names =
      some (Function.update names name (some (.body parts))) := by
  simp only [Statement.run?, hpresets, htier, lookup_rows, hparts, Option.map_some]

/-! ## Choices -/

/-- The statements that choose a preset by a level. -/
def selecting (settings : Spawn) (presets tier body level : String) (lowest : Nat) :
    List Statement :=
  [.hold presets settings.presets.entries, .start tier lowest,
    .each "t" settings.presets.keys (.raise tier "t" level), .pick body presets tier]

variable {settings : Spawn} {presets tier body : String}

/-- What the names are bound to when the loop begins, but for the tier that is held. -/
def opened (settings : Spawn) (presets tier body : String) (names : Bindings) : Bindings :=
  Function.update
    (Function.update (Function.update (Function.update names presets none) tier none) body none)
    presets (some (.presets (rows settings.presets.entries)))

/-- The statements find the tier that the loop comes to, and its preset. -/
theorem run?_selecting {lowest found : Nat} {parts : List BodyPart} (hpresets : presets ≠ tier)
    (htier : tier ≠ "t")
    (hfound : settings.presets.keys.foldl
      (round value (settings.opened presets tier body names) tier "t" level) lowest = found)
    (hparts : settings.presets.get? found = some parts) :
    run? value (settings.selecting presets tier body level lowest) names =
      some (Function.update (Function.update (settings.opened presets tier body names) tier
        (some (.number found))) body (some (.body parts))) := by
  have hloop : (Statement.each "t" settings.presets.keys (.raise tier "t" level)).run? value
      (Function.update (settings.opened presets tier body names) tier (some (.number lowest))) =
        some (Function.update (settings.opened presets tier body names) tier
          (some (.number found))) := by
    rw [run?_each htier (Function.update_self ..), Function.update_idem, round_update, hfound]
  have hpick : (Statement.pick body presets tier).run? value
      (Function.update (settings.opened presets tier body names) tier (some (.number found))) =
        some (Function.update (Function.update (settings.opened presets tier body names) tier
          (some (.number found))) body (some (.body parts))) :=
    run?_pick ((Function.update_of_ne hpresets ..).trans (Function.update_self ..))
      (Function.update_self ..) hparts
  change ((Statement.each "t" settings.presets.keys _).run? value
    (Function.update (settings.opened presets tier body names) tier _)).bind (fun names =>
      ((Statement.pick body presets tier).run? value names).bind some) = _
  rw [hloop, Option.bind_some, hpick, Option.bind_some]

/-- The lines of some statements have been written, and nothing else has. -/
structure Wrote (statements : List Statement) (context final : Context) : Prop where
  lines : final.lines = context.lines ++ statements.flatMap (·.lines context.indent)
  indent : final.indent = context.indent

namespace Wrote

variable {statements more : List Statement} {context middle final : Context}

theorem trans (h : Wrote statements context middle) (hlater : Wrote more middle final) :
    Wrote (statements ++ more) context final := by
  refine ⟨?_, hlater.indent.trans h.indent⟩
  rw [hlater.lines, h.lines, h.indent, List.flatMap_append, List.append_assoc]

theorem issue (stem : String) (context : Context) : Wrote [] context (context.issue stem) :=
  ⟨(List.append_nil _).symm, rfl⟩

theorem input (node : Node) (name : String) (fallback : Literal) (context : Context) :
    Wrote [] context ((Emit.input node name fallback).run context).2 := by
  have hpage := Emit.input_page node name fallback context
  exact ⟨(congrArg Prod.fst hpage).trans (List.append_nil _).symm, congrArg (·.2.1) hpage⟩

/-- A statement of one line is written at once. -/
theorem push (statement : Statement) {text : String}
    (h : statement.lines context.indent = [⟨context.indent, text⟩]) :
    Wrote [statement] context (context.push text) := by
  refine ⟨?_, rfl⟩
  rw [List.flatMap_singleton, h]
  rfl

/-- A loop is written around the line of its statement. -/
theorem loop (name level : String) (tiers : List Nat) (context : Context) :
    Wrote [.each "t" tiers (.raise name "t" level)] context
      ((Emit.block s!"for (const t of {listing (tiers.map Nat.repr)})"
        (Emit.say s!"if (t <= {atom level}) {name} = t;")).run context).2 := by
  refine ⟨?_, Nat.add_sub_cancel ..⟩
  have hlines (indent : Nat) : (Statement.each "t" tiers (.raise name "t" level)).lines indent =
      [⟨indent, s!"for (const t of {listing (tiers.map Nat.repr)})" ++ " \x7b"⟩,
        ⟨indent + indentStep, s!"if (t <= {atom level}) {name} = t;"⟩, ⟨indent, "\x7d"⟩] := by
    simp [Statement.lines, ← String.toList_inj, ToString.toString]
  rw [List.flatMap_singleton, hlines]
  change ((context.lines ++ [_]) ++ [_]) ++ [_] = _
  rw [List.append_assoc, List.append_assoc]
  rfl

end Wrote

/-- The expression for the level and the context in which it stands. -/
def levelAsked (node : Node) (spawn : String) (context : Context) : String × Context :=
  (Emit.input node "level" (.text s!"{atom spawn}.room.controller.level")).run context

/-- The name of the object with the presets. -/
def presetsName (context : Context) : String := context.nextName "presets"

/-- The name of the tier that is chosen. -/
def tierName (context : Context) : String := (context.issue "presets").nextName "tier"

/-- The name of the body that is chosen. -/
def bodyName (context : Context) : String :=
  ((context.issue "presets").issue "tier").nextName "body"

/-- What the emitter does that leaves the choice to the script, one thing after the other. -/
theorem run_emitSelection (node : Node) (spawn : String) (lowest : Nat) (context : Context) :
    (settings.emitSelection node spawn lowest).run context =
      let (level, asked) := levelAsked node spawn context
      let object := (presetLiteral settings.presets.entries).render
      let issued := ((asked.issue "presets").issue "tier").issue "body"
      let held := issued.push s!"const {presetsName asked} = {object};"
      let started := held.push s!"let {tierName asked} = {lowest};"
      let looped := (Emit.block s!"for (const t of {listing (settings.presets.keys.map Nat.repr)})"
        (Emit.say s!"if (t <= {atom level}) {tierName asked} = t;")).run started
      (bodyName asked,
        looped.2.push s!"const {bodyName asked} = {presetsName asked}[{tierName asked}];") :=
  rfl

/-- The script gets the statements that choose a preset. -/
theorem emitSelection_wrote (node : Node) (spawn : String) (lowest : Nat) (context : Context) :
    let asked := levelAsked node spawn context
    Wrote (settings.selecting (presetsName asked.2) (tierName asked.2) (bodyName asked.2) asked.1
      lowest) context ((settings.emitSelection node spawn lowest).run context).2 := by
  have hasked : Wrote [] context (levelAsked node spawn context).2 := .input ..
  rw [run_emitSelection]
  generalize levelAsked node spawn context = answer at hasked ⊢
  obtain ⟨level, asked⟩ := answer
  have hissued := ((hasked.trans (.issue "presets" asked)).trans (.issue "tier" _)).trans
    (.issue "body" _)
  have hheld := hissued.trans (.push (.hold (presetsName asked) settings.presets.entries) rfl)
  have hstarted := hheld.trans (.push (.start (tierName asked) lowest) rfl)
  have hlooped := hstarted.trans (.loop (tierName asked) level settings.presets.keys _)
  exact hlooped.trans (.push (.pick (bodyName asked) (presetsName asked) (tierName asked)) rfl)

/-- Temporary names with different stems are different. -/
theorem nextName_ne {context other : Context} {stem stem' : String} (hstem : isStem stem = true)
    (h : stem ≠ stem') : context.nextName stem ≠ other.nextName stem' := fun heq =>
  h ((numbered_eq_iff (underscore_not_mem_stem hstem)).1 heq).1

theorem nextName_ne_item (stem : String) (context : Context) : context.nextName stem ≠ "t" :=
  fun h => by
    have hmem : '_' ∈ (context.nextName stem).toList := by
      simp [Context.nextName]
    rw [h] at hmem
    exact absurd hmem (by decide)

/-- The names of a choice are different from each other. -/
theorem names_ne (asked : Context) : presetsName asked ≠ tierName asked ∧
    presetsName asked ≠ bodyName asked ∧ tierName asked ≠ bodyName asked :=
  ⟨nextName_ne (by decide) (by decide), nextName_ne (by decide) (by decide),
    nextName_ne (by decide) (by decide)⟩

/-- The emitter holds the preset in a constant if the level is known. -/
theorem emitPreset_known {node : Node} {level : Nat} (h : settings.presets.keys ≠ [])
    (hlevel : settings.level = some level) (hinput : node.input? "level" = none) (spawn : String)
    (context : Context) :
    let body := context.nextName "body"
    (settings.emitPreset node spawn).run context = (body, (context.issue "body").push
      s!"const {body} = {partsList (settings.presetParts level)};") := by
  obtain ⟨lowest, rest, hkeys⟩ := List.exists_cons_of_ne_nil h
  unfold emitPreset
  rw [hkeys, hlevel, hinput]
  rfl

/-- The emitter leaves the choice to the script if the level is not known. -/
theorem emitPreset_open {node : Node} (h : settings.presets.keys ≠ [])
    (hopen : settings.level = none ∨ node.input? "level" ≠ none) (spawn : String) :
    settings.emitPreset node spawn =
      settings.emitSelection node spawn (settings.presets.keys.head h) := by
  obtain ⟨lowest, rest, hkeys⟩ := List.exists_cons_of_ne_nil h
  simp only [emitPreset, hkeys, List.head_cons]
  split
  · next hlevel hinput =>
    rcases hopen with hopen | hopen
    · exact absurd (hlevel.symm.trans hopen) nofun
    · exact absurd hinput hopen
  · rfl

/-- Names of the form of temporary ones are identifiers. -/
theorem isIdentifier_nextName {stem : String} {c : Char} {rest : List Char}
    (hstem : stem.toList = c :: rest) (hfirst : isNameStart c = true)
    (hrest : rest.all isNamePart = true) (context : Context) :
    isIdentifier (context.nextName stem) = true := by
  have hdigits : ∀ d ∈ Nat.toDigits 10 (context.temps + 1), isNamePart d = true := by
    intro d hd
    have hdigit := Nat.isDigit_of_mem_toDigits (by decide) (by decide) hd
    simp [isNamePart, Char.isAlphanum, hdigit]
  have hunderscore : isNamePart '_' = true := by decide
  simpa [isIdentifier, Context.nextName, hstem, hfirst, hunderscore] using
    ⟨by simpa using hrest, hdigits⟩

/-- The names that are bound where the expression for the level stands. -/
def bound (asked : Context) : List String :=
  ["t", presetsName asked, tierName asked, bodyName asked]

theorem isIdentifier_of_mem_bound {asked : Context} {name : String} (h : name ∈ bound asked) :
    isIdentifier name = true := by
  simp only [bound, List.mem_cons, List.not_mem_nil, or_false] at h
  rcases h with rfl | rfl | rfl | rfl
  · decide
  · exact isIdentifier_nextName rfl (by decide) (by decide) _
  · exact isIdentifier_nextName rfl (by decide) (by decide) _
  · exact isIdentifier_nextName rfl (by decide) (by decide) _

/-- The reading of a text does not depend on what a name is bound to. -/
def Ignores (value : Bindings → String → Nat) (text name : String) : Prop :=
  ∀ bound names, value (Function.update names name bound) text = value names text

/-- The reading of a text does not depend on identifiers to which the text does not refer. -/
def IsScoped (value : Bindings → String → Nat) (text : String) : Prop :=
  ∀ name, isIdentifier name = true → mentions text name = false → Ignores value text name

/-- The reading of a text does not depend on the names of a choice if the text refers to none of
them. -/
theorem IsScoped.ignores_bound {asked : Context} {text : String} (h : IsScoped value text)
    (hfree : ∀ name ∈ bound asked, mentions text name = false) :
    ∀ name ∈ bound asked, Ignores value text name := fun name hname =>
  h name (isIdentifier_of_mem_bound hname) (hfree name hname)

/-- The level is read inside of the loop as before it, if what is bound there is ignored. -/
theorem read_inside {asked : Context} {text : String}
    (h : ∀ name ∈ bound asked, Ignores value text name) (names : Bindings) (held tier : Nat) :
    value (Function.update (Function.update
      (settings.opened (presetsName asked) (tierName asked) (bodyName asked) names) (tierName asked)
        (some (.number held))) "t" (some (.number tier))) text = value names text := by
  have hpresets : presetsName asked ∈ bound asked := by simp [bound]
  have htier : tierName asked ∈ bound asked := by simp [bound]
  have hbody : bodyName asked ∈ bound asked := by simp [bound]
  rw [h _ List.mem_cons_self, h _ htier, opened, h _ hpresets, h _ hbody, h _ htier, h _ hpresets]

/-- Names that are bound outside as they are not inside: of those that the statements bind, only the
one for the body has a meaning. -/
def outside (asked : Context) : Bindings :=
  Function.update (fun _ => none) (bodyName asked) (some (.number 0))

/-- A reading that notices whether a name is bound as it is outside. -/
def noticing (asked : Context) (name : String) (level other : Nat) (names : Bindings) (_ : String) :
    Nat :=
  if (names name).isSome = (outside asked name).isSome then level else other

/-- Every name that is bound where the expression for the level stands is bound otherwise outside. -/
theorem noticing_inside {asked : Context} {name : String} (hname : name ∈ bound asked)
    (level other held tier : Nat) (text : String) :
    noticing asked name level other (Function.update (Function.update
      (settings.opened (presetsName asked) (tierName asked) (bodyName asked) (outside asked))
        (tierName asked) (some (.number held))) "t" (some (.number tier))) text = other := by
  obtain ⟨hpresetsTier, hpresetsBody, htierBody⟩ := names_ne asked
  have hpresets : presetsName asked ≠ "t" := nextName_ne_item _ _
  have htier : tierName asked ≠ "t" := nextName_ne_item _ _
  have hbody : bodyName asked ≠ "t" := nextName_ne_item _ _
  simp only [bound, List.mem_cons, List.not_mem_nil, or_false] at hname
  refine if_neg ?_
  rcases hname with rfl | rfl | rfl | rfl
  · simp [outside, hbody.symm]
  · simp [outside, opened, hpresets, hpresetsTier, hpresetsBody]
  · simp [outside, htier, htierBody]
  · simp [outside, opened, hbody, htierBody.symm, hpresetsBody.symm]

/-- Statements of a choice come to a tier and to parts, which they hold under the given names. -/
def ComesTo (value : Bindings → String → Nat) (statements : List Statement) (names : Bindings)
    (tierName bodyName : String) (tier : Nat) (parts : List BodyPart) : Prop :=
  ∃ final, run? value statements names = some final ∧ final tierName = some (.number tier) ∧
    final bodyName = some (.body parts)

theorem ComesTo.tier_eq {statements : List Statement} {tierName bodyName : String} {first other : Nat}
    {parts parts' : List BodyPart} (h : ComesTo value statements names tierName bodyName first parts)
    (hother : ComesTo value statements names tierName bodyName other parts') : first = other := by
  obtain ⟨final, hfinal, htier, -⟩ := h
  obtain ⟨final', hfinal', htier', -⟩ := hother
  obtain rfl := Option.some.inj (hfinal.symm.trans hfinal')
  rw [htier] at htier'
  cases htier'
  rfl

/-- The statements come to the tier that the loop finds, and to its preset. -/
theorem selecting_comesTo {asked : Context} {lowest found : Nat} {parts : List BodyPart}
    (hfound : settings.presets.keys.foldl
      (round value (settings.opened (presetsName asked) (tierName asked) (bodyName asked) names)
        (tierName asked) "t" level) lowest = found)
    (hparts : settings.presets.get? found = some parts) :
    ComesTo value (settings.selecting (presetsName asked) (tierName asked) (bodyName asked) level
      lowest) names (tierName asked) (bodyName asked) found parts := by
  obtain ⟨hpresets, -, hbody⟩ := names_ne asked
  refine ⟨_, run?_selecting hpresets (nextName_ne_item _ _) hfound hparts, ?_,
    Function.update_self ..⟩
  exact (Function.update_of_ne hbody ..).trans (Function.update_self ..)

theorem exists_preset {tier : Nat} (h : tier ∈ settings.presets.keys) :
    ∃ parts, settings.presets.get? tier = some parts :=
  Option.isSome_iff_exists.1 (settings.presets.contains_iff_mem_keys.2 h)

theorem keys_ascending (settings : Spawn) : settings.presets.keys.Pairwise (· < ·) :=
  List.pairwise_map.2 (settings.presets.ascending.imp fun h => Nat.compare_eq_lt.1 h)

/-- The loop finds the tier for the level, if it reads the level in all rounds. -/
theorem tierFor_keys (h : settings.presets.keys ≠ []) (level : Nat) :
    TierFor settings.presets.keys level
      (settings.presets.keys.foldl (raised level) (settings.presets.keys.head h)) := by
  have hascending := settings.keys_ascending
  obtain ⟨lowest, rest, hkeys⟩ := List.exists_cons_of_ne_nil h
  simp only [hkeys, List.head_cons] at hascending ⊢
  exact tierFor_foldl hascending level

/-- Unless there is one tier only, there is another one beside each. -/
theorem exists_other (h : settings.presets.keys ≠ []) (hlength : settings.presets.keys.length ≠ 1)
    (tier : Nat) : ∃ other ∈ settings.presets.keys, other ≠ tier := by
  have hascending := settings.keys_ascending
  match hkeys : settings.presets.keys with
  | [] => exact absurd hkeys h
  | [only] => exact absurd (congrArg List.length hkeys) hlength
  | first :: second :: rest =>
      rw [hkeys] at hascending
      have hlt : first < second := (List.pairwise_cons.1 hascending).1 second List.mem_cons_self
      by_cases hfirst : first = tier
      · exact ⟨second, by simp, by omega⟩
      · exact ⟨first, by simp, hfirst⟩

/-- The statements of a choice come to the tier for the level, if the names that they bind are ignored
where the level is read. -/
theorem comesTo_tierFor (h : settings.presets.keys ≠ []) {number tier : Nat}
    {parts : List BodyPart} (htier : TierFor settings.presets.keys number tier)
    (hparts : settings.presets.get? tier = some parts) {asked : Context} {text : String}
    (hignores : ∀ name ∈ bound asked, Ignores value text name) (hnumber : value names text = number) :
    ComesTo value (settings.selecting (presetsName asked) (tierName asked) (bodyName asked) text
      (settings.presets.keys.head h)) names (tierName asked) (bodyName asked) tier parts := by
  refine selecting_comesTo ?_ hparts
  rw [foldl_round_eq _ _ fun held tier => (read_inside hignores names held tier).trans hnumber]
  exact Option.some.inj ((tierFor_keys h number).selectTier_eq.symm.trans htier.selectTier_eq)

/-- The statements of a choice come to the tier for a level, whenever that is what the expression for
the level stands for, exactly if there is one tier only or the expression refers to no name that the
statements bind. -/
theorem comesTo_tierFor_iff (h : settings.presets.keys ≠ []) {number tier : Nat}
    {parts : List BodyPart} (htier : TierFor settings.presets.keys number tier)
    (hparts : settings.presets.get? tier = some parts) (asked : Context) (text : String) :
    (∀ value names, IsScoped value text → value names text = number →
      ComesTo value (settings.selecting (presetsName asked) (tierName asked) (bodyName asked) text
        (settings.presets.keys.head h)) names (tierName asked) (bodyName asked) tier parts) ↔
      settings.presets.keys.length = 1 ∨ ∀ name ∈ bound asked, mentions text name = false := by
  constructor
  · intro hall
    by_contra hnot
    obtain ⟨hlength, hmentions⟩ := not_or.1 hnot
    obtain ⟨name, hname, hmention⟩ : ∃ name ∈ bound asked, mentions text name = true := by
      simpa using hmentions
    -- Inside of the loop the level is read as another tier, which the loop then comes to.
    obtain ⟨other, hother, hne⟩ := exists_other h hlength tier
    have hscoped : IsScoped (noticing asked name number other) text := by
      intro name' _ hname' bound names
      have hdifferent : name ≠ name' := by
        rintro rfl
        rw [hmention] at hname'
        cases hname'
      simp only [noticing, Function.update_of_ne hdifferent]
    have hfound : settings.presets.keys.foldl
        (round (noticing asked name number other) (settings.opened (presetsName asked)
          (tierName asked) (bodyName asked) (outside asked)) (tierName asked) "t" text)
            (settings.presets.keys.head h) = other := by
      rw [foldl_round_eq _ _ fun held tier => noticing_inside hname number other held tier text]
      exact (tierFor_keys h other).eq_of_mem hother
    obtain ⟨found, hfoundParts⟩ := exists_preset hother
    exact hne ((selecting_comesTo hfound hfoundParts).tier_eq
      (hall _ (outside asked) hscoped (if_pos rfl)))
  · rintro (hlength | hfree) value names hscoped hnumber
    · obtain ⟨only, hkeys⟩ := List.length_eq_one_iff.1 hlength
      refine selecting_comesTo ?_ hparts
      have hmem := @foldl_round_mem value (tierName asked) "t" text (settings.opened
        (presetsName asked) (tierName asked) (bodyName asked) names) settings.presets.keys
          (settings.presets.keys.head h)
      have htierMem := htier.mem
      simp only [hkeys, List.head_cons, List.mem_cons, List.not_mem_nil, or_false, or_self]
        at hmem htierMem ⊢
      rw [hmem, htierMem]
    · exact comesTo_tierFor h htier hparts (hscoped.ignores_bound hfree) hnumber

/-- Let a table of presets be not empty. For each level there is a tier of the table with a preset:
the greatest tier up to the level, or else the least tier. The choice by filters finds it, so that
the fixed body is never used. If the level is known when the script is written, then the constant
for the body is declared with this preset. Otherwise the script gets the statements of a choice,
which begin with the first tier of the table and go through all tiers in their order. However the
expression for the level is read, they come to a tier of the table and to its preset. They come to the
tier for the level if what the statements bind makes no difference to the expression. From its words
this is known, if there is more than one tier, exactly if it refers to none of the names that the
statements bind. -/
theorem presets_selected_alike (settings : Spawn) (h : settings.presets.keys ≠ []) (level : Nat) :
    ∃ tier parts,
      TierFor settings.presets.keys level tier ∧
      settings.presets.get? tier = some parts ∧
      selectTier settings.presets.keys level = some tier ∧
      (∀ fixed, presetParts { settings with parts := fixed } level = parts) ∧
      ∀ (node : Node) (spawn : String) (context : Context),
        (settings.level = some level → node.input? "level" = none →
          let body := context.nextName "body"
          (settings.emitPreset node spawn).run context =
            (body, (context.issue "body").push s!"const {body} = {partsList parts};")) ∧
        (settings.level = none ∨ node.input? "level" ≠ none →
          let asked := levelAsked node spawn context
          let chosen := (settings.emitPreset node spawn).run context
          let statements := settings.selecting (presetsName asked.2) (tierName asked.2) chosen.1
            asked.1 (settings.presets.keys.head h)
          Wrote statements context chosen.2 ∧
          (∀ value names, ∃ reached found, settings.presets.get? reached = some found ∧
            ComesTo value statements names (tierName asked.2) chosen.1 reached found) ∧
          (∀ value names, (∀ name ∈ bound asked.2, Ignores value asked.1 name) →
            value names asked.1 = level →
              ComesTo value statements names (tierName asked.2) chosen.1 tier parts) ∧
          ((∀ value names, IsScoped value asked.1 → value names asked.1 = level →
              ComesTo value statements names (tierName asked.2) chosen.1 tier parts) ↔
            settings.presets.keys.length = 1 ∨
              ∀ name ∈ bound asked.2, mentions asked.1 name = false)) := by
  have hfor := tierFor_keys h level
  generalize settings.presets.keys.foldl (raised level) (settings.presets.keys.head h) = tier at hfor
  obtain ⟨parts, hparts⟩ := exists_preset hfor.mem
  have hselect := hfor.selectTier_eq
  have hfixed (fixed : List BodyPart) :
      presetParts { settings with parts := fixed } level = parts := by
    unfold presetParts
    rw [hselect]
    dsimp only
    rw [hparts, Option.getD_some]
  refine ⟨tier, parts, hfor, hparts, hselect, hfixed, fun node spawn context => ⟨?_, ?_⟩⟩
  · intro hlevel hinput
    rw [emitPreset_known h hlevel hinput, ← hfixed settings.parts]
  · intro hopen
    rw [emitPreset_open h hopen]
    refine ⟨settings.emitSelection_wrote node spawn _ context, fun value names => ?_,
      fun _ _ => comesTo_tierFor h hfor hparts, comesTo_tierFor_iff h hfor hparts _ _⟩
    have hmem := @foldl_round_mem value (tierName (levelAsked node spawn context).2) "t"
      (levelAsked node spawn context).1 (settings.opened
        (presetsName (levelAsked node spawn context).2) (tierName (levelAsked node spawn context).2)
          (bodyName (levelAsked node spawn context).2) names) settings.presets.keys
            (settings.presets.keys.head h)
    obtain ⟨found, hfound⟩ := exists_preset (List.cons_subset.2
      ⟨List.head_mem h, List.Subset.refl _⟩ hmem)
    exact ⟨_, found, hfound, selecting_comesTo rfl hfound⟩

/-- Two presets, with a level that is not known when the script is written. -/
def twoTiers : Spawn where
  presets := .ofList [(3, [.work, .work, .carry, .move]), (1, [.work, .carry, .move])]

/-- Two presets, with a level below all tiers. -/
def lowLevel : Spawn := { twoTiers with level := some 0 }

/-- A node with presets and no inputs. -/
def presetNode : Node where
  id := "spawn"
  kind := .spawn twoTiers

/-- A level below all tiers leads to the least of them, both ways: the expression that stands for the
level refers to no name that the statements bind. -/
theorem level_below_all_tiers :
    twoTiers.presets.keys ≠ [] ∧
    ((lowLevel.emitPreset presetNode "spawn_1").run {}).2.lines =
      [⟨0, "const body_1 = [WORK, CARRY, MOVE];"⟩] ∧
    IsScoped (fun _ _ => 0) "spawn_1.room.controller.level" ∧
    ComesTo (fun _ _ => 0) (twoTiers.selecting "presets_1" "tier_2" "body_3"
      "spawn_1.room.controller.level" 1) (fun _ => none) "tier_2" "body_3" 1 [.work, .carry, .move] := by
  have hkeys : twoTiers.presets.keys ≠ [] := by decide +kernel
  have htier : selectTier twoTiers.presets.keys 0 = some 1 := by decide +kernel
  have hpreset : twoTiers.presets.get? 1 = some [.work, .carry, .move] := by decide +kernel
  have hscoped : IsScoped (fun _ _ => 0) "spawn_1.room.controller.level" := fun _ _ _ _ _ => rfl
  refine ⟨hkeys, ?_, hscoped, ?_⟩
  · obtain ⟨tier, parts, -, hparts, hselect, -, hboth⟩ := presets_selected_alike lowLevel hkeys 0
    obtain rfl : 1 = tier := Option.some.inj (htier.symm.trans hselect)
    obtain rfl := Option.some.inj (hpreset.symm.trans hparts)
    rw [(hboth presetNode "spawn_1" {}).1 rfl rfl]
    decide +kernel
  · obtain ⟨tier, parts, -, hparts, hselect, -, hboth⟩ := presets_selected_alike twoTiers hkeys 0
    obtain rfl : 1 = tier := Option.some.inj (htier.symm.trans hselect)
    obtain rfl := Option.some.inj (hpreset.symm.trans hparts)
    obtain ⟨-, -, -, hexact⟩ := (hboth presetNode "spawn_1" {}).2 (.inl rfl)
    have hnames : presetsName (levelAsked presetNode "spawn_1" {}).2 = "presets_1" ∧
        tierName (levelAsked presetNode "spawn_1" {}).2 = "tier_2" ∧
        ((twoTiers.emitPreset presetNode "spawn_1").run {}).1 = "body_3" ∧
        (levelAsked presetNode "spawn_1" {}).1 = "spawn_1.room.controller.level" := by
      decide +kernel
    have hlist : twoTiers.presets.keys = [1, 3] := by decide +kernel
    have hrun := hexact.2 (.inr (by decide +kernel)) (fun _ _ => 0) (fun _ => none)
    simp only [hnames, hlist, List.head_cons] at hrun
    exact hrun hscoped trivial

/-- The reading of a text that is a name: the number to which the name is bound. -/
def numberOf (names : Bindings) (text : String) : Nat :=
  match names text with
  | some (.number number) => number
  | _ => 0

/-- A counted loop whose counter is the level of a spawn in its body. -/
def countedSpawn : Program where
  fileId := "tiers"
  entry := "start"
  nodes := .ofList [
    ("start", { id := "start", kind := .start, outputs := ["count"] }),
    ("count", { id := "count", kind := .loop { iterator := some "t" },
                slots := .ofList [("body", ["make"])] }),
    ("make", { id := "make", kind := .spawn { twoTiers with body := .preset },
               inputs := .ofList [("level", .edge "count" "value")] })]
  tasks := []

/-- If the counter is called like the items of the loop over the tiers, then each item is compared with
itself, and the loop comes to the last tier for the level zero, which is below all tiers. -/
theorem countedSpawn_takes_last_tier :
    (functions countedSpawn .empty).1.body = [
      ⟨0, "let ran_1 = false;"⟩,
      ⟨0, "for (let t = 0; t < 10; t++) \x7b"⟩,
      ⟨2, "ran_1 = true;"⟩,
      ⟨2, "const spawn_2 = Object.values(Game.spawns)[0];"⟩] ++
      (twoTiers.selecting "presets_3" "tier_4" "body_5" "t" 1).flatMap (·.lines 2) ++ [
      ⟨2, "const spawned_6 = spawn_2.spawnCreep(body_5, \"worker\" + Game.time, \x7b memory: \x7b\x7d \x7d);"⟩,
      ⟨0, "\x7d"⟩] ∧
    IsScoped numberOf "t" ∧
    selectTier twoTiers.presets.keys 0 = some 1 ∧
    let names := Function.update (fun _ => none) "t" (some (.number 0))
    numberOf names "t" = 0 ∧
      ComesTo numberOf (twoTiers.selecting "presets_3" "tier_4" "body_5" "t" 1) names "tier_4"
        "body_5" 3 [.work, .work, .carry, .move] := by
  have hscoped : IsScoped numberOf "t" := by
    intro name _ hname bound names
    have hne : "t" ≠ name := by
      rintro rfl
      exact absurd hname (by decide +kernel)
    simp only [numberOf, Function.update_of_ne hne]
  refine ⟨by decide +kernel, hscoped, by decide +kernel, by decide +kernel, ?_⟩
  exact ⟨_, rfl, rfl, rfl⟩

end TickScript.Kind.Spawn
