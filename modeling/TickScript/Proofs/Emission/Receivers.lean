import TickScript.Emission.Dispatch
import TickScript.Proofs.Emission.Composition

/-!
# Members of the acting unit

Statements name members of the acting unit before a dot: its methods, the targets that they aim at
if none is given, and its memory. `Receivers` says how the expression of the unit stands there.
Methods are called on the whole expression, as `atom` gives it, but the other members are written
right behind it, so that they may belong to its last part only: `lines_keep_actor_iff` says when
this can be seen in the lines.
-/

namespace TickScript.Emission.Emit

open TickScript.Text

variable {α β : Type} {action : Emit α} {next : α → Emit β} {context : Context} {text : String}

/-! ## First lines -/

/-- An action keeps the lines that stand before it. -/
def Adds (action : Emit α) : Prop :=
  ∀ context, context.lines <+: (action context).2.lines

namespace Adds

theorem pure (result : α) : Adds (pure result) := fun _ => List.prefix_rfl

theorem bind (h : Adds action) (hnext : ∀ result, Adds (next result)) : Adds (action >>= next) :=
  fun context => (h context).trans (hnext _ _)

theorem say (text : String) : Adds (say text) := fun _ => List.prefix_append _ _

theorem produce (nodeId expr : String) : Adds (produce nodeId expr) := fun _ => List.prefix_rfl

theorem define (node : Node) (stem expr : String) : Adds (define node stem expr) :=
  fun _ => List.prefix_append _ _

theorem block (header : String) {body : Emit α} (h : Adds body) : Adds (block header body) :=
  (say _).bind fun _ => .bind (fun _ => List.prefix_rfl) fun _ => h.bind fun _ =>
    .bind (fun _ => List.prefix_rfl) fun _ => (say _).bind fun _ => .pure _

theorem forM {action : α → Emit Unit} (h : ∀ item, Adds (action item)) :
    (items : List α) → Adds (items.forM action)
  | [] => .pure _
  | item :: items => (h item).bind fun _ => forM h items

end Adds

/-- The declaration of a constant. -/
def constLine (name expr : String) : String := s!"const {name} = {expr};"

/-- Constants for expressions of different lengths are declared by different lines. -/
theorem constLine_ne {name expr other : String} (h : other.length ≠ expr.length) :
    constLine name other ≠ constLine name expr := by
  intro hsame
  have hsizes := congrArg String.length hsame
  simp only [constLine, toString, String.length_append] at hsizes
  omega

/-- An action writes a line first. -/
def Begins (action : Emit α) (context : Context) (text : String) : Prop :=
  context.lines ++ [⟨context.indent, text⟩] <+: (action context).2.lines

namespace Begins

/-- What comes later keeps the first line. -/
theorem bind (h : Begins action context text) (hnext : ∀ result, Adds (next result)) :
    Begins (action >>= next) context text :=
  h.trans (hnext _ _)

theorem say (text : String) (context : Context) : Begins (say text) context text :=
  List.prefix_rfl

theorem define (node : Node) (stem expr : String) (context : Context) :
    Begins (define node stem expr) context (constLine (context.nextName stem) expr) :=
  List.prefix_rfl

theorem hold {stem expr : String} (hsimple : isSimple expr = false) (context : Context) :
    Begins (Emit.bind stem expr) context (constLine (context.nextName stem) expr) := by
  unfold Emit.bind
  rw [hsimple]
  exact List.prefix_rfl

/-- Actions that begin with different lines write different ones. -/
theorem lines_ne {action' : Emit α} {context' : Context} {text' : String}
    (h : Begins action context text) (h' : Begins action' context' text')
    (hlines : context'.lines = context.lines) (hne : text' ≠ text) :
    (action' context').2.lines ≠ (action context).2.lines := by
  intro hsame
  unfold Begins at h'
  rw [hsame, hlines] at h'
  -- Both lines come right after the lines that stood before.
  have hboth := (List.prefix_of_prefix_length_le h' h (by simp)).eq_of_length (by simp)
  have hline := List.singleton_inj.1 (List.append_cancel_left hboth)
  exact hne (congrArg Line.text hline)

end Begins

end TickScript.Emission.Emit

namespace TickScript.Kind

open TickScript.Emission TickScript.Emission.Emit TickScript.Text

/-! ## The receivers of members -/

/-- How the expression of the acting unit is written before a dot. -/
structure Receivers where
  /-- In the call of a method. -/
  call : String → String
  /-- In the name of a default target or of the memory of the unit. -/
  member : String → String

namespace Receivers

/-- The receivers of the statements as they stand. -/
def used : Receivers := ⟨atom, id⟩

/-- The receivers that keep the expression together everywhere. -/
def whole : Receivers := ⟨atom, atom⟩

end Receivers

/-- Find the acting unit and its target, and act. -/
def aimed (receivers : Receivers) (node : Node) (configured : Literal)
    (defaultTarget : Option String) (act : String → String → String → Emit Unit) : Emit Unit := do
  let actor ← Emit.actorInput node
  let target ← targetInput node configured defaultTarget (receivers.member actor)
  act (receivers.call actor) actor target

/-- Work on a target. -/
def Work.act (settings : Work) (form : ActionForm) (node : Node) (receiver actor target : String) :
    Emit Unit := do
  let target ← if settings.moveCloser then Emit.bind "target" target else pure target
  let method := form.method
  let result ← Emit.define node form.stem s!"{receiver}.{method}({target})"
  if settings.moveCloser then approach result actor target

/-- Upgrade, attack or heal a target. -/
def Target.act (form : ActionForm) (node : Node) (receiver _actor target : String) : Emit Unit := do
  let method := form.method
  let _ ← Emit.define node form.stem s!"{receiver}.{method}({target})"

/-- Transfer a resource to a target. -/
def Transfer.act (settings : Transfer) (node : Node) (receiver actor target : String) :
    Emit Unit := do
  let target ← if settings.fallback = .move then Emit.bind "target" target else pure target
  let arguments := transferArguments target settings.resource settings.amount
  let result ← Emit.define node "transfer" s!"{receiver}.transfer({arguments})"
  match settings.fallback with
  | .none => pure ()
  | .move => approach result actor target
  | .drop =>
    let resource := settings.resource
    Emit.block s!"if ({result} === ERR_NOT_IN_RANGE)" do
      Emit.say s!"{receiver}.drop({resource});"

/-- Withdraw a resource from a target. -/
def Withdraw.act (settings : Withdraw) (node : Node) (receiver actor target : String) :
    Emit Unit := do
  let target ← Emit.bind "target" target
  let arguments := transferArguments target settings.resource settings.amount
  let result ← Emit.define node "withdraw" s!"{receiver}.withdraw({arguments})"
  approach result actor target

namespace Memory

/-- Find the location of a memory node, and use it. -/
def located (receivers : Receivers) (settings : Memory) (node : Node)
    (use : Location → Emit Unit) : Emit Unit :=
  match settings.scope with
  | .actor => do
    let actor ← Emit.actorInput node
    use ⟨receivers.member actor ++ ".memory", [], (splitPath settings.path).map quote⟩
  | _ => settings.locate node >>= use

/-- Read from a location. -/
def readAt (settings : Memory) (node : Node) (location : Location) : Emit Unit := do
  let default ← Emit.input node "default" settings.default
  let access := location.optional
  let read :=
    if (node.input? "default").isNone && settings.default.isUndefined then access
    else s!"{access} ?? {default}"
  let _ ← Emit.define node "mem" read

/-- Write to a location. -/
def writeAt (settings : Memory) (node : Node) (location : Location) : Emit Unit := do
  if location.pathKeys.isEmpty then Emit.warn node.id "memory write has an empty path"
  else
    let value ← Emit.input node "value" settings.value
    let value ← Emit.bind "value" value
    emitParents location
    settings.emitStore location value
    Emit.produce node.id value

/-- Delete what is at a location. -/
def deleteAt (node : Node) (location : Location) : Emit Unit := do
  if location.pathKeys.isEmpty then Emit.warn node.id "memory delete has an empty path"
  else
    Emit.say s!"delete {location.optional};"
    Emit.produce node.id "true"

end Memory

/-- How a node uses members of the acting unit besides its methods. -/
inductive MemberUse where
  /-- It acts on a target. -/
  | target (configured : Literal) (defaultTarget : Option String)
      (act : String → String → String → Emit Unit)
  /-- It uses a location, perhaps only if that has a path. -/
  | location (settings : Memory) (needsPath : Bool) (use : Location → Emit Unit)

/-- How a node uses members of the acting unit. -/
def memberUse? (node : Node) : Option MemberUse :=
  let aim (configured : Literal) (form : ActionForm)
      (act : ActionForm → Node → String → String → String → Emit Unit) : Option MemberUse :=
    some (.target configured form.defaultTarget (act form node))
  match node.kind with
  | .harvest settings => aim settings.target .harvest settings.act
  | .build settings => aim settings.target .build settings.act
  | .repair settings => aim settings.target .repair settings.act
  | .upgrade settings => aim settings.target .upgrade Target.act
  | .attack settings => aim settings.target .attack Target.act
  | .heal settings => aim settings.target .heal Target.act
  | .transfer settings => some (.target settings.target (some storageTarget) (settings.act node))
  | .withdraw settings => some (.target settings.target (some storageTarget) (settings.act node))
  | .memoryRead settings => some (.location settings false (settings.readAt node))
  | .memoryWrite settings => some (.location settings true (settings.writeAt node))
  | .memoryDelete settings => some (.location settings true (Memory.deleteAt node))
  | _ => none

/-- The statements of a node that uses members of the acting unit. -/
def MemberUse.statements (receivers : Receivers) (node : Node) : MemberUse → Emit Unit
  | .target configured defaultTarget act => aimed receivers node configured defaultTarget act
  | .location settings _ use => settings.located receivers node use

/-- The statements of a node, with given receivers for the members of the acting unit. -/
def dispatchWith (receivers : Receivers) (setting : Setting) (branch : List String → Walk Unit)
    (node : Node) : Walk Continuation :=
  match memberUse? node with
  | some use => do
    Walk.lift (use.statements receivers node)
    return .outputs
  | none => dispatch setting branch node

theorem Memory.locate_bind (settings : Memory) (node : Node) (use : Location → Emit Unit) :
    settings.locate node >>= use = settings.located .used node use := by
  unfold located locate
  cases settings.scope <;> rfl

/-- The receivers that are used give the statements of the node. -/
theorem dispatchWith_used (setting : Setting) (branch : List String → Walk Unit) (node : Node) :
    dispatchWith .used setting branch node = dispatch setting branch node := by
  unfold dispatchWith memberUse? dispatch
  cases node.kind with
  | memoryRead settings =>
      dsimp only [MemberUse.statements]
      rw [← Memory.locate_bind]
      rfl
  | memoryWrite settings =>
      dsimp only [MemberUse.statements]
      rw [← Memory.locate_bind]
      rfl
  | memoryDelete settings =>
      dsimp only [MemberUse.statements]
      rw [← Memory.locate_bind]
      rfl
  | _ => rfl

/-! ## Targets in lines -/

theorem approach_adds (result actor target : String) : Adds (approach result actor target) :=
  .bind (fun _ => List.prefix_rfl) fun _ => .block _ (.say _)

/-- Statements with different targets begin with different lines. -/
def TellsApart (act : String → String → String → Emit Unit) (target target' : String) : Prop :=
  ∀ receiver actor (context context' : Context), context'.lines = context.lines →
    context'.temps = context.temps →
    (act receiver actor target' context').2.lines ≠ (act receiver actor target context).2.lines

theorem nextName_congr {context context' : Context} (h : context'.temps = context.temps)
    (stem : String) : context'.nextName stem = context.nextName stem := by
  unfold Context.nextName
  rw [h]

variable {target target' : String}

theorem Target.act_tellsApart (form : ActionForm) (node : Node)
    (hlength : target'.length ≠ target.length) :
    TellsApart (Target.act form node) target target' := by
  intro receiver actor context context' hlines htemps
  refine Begins.lines_ne ((Begins.define ..).bind fun _ => .pure _)
    ((Begins.define ..).bind fun _ => .pure _) hlines ?_
  rw [nextName_congr htemps]
  refine constLine_ne ?_
  simp [toString]
  omega

/-- A stem that numbered names cannot share with those of targets. -/
def IsResultStem (stem : String) : Prop :=
  ¬ (stem ++ "_").toList <+: "target_".toList ∧ ¬ "target_".toList <+: (stem ++ "_").toList

instance (stem : String) : Decidable (IsResultStem stem) := inferInstanceAs (Decidable (_ ∧ _))

/-- A result and a target are declared by different lines. -/
theorem IsResultStem.const_ne {stem : String} (h : IsResultStem stem) (context : Context)
    (expr target : String) : constLine (context.nextName stem) expr ≠
      constLine (context.nextName "target") target := by
  intro hsame
  -- Behind `const `, one text begins with the stem and the other one with `target_`.
  have hlists := congrArg String.toList hsame
  simp only [constLine, toString, Context.nextName, String.toList_append, List.append_assoc,
    List.append_cancel_left_eq] at hlists
  rw [← List.append_assoc, ← String.toList_append] at hlists
  have htarget : "target_".toList <+: (stem ++ "_").toList ++
      ((Nat.repr (context.temps + 1)).toList ++ (" = ".toList ++ (expr.toList ++ ";".toList))) := by
    rw [hlists]
    exact List.prefix_append _ _
  rcases List.prefix_or_prefix_of_prefix (List.prefix_append _ _) htarget with hprefix | hprefix
  · exact h.1 hprefix
  · exact h.2 hprefix

/-- An action that may hold its target before the result is told apart by the target. -/
theorem held_lines_ne (node : Node) {stem : String} {call : String → String}
    {rest : String → String → Emit Unit} {context context' : Context}
    (hstem : IsResultStem stem)
    (hcall : ∀ {target target'}, target'.length ≠ target.length →
      (call target').length ≠ (call target).length)
    (hrest : ∀ target result, Adds (rest target result)) (hlength : target'.length ≠ target.length)
    (hlines : context'.lines = context.lines) (htemps : context'.temps = context.temps) :
    let action (target : String) : Emit Unit := do
      let target ← Emit.bind "target" target
      let result ← Emit.define node stem (call target)
      rest target result
    (action target' context').2.lines ≠ (action target context).2.lines := by
  intro action
  -- The first line holds the target, or the result if the target is simple.
  let first (context : Context) (target : String) : String :=
    if isSimple target then constLine (context.nextName stem) (call target)
    else constLine (context.nextName "target") target
  have hfirst (target : String) (context : Context) :
      Begins (action target) context (first context target) := by
    dsimp only [action, first]
    cases hsimple : isSimple target with
    | true =>
        unfold Emit.bind
        rw [hsimple]
        exact (Begins.define ..).bind fun _ => hrest _ _
    | false => exact (Begins.hold hsimple _).bind fun _ => .bind (.define _ _ _) fun _ => hrest _ _
  refine (hfirst target context).lines_ne (hfirst target' context') hlines ?_
  dsimp only [first]
  rw [nextName_congr htemps, nextName_congr htemps]
  split
  · split
    · exact constLine_ne (hcall hlength)
    · exact hstem.const_ne _ _ _
  · split
    · exact (hstem.const_ne _ _ _).symm
    · exact constLine_ne hlength

theorem Work.act_tellsApart (settings : Work) {form : ActionForm} (node : Node)
    (hstem : IsResultStem form.stem) (hlength : target'.length ≠ target.length) :
    TellsApart (settings.act form node) target target' := by
  intro receiver actor context context' hlines htemps
  unfold act
  cases settings.moveCloser with
  | true =>
      refine held_lines_ne node hstem (fun hlength => ?_) (fun _ _ => approach_adds _ _ _) hlength
        hlines htemps
      simp [toString]
      omega
  | false =>
      exact Target.act_tellsApart form node hlength receiver actor context context' hlines htemps

theorem transferArguments_length_ne (resource : String) (amount : Option Nat)
    (hlength : target'.length ≠ target.length) :
    (transferArguments target' resource amount).length ≠
      (transferArguments target resource amount).length := by
  cases amount with
  | none =>
      simp [transferArguments, toString]
      omega
  | some amount =>
      simp [transferArguments, toString]
      omega

theorem Transfer.act_tellsApart (settings : Transfer) (node : Node)
    (hlength : target'.length ≠ target.length) : TellsApart (settings.act node) target target' := by
  intro receiver actor context context' hlines htemps
  let call (target : String) : String :=
    receiver ++ ".transfer(" ++ transferArguments target settings.resource settings.amount ++ ")"
  have hcall {target target' : String} (hlength : target'.length ≠ target.length) :
      (call target').length ≠ (call target).length := by
    have hargs := transferArguments_length_ne settings.resource settings.amount hlength
    simp only [call, String.length_append]
    omega
  have hdrop (result : String) : Adds (Emit.block ("if (" ++ result ++ " === ERR_NOT_IN_RANGE)")
      (Emit.say (receiver ++ ".drop(" ++ settings.resource ++ ");"))) := .block _ (.say _)
  unfold act
  cases settings.fallback with
  | move =>
      exact held_lines_ne node (by decide) hcall (fun _ _ => approach_adds _ _ _) hlength hlines
        htemps
  | none =>
      refine Begins.lines_ne ((Begins.define ..).bind fun _ => .pure _)
        ((Begins.define ..).bind fun _ => .pure _) hlines ?_
      rw [nextName_congr htemps]
      exact constLine_ne (hcall hlength)
  | drop =>
      refine Begins.lines_ne ((Begins.define ..).bind fun _ => hdrop _)
        ((Begins.define ..).bind fun _ => hdrop _) hlines ?_
      rw [nextName_congr htemps]
      exact constLine_ne (hcall hlength)

theorem Withdraw.act_tellsApart (settings : Withdraw) (node : Node)
    (hlength : target'.length ≠ target.length) : TellsApart (settings.act node) target target' := by
  intro receiver actor context context' hlines htemps
  refine held_lines_ne node (by decide) (fun hlength => ?_) (fun _ _ => approach_adds _ _ _) hlength
    hlines htemps
  have hargs := transferArguments_length_ne settings.resource settings.amount hlength
  simp [toString]
  omega

/-! ## Targets -/

theorem atom_of_isSimple {expr : String} (h : isSimple expr = true) : atom expr = expr := if_pos h

theorem atom_length_ne {expr : String} (h : isSimple expr = false) :
    (atom expr).length ≠ expr.length := by
  have hparentheses : "(".length = 1 ∧ ")".length = 1 := by decide
  simp only [atom, h, Bool.false_eq_true, if_false, String.length_append]
  omega

/-- A node aims at a member of the acting unit. -/
def aimsAtMember (node : Node) (configured : Literal) (defaultTarget : Option String) : Bool :=
  (node.input? "target").isNone && configured.isUndefined && defaultTarget.isSome

variable {node : Node} {configured : Literal} {defaultTarget : Option String}

/-- Any other target does not depend on how the acting unit is written. -/
theorem targetInput_eq (h : aimsAtMember node configured defaultTarget = false)
    (actor actor' : String) : targetInput node configured defaultTarget actor' =
      targetInput node configured defaultTarget actor := by
  unfold targetInput
  cases hport : node.input? "target" with
  | some port =>
      rw [Emit.input_of_some hport, Emit.input_of_some hport]
      cases port <;> rfl
  | none =>
      cases configured with
      | undefined =>
          cases defaultTarget with
          | none => rfl
          | some member => simp [aimsAtMember, hport, Literal.isUndefined] at h
      | _ => rfl

/-- The default target is a member of the acting unit. -/
theorem targetInput_run (hport : node.input? "target" = none) (member actor : String)
    (context : Context) : targetInput node .undefined (some member) actor context =
      (actor ++ "." ++ member,
        context.standIn node.id "target" (.text (actor ++ "." ++ member))) :=
  Emit.input_of_none hport _ _

/-- What an aimed action does once the acting unit is known. -/
theorem aimed_run {context middle : Context} {actor : String}
    (hactor : Emit.actorInput node context = (actor, middle)) (receivers : Receivers)
    (act : String → String → String → Emit Unit) :
    aimed receivers node configured defaultTarget act context =
      let aim := targetInput node configured defaultTarget (receivers.member actor) middle
      act (receivers.call actor) actor aim.1 aim.2 := by
  change (fun found : String × Context =>
    let aim := targetInput node configured defaultTarget (receivers.member found.1) found.2
    act (receivers.call found.1) found.1 aim.1 aim.2) (Emit.actorInput node context) = _
  rw [hactor]

/-- Actions on a target show whether the acting unit was kept together. -/
theorem aimed_lines_iff {act : String → String → String → Emit Unit}
    (hact : ∀ {target target'}, target'.length ≠ target.length → TellsApart act target target')
    (context : Context) :
    (aimed .used node configured defaultTarget act context).2.lines =
        (aimed .whole node configured defaultTarget act context).2.lines ↔
      isSimple (Emit.actorInput node context).1 = true ∨
        aimsAtMember node configured defaultTarget = false := by
  cases hactor : Emit.actorInput node context with
  | mk actor middle =>
  rw [aimed_run hactor, aimed_run hactor]
  constructor
  · intro hsame
    by_contra hnot
    obtain ⟨hcomplex, haims⟩ := not_or.1 hnot
    rw [Bool.not_eq_true] at hcomplex
    simp only [aimsAtMember, Bool.not_eq_false, Bool.and_eq_true, Option.isNone_iff_eq_none]
      at haims
    obtain ⟨⟨hport, hundefined⟩, hmember⟩ := haims
    obtain ⟨member, rfl⟩ := Option.isSome_iff_exists.1 hmember
    obtain rfl : configured = .undefined := by
      cases configured with
      | undefined => rfl
      | _ => cases hundefined
    rw [targetInput_run hport, targetInput_run hport] at hsame
    have hlength : (atom actor ++ "." ++ member).length ≠ (actor ++ "." ++ member).length := by
      have hne : (atom actor).length ≠ actor.length := atom_length_ne hcomplex
      simp only [String.length_append]
      omega
    exact hact hlength (atom actor) actor (middle.standIn _ _ (.text (actor ++ "." ++ member)))
      (middle.standIn _ _ (.text (atom actor ++ "." ++ member))) rfl rfl hsame.symm
  · rintro (hsimple | hgiven)
    · have hatom : Receivers.whole.member actor = Receivers.used.member actor :=
        atom_of_isSimple hsimple
      rw [hatom]
      rfl
    · rw [targetInput_eq hgiven (Receivers.whole.member actor)]
      rfl

/-! ## Locations -/

/-- Accesses through the same keys differ in length if their bases do. -/
theorem foldl_length_ne {step : String → String → String}
    (hstep : ∀ {base base'} key, base'.length ≠ base.length →
      (step base' key).length ≠ (step base key).length) (keys : List String) {base base' : String}
    (h : base'.length ≠ base.length) :
    (keys.foldl step base').length ≠ (keys.foldl step base).length := by
  induction keys generalizing base base' with
  | nil => exact h
  | cons key keys ih => exact ih (hstep key h)

namespace Location

variable {base base' : String} {scopeKeys pathKeys : List String}

theorem optional_length_ne (h : base'.length ≠ base.length) :
    (optional ⟨base', scopeKeys, pathKeys⟩).length ≠
      (optional ⟨base, scopeKeys, pathKeys⟩).length := by
  refine foldl_length_ne (fun key h => ?_) _ h
  simp [toString]
  omega

theorem direct_length_ne (h : base'.length ≠ base.length) (length : Nat) :
    (direct ⟨base', scopeKeys, pathKeys⟩ length).length ≠
      (direct ⟨base, scopeKeys, pathKeys⟩ length).length := by
  refine foldl_length_ne (fun key h => ?_) _ h
  simp [toString]
  omega

end Location

namespace Memory

/-- The use of a location shows its base. -/
def TellsBase (use : Location → Emit Unit) (keys : List String) : Prop :=
  ∀ base base' (context : Context), base'.length ≠ base.length →
    (use ⟨base', [], keys⟩ context).2.lines ≠ (use ⟨base, [], keys⟩ context).2.lines

theorem readAt_tellsBase (settings : Memory) (node : Node) (keys : List String) :
    TellsBase (settings.readAt node) keys := by
  intro base base' context hlength
  have haccess := @Location.optional_length_ne base base' [] keys hlength
  let middle := (Emit.input node "default" settings.default context).2
  refine @Begins.lines_ne _ _ middle _ _ middle _ ((Begins.define ..).bind fun _ => .pure _)
    ((Begins.define ..).bind fun _ => .pure _) rfl (constLine_ne ?_)
  split
  · exact haccess
  · simp [toString]
    omega

theorem deleteAt_tellsBase (node : Node) {keys : List String} (hkeys : keys ≠ []) :
    TellsBase (deleteAt node) keys := by
  intro base base' context hlength
  have haccess := @Location.optional_length_ne base base' [] keys hlength
  have hpath : ¬ keys.isEmpty = true := by simpa using hkeys
  unfold deleteAt
  rw [if_neg hpath, if_neg hpath]
  refine Begins.lines_ne ((Begins.say ..).bind fun _ => Adds.produce _ _)
    ((Begins.say ..).bind fun _ => Adds.produce _ _) rfl fun hsame => haccess ?_
  have := congrArg String.length hsame
  simp [toString] at this
  omega

theorem emitStore_adds (settings : Memory) (location : Location) (value : String) :
    Adds (settings.emitStore location value) := by
  unfold emitStore
  dsimp only
  split
  · exact .bind (fun _ => List.prefix_rfl) fun _ => (Adds.say _).bind fun _ => .say _
  · exact .say _

/-- The way to a location and what is stored there. -/
def store (settings : Memory) (node : Node) (value : String) (location : Location) : Emit Unit := do
  emitParents location
  settings.emitStore location value
  Emit.produce node.id value

/-- The line that makes a part of the way to a location. -/
def parentLine (location : Location) (length : Nat) : String :=
  let parent := location.direct length
  s!"if ({parent} == null) {parent} = \x7b\x7d;"

theorem emitParents_begins (base key next : String) (rest : List String) (context : Context) :
    Begins (emitParents ⟨base, [], key :: next :: rest⟩) context
      (parentLine ⟨base, [], key :: next :: rest⟩ 1) := by
  have hrange : (List.range (rest.length + 2)).drop 1 =
      1 :: (List.range (rest.length + 2)).drop 2 := by
    rw [List.drop_eq_getElem_cons (by simp)]
    simp
  unfold emitParents
  rw [show Location.keys ⟨base, [], key :: next :: rest⟩ = key :: next :: rest from rfl,
    List.length_cons, List.length_cons, hrange]
  exact (Begins.say ..).bind fun _ => Adds.forM (fun _ => .say _) _

/-- The line that stores at a location, or holds what is there before a merge. -/
def storeLine (settings : Memory) (context : Context) (location : Location) (value : String) :
    String :=
  let target := location.direct location.keys.length
  if settings.merge then constLine (context.nextName "prev") target
  else s!"{target} = {value};"

theorem emitStore_begins (settings : Memory) (location : Location) (value : String)
    (context : Context) :
    Begins (settings.emitStore location value) context
      (settings.storeLine context location value) := by
  unfold emitStore storeLine
  dsimp only
  split
  · exact List.prefix_append _ _
  · exact Begins.say _ _

/-- The first line makes the way to the location, or stores there if nothing is on the way. -/
theorem store_tellsBase (settings : Memory) (node : Node) (value : String) {keys : List String}
    (hkeys : keys ≠ []) : TellsBase (settings.store node value) keys := by
  intro base base' context hlength
  have hdirect := @Location.direct_length_ne base base' [] keys hlength
  have hrest (location : Location) : Adds (settings.emitStore location value >>= fun _ =>
      Emit.produce node.id value) := (settings.emitStore_adds _ _).bind fun _ => .produce _ _
  unfold store
  match keys, hkeys with
  | [key], _ =>
      refine Begins.lines_ne ((settings.emitStore_begins ..).bind fun _ => Adds.produce _ _)
        ((settings.emitStore_begins ..).bind fun _ => Adds.produce _ _) rfl
        fun hsame => hdirect 1 ?_
      unfold storeLine at hsame
      dsimp only at hsame
      split at hsame
      · exact absurd hsame (constLine_ne (hdirect 1))
      · have hsizes := congrArg String.length hsame
        simp [toString, Location.keys] at hsizes
        omega
  | key :: next :: rest, _ =>
      refine Begins.lines_ne ((emitParents_begins ..).bind fun _ => hrest _)
        ((emitParents_begins ..).bind fun _ => hrest _) rfl fun hsame => hdirect 1 ?_
      have hsizes := congrArg String.length hsame
      simp [parentLine, toString] at hsizes
      omega

theorem writeAt_tellsBase (settings : Memory) (node : Node) {keys : List String}
    (hkeys : keys ≠ []) : TellsBase (settings.writeAt node) keys := by
  intro base base' context hlength
  have hpath : ¬ keys.isEmpty = true := by simpa using hkeys
  let found := Emit.input node "value" settings.value context
  let held := Emit.bind "value" found.1 found.2
  have hrun (base : String) : settings.writeAt node ⟨base, [], keys⟩ context =
      settings.store node held.1 ⟨base, [], keys⟩ held.2 := by
    unfold writeAt
    rw [if_neg hpath]
    rfl
  rw [hrun, hrun]
  exact settings.store_tellsBase node held.1 hkeys base base' held.2 hlength

theorem writeAt_nil (settings : Memory) (node : Node) (base : String) :
    settings.writeAt node ⟨base, [], []⟩ = Emit.warn node.id "memory write has an empty path" := rfl

theorem deleteAt_nil (node : Node) (base : String) :
    deleteAt node ⟨base, [], []⟩ = Emit.warn node.id "memory delete has an empty path" := rfl

/-- Uses of a location show whether the acting unit was kept together. -/
theorem located_lines_iff {settings : Memory} {node : Node} {use : Location → Emit Unit}
    (huse : TellsBase use ((splitPath settings.path).map quote)) (context : Context) :
    (settings.located .used node use context).2.lines =
        (settings.located .whole node use context).2.lines ↔
      isSimple (Emit.actorInput node context).1 = true ∨ settings.scope ≠ .actor := by
  unfold located
  cases settings.scope with
  | actor =>
      let actor := (Emit.actorInput node context).1
      change (use ⟨actor ++ ".memory", [], _⟩ (Emit.actorInput node context).2).2.lines =
        (use ⟨atom actor ++ ".memory", [], _⟩ (Emit.actorInput node context).2).2.lines ↔ _
      constructor
      · intro hsame
        refine .inl (Bool.not_eq_false _ ▸ fun hcomplex => ?_)
        have hne : (atom actor).length ≠ actor.length := atom_length_ne hcomplex
        refine huse _ _ _ ?_ hsame.symm
        simp only [String.length_append]
        omega
      · rintro (hsimple | hscope)
        · rw [show atom actor = actor from atom_of_isSimple hsimple]
        · exact absurd rfl hscope
  | _ => simp

end Memory

/-! ## The lines of a node -/

/-- A member of the acting unit is written right behind its expression. -/
def MemberUse.namesMember (node : Node) : MemberUse → Bool
  | .target configured defaultTarget _ => aimsAtMember node configured defaultTarget
  | .location settings needsPath _ =>
    settings.scope = .actor && (!needsPath || !(splitPath settings.path).isEmpty)

namespace MemberUse

/-- A location shows the acting unit, unless it needs a path and has none. -/
theorem location_lines_iff {node : Node} {settings : Memory} {needsPath : Bool}
    {use : Location → Emit Unit}
    (hshown : needsPath = false ∨ splitPath settings.path ≠ [] →
      Memory.TellsBase use ((splitPath settings.path).map quote))
    (hsilent : needsPath = true → ∀ base base', use ⟨base', [], []⟩ = use ⟨base, [], []⟩)
    (context : Context) :
    (settings.located .used node use context).2.lines =
        (settings.located .whole node use context).2.lines ↔
      isSimple (Emit.actorInput node context).1 = true ∨
        namesMember node (.location settings needsPath use) = false := by
  by_cases hused : needsPath = false ∨ splitPath settings.path ≠ []
  · have hnames : namesMember node (.location settings needsPath use) = false ↔
        settings.scope ≠ .actor := by
      rcases hused with hneeds | hpath
      · simp [namesMember, hneeds]
      · simp [namesMember, hpath]
    rw [Memory.located_lines_iff (hshown hused), hnames]
  · obtain ⟨hneeds, hpath⟩ := not_or.1 hused
    rw [Bool.not_eq_false] at hneeds
    have hpath : splitPath settings.path = [] := not_not.1 hpath
    have hsame : settings.located .used node use = settings.located .whole node use := by
      unfold Memory.located
      simp only [hpath, List.map_nil, hsilent hneeds "" (_ ++ _)]
    rw [hsame]
    simp [namesMember, hneeds, hpath]

/-- The lines show whether the acting unit was kept together, if a member is named. -/
theorem lines_iff {node : Node} {use : MemberUse} (h : memberUse? node = some use)
    (context : Context) :
    (use.statements .used node context).2.lines = (use.statements .whole node context).2.lines ↔
      isSimple (Emit.actorInput node context).1 = true ∨ use.namesMember node = false := by
  unfold memberUse? at h
  dsimp only at h
  split at h
  · cases h
    exact aimed_lines_iff (Work.act_tellsApart _ _ (by decide)) context
  · cases h
    exact aimed_lines_iff (Work.act_tellsApart _ _ (by decide)) context
  · cases h
    exact aimed_lines_iff (Work.act_tellsApart _ _ (by decide)) context
  · cases h
    exact aimed_lines_iff (Target.act_tellsApart _ _) context
  · cases h
    exact aimed_lines_iff (Target.act_tellsApart _ _) context
  · cases h
    exact aimed_lines_iff (Target.act_tellsApart _ _) context
  · cases h
    exact aimed_lines_iff (Transfer.act_tellsApart _ _) context
  · cases h
    exact aimed_lines_iff (Withdraw.act_tellsApart _ _) context
  · cases h
    exact location_lines_iff (fun _ => Memory.readAt_tellsBase _ _ _) (fun h => by cases h) context
  · cases h
    refine location_lines_iff (fun hpath => Memory.writeAt_tellsBase _ _ ?_)
      (fun _ _ _ => by rw [Memory.writeAt_nil, Memory.writeAt_nil]) context
    simpa using hpath
  · cases h
    refine location_lines_iff (fun hpath => Memory.deleteAt_tellsBase _ ?_)
      (fun _ _ _ => by rw [Memory.deleteAt_nil, Memory.deleteAt_nil]) context
    simpa using hpath
  · cases h

end MemberUse

/-- With the receivers that are used, the lines of a node are those with receivers that keep the
expression of the acting unit together exactly if the expression is simple or no member is written
right behind it. -/
theorem lines_keep_actor_iff (setting : Setting) (branch : List String → Walk Unit) (node : Node)
    (state : Walk.State) :
    dispatchWith .used setting branch node = dispatch setting branch node ∧
    ((dispatch setting branch node state).2.context.lines =
        (dispatchWith .whole setting branch node state).2.context.lines ↔
      isSimple (Emit.actorInput node state.context).1 = true ∨
        ∀ use ∈ memberUse? node, use.namesMember node = false) := by
  refine ⟨dispatchWith_used setting branch node, ?_⟩
  rw [← dispatchWith_used setting branch node]
  unfold dispatchWith
  cases huse : memberUse? node with
  | none => simp
  | some use =>
      simp only [Option.mem_some_iff, forall_eq']
      exact MemberUse.lines_iff huse state.context

/-- A node whose acting unit is one of two. -/
def eitherActs (id : String) (kind : Kind) : Node :=
  { id, kind, inputs := .insert .empty "actor" (.literal (.text "a || b")) }

/-- Its method is called on either unit, but its room and its memory are those of the second. -/
theorem eitherActs_regroups :
    let lines (node : Node) : List String :=
      (dispatch ⟨.empty, .empty⟩ (fun _ => pure ()) node {}).2.context.lines.map (·.text)
    lines (eitherActs "up" (.upgrade {})) =
        ["const upgrade_1 = (a || b).upgradeController(a || b.room.controller);"] ∧
      lines (eitherActs "read" (.memoryRead { scope := .actor, path := "job" })) =
        ["const mem_1 = a || b.memory?.[\"job\"];"] ∧
      isSimple "a || b" = false ∧ atom "a || b" = "(a || b)" := by
  decide +kernel

end TickScript.Kind
