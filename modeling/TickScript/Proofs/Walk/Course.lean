import TickScript.Emission.Dispatch

/-!
# Courses of emission

The statements of a node change the context and follow chains of nodes, and do nothing else to a
walk. `Node.heads` lists the chains for every built-in kind, and `dispatch_follows` says that these
are followed, all of them, in order and no others. Facts about walks are then proved by induction on
a `Course` instead of on the text of each emitter.
-/

namespace TickScript

open TickScript.Emission

/-- Whether no earlier case of a switch has the value of the case at an index. -/
def Kind.Switch.isFirst (settings : Switch) (index : Nat) : Bool :=
  match settings.cases[index]? with
  | some case => !isRepeated ((settings.cases.take index).map (·.value)) case.value
  | none => false

/-- The heads of the cases that are written: of cases with equal values only the first is. -/
def Kind.Switch.heads (settings : Switch) (node : Node) : List String :=
  ((List.range settings.cases.length).filter settings.isFirst).flatMap fun index =>
    node.slot s!"case-{index}"

/-- The ids at which the slots that a node writes begin, in the order in which they are written. -/
def Node.heads (node : Node) : List String :=
  match node.kind with
  | .branch => node.slot "true" ++ node.slot "false"
  | .switch settings => settings.heads node ++ node.slot "default"
  | .loop _ => node.slot "body" ++ node.slot "else"
  | .attempt => node.slot "try" ++ node.slot "catch" ++ node.slot "finally"
  | .tick _ => node.slot "body"
  | .fanOut => node.slots.values.flatten
  | _ => []

/-- Whether nothing follows a node of the kind. -/
def Kind.endsChain : Kind → Bool
  | .return _ | .break | .continue | .taskDefine _ => true
  | _ => false

namespace Emission

/-- What follows a node of a kind that is built in or has no emitter. -/
def continuationOf (kind : Kind) : Continuation := if kind.endsChain then .stop else .outputs

/-- Whether no emitter of the registry writes a node. -/
def Setting.isPlain (setting : Setting) (node : Node) : Bool :=
  match node.kind with
  | .custom custom => (setting.registry.get? custom.kind).isNone
  | _ => true

/-- No emitter writes a node if there are none. -/
theorem isPlain_empty (table : NodeTable) (node : Node) :
    (Setting.mk table .empty).isPlain node = true := by
  unfold Setting.isPlain
  split <;> rfl

namespace Walk

/-- The state after an action. -/
def after {α : Type} (action : Walk α) (state : State) : State := (action.run state).2

section After

variable {α β : Type}

@[simp] theorem after_pure (value : α) (state : State) : after (pure value) state = state := rfl

@[simp] theorem after_set (final state : State) : after (set final) state = final := rfl

@[simp] theorem after_modify (change : State → State) (state : State) :
    after (modify change) state = change state := rfl

theorem after_get (next : State → Walk α) (state : State) :
    after (get >>= next) state = after (next state) state := rfl

theorem after_bind (action : Walk α) (next : α → Walk β) (state : State) :
    after (action >>= next) state = after (next (action.run state).1) (after action state) := rfl

end After

/-- `Course follow ids state final` says that changes of the context and following chains lead from
one state to another, the chains being those of the ids in their order. -/
inductive Course (follow : String → Walk Unit) : List String → State → State → Prop where
  | done (state : State) : Course follow [] state state
  | context {ids : List String} {state final : State} (context : Context) :
      Course follow ids { state with context } final → Course follow ids state final
  | chain {ids : List String} {state final : State} (id : String) :
      Course follow ids (after (follow id) state) final → Course follow (id :: ids) state final

/-- An action takes the course of the given ids from every state. -/
def Follows {α : Type} (follow : String → Walk Unit) (ids : List String) (action : Walk α) : Prop :=
  ∀ state, Course follow ids state (after action state)

variable {follow : String → Walk Unit} {α β : Type}

/-- Courses can be joined. -/
theorem Course.append {ids later : List String} {state middle final : State}
    (hfirst : Course follow ids state middle) (hlater : Course follow later middle final) :
    Course follow (ids ++ later) state final := by
  induction hfirst with
  | done => exact hlater
  | context context _ ih => exact .context context (ih hlater)
  | chain id _ ih => exact .chain id (ih hlater)

/-- A course without chains changes nothing but the context. -/
theorem Course.eq_of_nil {state final : State} (h : Course follow [] state final) :
    final = { state with context := final.context } := by
  generalize hids : ([] : List String) = ids at h
  induction h with
  | done => rfl
  | context _ _ ih => exact ih hids
  | chain => cases hids

namespace Follows

/-- Doing nothing follows no chain. -/
theorem pure (value : α) : Follows follow [] (Pure.pure value : Walk α) := fun state => .done state

/-- An action on the context follows no chain. -/
theorem lift (action : Emit α) : Follows follow [] (Walk.lift action) := fun state =>
  .context (action.run state.context).2 (.done _)

/-- Two actions in a row follow the chains of the one and then those of the other. -/
theorem bind {ids later : List String} {action : Walk α} {next : α → Walk β}
    (haction : Follows follow ids action) (hnext : ∀ value, Follows follow later (next value)) :
    Follows follow (ids ++ later) (action >>= next) := fun state =>
  (haction state).append (hnext _ _)

/-- An action before which nothing is followed. -/
theorem after_quiet {ids : List String} {action : Walk α} {next : α → Walk β}
    (haction : Follows follow [] action) (hnext : ∀ value, Follows follow ids (next value)) :
    Follows follow ids (action >>= next) :=
  bind haction hnext

/-- An action after which nothing is followed. -/
theorem before_quiet {ids : List String} {action : Walk α} {next : α → Walk β}
    (haction : Follows follow ids action) (hnext : ∀ value, Follows follow [] (next value)) :
    Follows follow ids (action >>= next) := by
  simpa using bind haction hnext

/-- Following a list of ids. -/
theorem chains (ids : List String) : Follows follow ids (ids.forM follow) := by
  induction ids with
  | nil => exact pure ()
  | cons id ids ih => exact fun state => .chain id (ih _)

theorem say (text : String) : Follows follow [] (Walk.say text) := lift _

theorem indented {ids : List String} {body : Walk α} (hbody : Follows follow ids body) :
    Follows follow ids (Walk.indented body) :=
  after_quiet (lift _) fun _ => before_quiet hbody fun _ => after_quiet (lift _) fun _ => pure _

theorem block {ids : List String} {header : String} {body : Walk α}
    (hbody : Follows follow ids body) : Follows follow ids (Walk.block header body) :=
  after_quiet (say _) fun _ => before_quiet hbody.indented fun _ => after_quiet (say _) fun _ =>
    pure _

end Follows

end Walk

end Emission

namespace Kind

variable {follow : String → Walk Unit}

open Walk (Follows)

/-- A branch follows its two slots. -/
theorem emitBranch_follows (node : Node) :
    Follows follow (node.slot "true" ++ node.slot "false") (emitBranch (·.forM follow) node) := by
  refine .after_quiet (.lift _) fun condition => .after_quiet (.say _) fun _ => ?_
  refine .bind (.indented (.chains _)) fun _ => ?_
  cases hslot : node.slot "false" with
  | nil => exact .say _
  | cons head rest =>
      exact .after_quiet (.say _) fun _ =>
        .before_quiet (.indented (.chains _)) fun _ => .say _

namespace Switch

/-- A value that stands among earlier ones stands among the first of each of them. -/
theorem isRepeated_append_of_repeated {earlier : List Literal} {case : Literal} (value : Literal)
    (hcase : isRepeated earlier case = true) :
    isRepeated (earlier ++ [case]) value = isRepeated earlier value := by
  simp only [isRepeated, List.any_append, List.any_cons, List.any_nil, Bool.or_false]
  cases hvalue : case == value with
  | false => simp
  | true =>
      obtain ⟨first, hfirst, hsame⟩ := List.any_eq_true.1 hcase
      have : earlier.any (· == value) = true :=
        List.any_eq_true.2 ⟨first, hfirst, Literal.same_trans hsame hvalue⟩
      simp [this]

section Cases

variable {branch : List String → Walk Unit} {node : Node} {motive : List Nat → Walk Unit → Prop}
  (hnil : motive [] (pure ()))
  (hpass : ∀ message indices rest, motive indices rest → motive indices do
    Walk.lift (Emit.warn node.id message)
    rest)
  (hwrite : ∀ header index indices rest, motive indices rest → motive (index :: indices) do
    Walk.block header do
      branch (node.slot s!"case-{index}")
      Walk.say "break;"
    rest)

include hnil hpass hwrite

/-- What holds of no cases, and stays true when a case is passed over or written before others, holds
of the cases behind an initial part of a switch, by the indices of those that are written. It makes no
difference whether only the written cases count as earlier. -/
theorem emitCases_behind (settings : Switch) (start rest : List SwitchCase)
    (hcases : settings.cases = start ++ rest) (earlier : List Literal)
    (hearlier : ∀ value, isRepeated earlier value = isRepeated (start.map (·.value)) value) :
    motive ((List.range' start.length rest.length).filter settings.isFirst)
      (emitCases branch node start.length earlier rest) := by
  induction rest generalizing start earlier with
  | nil => exact hnil
  | cons case rest ih =>
      have hfirst : settings.isFirst start.length = !isRepeated earlier case.value := by
        simp [isFirst, hcases, hearlier]
      have hstart : settings.cases = (start ++ [case]) ++ rest := by simp [hcases]
      have hlength : (start ++ [case]).length = start.length + 1 := by simp
      rw [List.length_cons, List.range'_succ, List.filter_cons, emitCases, hfirst]
      -- A case that is passed over is not counted as earlier, but an equal one is.
      cases hrepeated : isRepeated earlier case.value with
      | true =>
          have hnext := ih (start ++ [case]) hstart earlier fun value => by
            have := isRepeated_append_of_repeated value (hearlier case.value ▸ hrepeated)
            simp [hearlier, this]
          rw [hlength] at hnext
          exact hpass _ _ _ hnext
      | false =>
          have hnext := ih (start ++ [case]) hstart (earlier ++ [case.value]) fun value => by
            have := hearlier value
            simp_all [isRepeated]
          rw [hlength] at hnext
          exact hwrite _ _ _ _ hnext

/-- The same of all cases of a switch. -/
theorem emitCases_all (settings : Switch) :
    motive ((List.range settings.cases.length).filter settings.isFirst)
      (emitCases branch node 0 [] settings.cases) := by
  rw [List.range_eq_range']
  exact emitCases_behind hnil hpass hwrite settings [] settings.cases rfl [] fun _ => rfl

end Cases

/-- A switch follows the slots of its cases and the default slot. -/
theorem emit_follows (settings : Switch) (node : Node) :
    Follows follow (settings.heads node ++ node.slot "default")
      (settings.emit (·.forM follow) node) := by
  have hcases : Follows follow (settings.heads node)
      (emitCases (·.forM follow) node 0 [] settings.cases) := by
    refine emitCases_all (motive := fun indices action => Follows follow
      (indices.flatMap fun index => node.slot s!"case-{index}") action) (.pure ()) ?_ ?_ settings
    · exact fun message indices rest hrest => .after_quiet (.lift _) fun _ => hrest
    · exact fun header index indices rest hrest =>
        .bind (.block (.before_quiet (.chains _) fun _ => .say _)) fun _ => hrest
  exact .after_quiet (.lift _) fun value => .block <| .bind hcases fun _ =>
    .block <| .before_quiet (.chains _) fun _ => .say _

end Switch

namespace Loop

variable (settings : Loop) (node : Node) (ran : String)

/-- A counted loop follows its body. -/
theorem emitCounted_follows :
    Follows follow (node.slot "body") (settings.emitCounted (·.forM follow) node ran) := by
  have hbody (counter : String) : Follows follow (node.slot "body")
      (Walk.block s!"for (let {counter} = 0; {counter} < {settings.maxIterations}; {counter}++)" do
        Walk.say s!"{ran} = true;"
        Walk.lift (Emit.produce node.id counter)
        (node.slot "body").forM follow) :=
    .block <| .after_quiet (.say _) fun _ => .after_quiet (.lift _) fun _ => .chains _
  unfold emitCounted
  split
  · split
    · exact hbody _
    · exact .after_quiet (.lift _) hbody
  · exact .after_quiet (.lift _) hbody

/-- A conditional loop follows its body. -/
theorem emitConditional_follows :
    Follows follow (node.slot "body") (settings.emitConditional (·.forM follow) node ran) := by
  refine .after_quiet (.lift _) fun condition => .after_quiet (.lift _) fun counter => ?_
  exact .after_quiet (.say _) fun _ => .block <| .after_quiet (.say _) fun _ =>
    .after_quiet (.say _) fun _ => .after_quiet (.say _) fun _ =>
      .after_quiet (.lift _) fun _ => .chains _

/-- A loop follows its body and the slot for the case that it never ran. -/
theorem emit_follows :
    Follows follow (node.slot "body" ++ node.slot "else") (settings.emit (·.forM follow) node) := by
  have helse (ran : String) : Follows follow (node.slot "else")
      (if !(node.slot "else").isEmpty then
        Walk.block s!"if (!{ran})" ((node.slot "else").forM follow)
      else pure ()) := by
    cases node.slot "else" with
    | nil => exact .pure _
    | cons head rest => exact .block (.chains _)
  refine .after_quiet (.lift _) fun ran => .after_quiet (.say _) fun _ => ?_
  cases settings.mode with
  | counted => exact .bind (settings.emitCounted_follows node ran) fun _ => helse ran
  | conditional => exact .bind (settings.emitConditional_follows node ran) fun _ => helse ran

end Loop

/-- An attempt follows its three slots. -/
theorem emitAttempt_follows (node : Node) :
    Follows follow (node.slot "try" ++ node.slot "catch" ++ node.slot "finally")
      (emitAttempt (·.forM follow) node) := by
  have hcatch : Follows follow (node.slot "catch")
      (if (node.slot "catch").isEmpty then Walk.say "// error suppressed"
      else (node.slot "catch").forM follow) := by
    cases node.slot "catch" with
    | nil => exact .say _
    | cons head rest => exact .chains _
  rw [List.append_assoc]
  refine .after_quiet (.say _) fun _ => .bind (.indented (.chains _)) fun _ => ?_
  refine .after_quiet (.lift _) fun error => .after_quiet (.say _) fun _ => ?_
  refine .bind (.indented (.after_quiet (.lift _) fun _ => hcatch)) fun _ => ?_
  cases hslot : node.slot "finally" with
  | nil => exact .say _
  | cons head rest =>
      exact .after_quiet (.say _) fun _ =>
        .before_quiet (.indented (.chains _)) fun _ => .say _

/-- A gate follows its body. -/
theorem Tick.emit_follows (settings : Tick) (node : Node) :
    Follows follow (node.slot "body") (settings.emit (·.forM follow) node) :=
  .after_quiet (.lift _) fun _ => .block (.chains _)

/-- A fan-out follows all its slots. -/
theorem emitFanOut_follows (node : Node) :
    Follows follow node.slots.values.flatten (emitFanOut (·.forM follow) node) := by
  unfold emitFanOut Keyed.values
  induction node.slots.entries with
  | nil => exact .pure ()
  | cons entry entries ih =>
      exact .bind (.after_quiet (.say _) fun _ => .chains _) fun _ => ih

end Kind

namespace Emission

variable {follow : String → Walk Unit} {setting : Setting} {node : Node}

/-- A node of a custom kind without an emitter only gives a warning. -/
theorem emitCustom_of_plain {branch : List String → Walk Unit} {custom : Kind.Custom}
    (hplain : setting.isPlain node = true) (hkind : node.kind = .custom custom) :
    emitCustom setting branch node custom = do
      Walk.lift (Emit.warn node.id s!"no emitter implemented for kind {custom.kind}")
      return Continuation.outputs := by
  rw [Setting.isPlain, hkind, Option.isNone_iff_eq_none] at hplain
  rw [emitCustom, hplain]

/-- The statements of a node that is not plain are a routine, that of an emitter of the registry. -/
theorem exists_routine (h : setting.isPlain node = false) :
    ∃ routine : Routine Continuation, ∀ branch : List String → Walk Unit,
      dispatch setting branch node = routine.run setting.registry branch := by
  unfold Setting.isPlain at h
  split at h
  · next custom hkind =>
    obtain ⟨emitter, hemitter⟩ := Option.isSome_iff_exists.1 (Option.isNone_eq_false_iff.1 h)
    refine ⟨emitter.emit node custom.settings, fun branch => ?_⟩
    unfold dispatch
    rw [hkind]
    change emitCustom setting branch node custom = _
    rw [emitCustom, hemitter]
  · cases h

/-- The statements of a node follow its heads, unless an emitter of the registry writes them. -/
theorem dispatch_follows (hplain : setting.isPlain node = true) :
    Walk.Follows follow node.heads (dispatch setting (·.forM follow) node) := by
  have hstop (action : Emit Unit) : Walk.Follows follow [] do
      Walk.lift action
      return Continuation.stop :=
    .after_quiet (.lift _) fun _ => .pure _
  have hnext (action : Emit Unit) : Walk.Follows follow [] do
      Walk.lift action
      return Continuation.outputs :=
    .after_quiet (.lift _) fun _ => .pure _
  have hconstruct {ids : List String} {action : Walk Unit} (h : Walk.Follows follow ids action) :
      Walk.Follows follow ids do
        action
        return Continuation.outputs :=
    .before_quiet h fun _ => .pure _
  unfold dispatch Node.heads
  cases hkind : node.kind with
  | branch => exact hconstruct (Kind.emitBranch_follows node)
  | switch settings => exact hconstruct (settings.emit_follows node)
  | loop settings => exact hconstruct (settings.emit_follows node)
  | attempt => exact hconstruct (Kind.emitAttempt_follows node)
  | tick settings => exact hconstruct (settings.emit_follows node)
  | fanOut => exact hconstruct (Kind.emitFanOut_follows node)
  | start | merge | taskDefine => exact .pure _
  | «return» | «break» | «continue» => exact hstop _
  | custom custom =>
      change Walk.Follows follow [] (emitCustom setting _ node custom)
      rw [emitCustom_of_plain hplain hkind]
      exact hnext _
  | _ => exact hnext _

/-- What follows a node is known from its kind, unless an emitter of the registry writes it. -/
theorem dispatch_continuation (hplain : setting.isPlain node = true)
    (branch : List String → Walk Unit) (state : Walk.State) :
    ((dispatch setting branch node).run state).1 = continuationOf node.kind := by
  unfold dispatch
  cases hkind : node.kind with
  | custom custom =>
      change ((emitCustom setting branch node custom).run state).1 = .outputs
      rw [emitCustom_of_plain hplain hkind]
      rfl
  | _ => rfl

namespace Walk

/-- A visit passes over visited ids and join points, and otherwise writes the node under the id. -/
theorem after_visit (setting : Setting) (budget : Nat) (id : String) (state : State) :
    after (visit setting (budget + 1) id) state =
      if id ∈ state.visited then state
      else if id ∈ state.joins then state.note (.postponed id)
      else
        match setting.table.get? id with
        | some node =>
          (after (write setting (visit setting budget) id node) (state.enter id)).note (.left id)
        | none => (state.enter id).note (.left id) := by
  simp only [visit, after_get, List.contains_eq_mem, decide_eq_true_eq]
  split
  · rfl
  · split
    · rfl
    · cases setting.table.get? id <;> rfl

/-- The state in which the statements of a node begin. -/
def State.opened (state : State) (setting : Setting) (id : String) (node : Node) : State :=
  let shared := sharedAfter setting state.visited node
  state.suspend id shared (if node.hasBranches then node.outputs ++ shared else [])

/-- A node is written by its statements, after which its outputs and shared continuations follow
unless it ends its chain. -/
theorem after_write (follow : String → Walk Unit) (id : String) (state : State)
    (hplain : setting.isPlain node = true) :
    after (write setting follow id node) state =
      let resumed := (after (dispatch setting (·.forM follow) node)
        (state.opened setting id node)).resume id (continuationOf node.kind) state.joins
      if node.kind.endsChain then resumed
      else after ((node.outputs ++ sharedAfter setting state.visited node).forM follow) resumed := by
  have hcontinuation := dispatch_continuation hplain (·.forM follow) (state.opened setting id node)
  simp only [State.opened] at hcontinuation ⊢
  simp only [write, after_get]
  rw [after_bind, after_bind, after_set, hcontinuation, continuationOf]
  cases node.kind.endsChain <;> rfl

/-- A course restores the join points if following a chain does. -/
theorem Course.joins_eq {ids : List String} {state final : State}
    (hfollow : ∀ id state, (after (follow id) state).joins = state.joins)
    (h : Course follow ids state final) : final.joins = state.joins := by
  induction h with
  | done => rfl
  | context _ _ ih => exact ih
  | chain id _ ih => exact ih.trans (hfollow id _)

/-- Writing a node restores the join points if following a chain does. -/
theorem write_joins {id : String} {node : Node} {state : State}
    (hfollow : ∀ id state, (after (follow id) state).joins = state.joins) :
    (after (write setting follow id node) state).joins = state.joins := by
  simp only [write, after_bind]
  split
  · exact ((Follows.chains _ _).joins_eq hfollow).trans rfl
  · rfl

/-- A visit restores the join points. -/
theorem visit_joins (setting : Setting) (budget : Nat) (id : String) (state : State) :
    (after (visit setting budget id) state).joins = state.joins := by
  induction budget generalizing id state with
  | zero => rfl
  | succ budget ih =>
      rw [after_visit]
      split
      · rfl
      · split
        · rfl
        · split
          · exact write_joins ih
          · rfl

end Walk

end Emission

end TickScript
