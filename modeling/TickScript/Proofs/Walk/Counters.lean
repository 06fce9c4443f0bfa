import Mathlib.Data.List.Pairwise
import TickScript.Proofs.Emission.Calls
import TickScript.Proofs.Emission.Temporaries
import TickScript.Proofs.Walk.Evolution

/-!
# Counters of loops

The counter of a counted loop has the name that is set for it or else a temporary one. `Walk.Counts`
keeps account of the counted loops that a walk writes, with the context in which each of them began.
A temporary counter has a name of its own, but a name that is set may be that of the loop's own
flag, of another temporary name in scope or of the counter of a loop around it.
`counters_apart_iff` says exactly this, and what follows for how often a loop runs and for the value
that an edge reads.
-/

namespace TickScript.Emission

open Relation (ReflTransGen)

/-! ## Counted loops -/

/-- A counted loop that a walk has written. -/
structure CountedLoop where
  id : String
  node : Node
  settings : Kind.Loop
  /-- The context in which its statements began. -/
  context : Context

namespace CountedLoop

variable (loop : CountedLoop)

/-- The variable that tells whether the loop ever ran. -/
def flag : String := loop.context.nextName "ran"

/-- The name for the counter that is set, if it can be written as a name. -/
def iterator? : Option String := loop.settings.iterator.filter Text.isIdentifier

/-- The counter: the name that is set, or a temporary one. -/
def counter : String := loop.iterator?.getD ((loop.context.issue "ran").nextName "i")

/-- The temporary names of the loop, the latest first. -/
def names : List String :=
  match loop.iterator? with
  | some _ => [loop.flag]
  | none => [loop.counter, loop.flag]

/-- The text before the body. -/
def header : String :=
  let counter := loop.counter
  let max := loop.settings.maxIterations
  s!"for (let {counter} = 0; {counter} < {max}; {counter}++)" ++ " \x7b"

/-- The line that declares the flag, the header, and the first line of the body. -/
def lines : List Line :=
  let flag := loop.flag
  let indent := loop.context.indent
  [⟨indent, s!"let {flag} = false;"⟩, ⟨indent, loop.header⟩,
    ⟨indent + indentStep, s!"{flag} = true;"⟩]

/-- What is noted when the counter is recorded as the value of the node. -/
def record : Access :=
  .recorded loop.node.id loop.counter
    ⟨loop.context.lines.length + 3, loop.context.indent + indentStep⟩

/-- The context in which the counter has its name. -/
def named : Context :=
  let flag := loop.flag
  let declared := (loop.context.issue "ran").push s!"let {flag} = false;"
  match loop.iterator? with
  | some _ => declared
  | none => declared.issue "i"

/-- The context in which the nodes of the body are written. -/
def headed : Context :=
  let flag := loop.flag
  ((loop.named.push loop.header).enter.push s!"{flag} = true;").record loop.node.id loop.counter

/-- The loop has been begun in a context. -/
structure StandsIn (final : Context) : Prop where
  written : loop.context.written ++ loop.lines <+: final.written
  names : loop.names ++ loop.context.names <:+ final.names
  accesses : loop.record :: loop.context.accesses <:+ final.accesses

theorem evolves_named : loop.context.Evolves loop.named := by
  have hdeclared (text : String) : loop.context.Evolves ((loop.context.issue "ran").push text) :=
    (ReflTransGen.single (.issue _ _)).tail (.push _ _)
  unfold named
  dsimp only
  split
  · exact hdeclared _
  · exact (hdeclared _).tail (.issue _ _)

/-- The loop is begun by changes of the context. -/
theorem evolves_headed : loop.context.Evolves loop.headed :=
  (((loop.evolves_named.tail (.push _ _)).tail (.enter _)).tail (.push _ _)).tail (.record _ _ _)

theorem standsIn_headed : loop.StandsIn loop.headed := by
  obtain ⟨hnames, hlines, htaken, hindent, haccesses⟩ :
      loop.headed.names = loop.names ++ loop.context.names ∧
      loop.named.lines = loop.context.lines ++ loop.lines.take 1 ∧
      loop.named.taken = loop.context.taken ∧ loop.named.indent = loop.context.indent ∧
      loop.named.accesses = loop.context.accesses := by
    unfold headed named names counter
    cases loop.iterator? <;> exact ⟨rfl, rfl, rfl, rfl, rfl⟩
  constructor
  · simp [headed, Context.written, Context.record, Context.push, Context.enter, hlines, htaken,
      hindent, lines]
  · exact hnames ▸ List.suffix_rfl
  · simp [headed, record, Context.record, Context.push, Context.enter, Context.site, hlines,
      hindent, haccesses, lines]

variable {loop}

theorem StandsIn.later {middle final : Context} (h : loop.StandsIn middle)
    (hlater : middle.Extends final) : loop.StandsIn final :=
  ⟨h.written.trans hlater.written, h.names.trans hlater.names, h.accesses.trans hlater.accesses⟩

end CountedLoop

/-! ## Writing a counted loop -/

namespace Walk

variable {Related : State → State → Prop} {follow : String → Walk Unit}

/-- What is written after the first line of the body. -/
def restOfLoop (follow : String → Walk Unit) (node : Node) (flag : String) : Walk Unit := do
  (node.slot "body").forM follow
  Walk.lift (modify Context.exit)
  Walk.say "\x7d"
  if !(node.slot "else").isEmpty then
    Walk.block s!"if (!{flag})" ((node.slot "else").forM follow)

/-- The statements of a counted loop begin with its lines. -/
theorem after_counted (id : String) (node : Node) {settings : Kind.Loop}
    (hmode : settings.mode = .counted) (state : State) :
    let loop : CountedLoop := ⟨id, node, settings, state.context⟩
    after (settings.emit (·.forM follow) node) state =
      after (restOfLoop follow node loop.flag) { state with context := loop.headed } := by
  intro loop
  unfold Kind.Loop.emit
  rw [hmode]
  dsimp only
  unfold Kind.Loop.emitCounted
  unfold CountedLoop.headed CountedLoop.header CountedLoop.named CountedLoop.counter
    CountedLoop.iterator?
  -- A name that is set counts only if it can be written as one.
  cases hiterator : settings.iterator with
  | none =>
      simp only [loop, Option.filter_none]
      rfl
  | some name =>
      cases hname : Text.isIdentifier name with
      | true =>
          simp only [loop, hname, if_true, Option.filter_some]
          rfl
      | false =>
          simp only [loop, hname, Option.filter_some]
          rfl

/-- What follows the first line of the body leads to related states if chains do. -/
theorem restOfLoop_keeps (h : Evolution Related) (hfollow : ∀ id, Keeps Related (follow id))
    (node : Node) (flag : String) : Keeps Related (restOfLoop follow node flag) := by
  refine h.bind (h.forM hfollow) fun _ => h.bind (h.lift fun context => .single (.exit context))
    fun _ => h.bind (h.lift (Emit.say_evolves _)) fun _ => ?_
  split
  · exact h.block _ (h.forM hfollow)
  · exact h.pure _

/-! ## The counted loops of a walk -/

/-- The counted loop that stands under an id. -/
def countedLoop? (table : NodeTable) (id : String) : Option (Node × Kind.Loop) :=
  match table.get? id with
  | some node =>
    match node.kind with
    | .loop settings => if settings.mode = .counted then some (node, settings) else none
    | _ => none
  | none => none

theorem countedLoop?_eq_some {table : NodeTable} {id : String} {node found : Node}
    {settings : Kind.Loop} (hnode : table.get? id = some node)
    (h : countedLoop? table id = some (found, settings)) :
    found = node ∧ node.kind = .loop settings ∧ settings.mode = .counted := by
  unfold countedLoop? at h
  rw [hnode] at h
  dsimp only at h
  split at h
  · next settings hkind =>
    split at h
    · next hmode =>
      cases h
      exact ⟨rfl, hkind, hmode⟩
    · cases h
  · cases h

/-- The name that is set for the counter of a loop, if it can be written as a name. -/
def setIterator? (table : NodeTable) (id : String) : Option String :=
  (countedLoop? table id).bind fun found => found.2.iterator.filter Text.isIdentifier

/-- The ids of the counted loops that were written, the latest first. -/
def countedIds (table : NodeTable) (trace : List Event) : List String :=
  (dispatched trace).filter fun id => (countedLoop? table id).isSome

/-- The counted loops that a part of a walk has written, the latest first. A later one was begun
when the earlier ones stood. -/
structure Counts (table : NodeTable) (loops : List CountedLoop) (state final : State) : Prop where
  ids : countedIds table final.trace = loops.map (·.id) ++ countedIds table state.trace
  evolves : state.context.Evolves final.context
  found : ∀ loop ∈ loops, countedLoop? table loop.id = some (loop.node, loop.settings)
  since : ∀ loop ∈ loops, state.context.Evolves loop.context
  stand : ∀ loop ∈ loops, loop.StandsIn final.context
  order : loops.Pairwise fun later earlier => earlier.StandsIn later.context

namespace Counts

variable {table : NodeTable} {loops later : List CountedLoop} {state middle final : State}

/-- Nothing is counted while no node is written. -/
theorem quiet (hids : dispatched final.trace = dispatched state.trace)
    (hevolves : state.context.Evolves final.context) : Counts table [] state final where
  ids := by rw [countedIds, hids]; rfl
  evolves := hevolves
  found := by simp
  since := by simp
  stand := by simp
  order := .nil

theorem trans (h : Counts table loops state middle) (hlater : Counts table later middle final) :
    Counts table (later ++ loops) state final where
  ids := by rw [hlater.ids, h.ids, List.map_append, List.append_assoc]
  evolves := h.evolves.trans hlater.evolves
  found := List.forall_mem_append.2 ⟨hlater.found, h.found⟩
  since := List.forall_mem_append.2
    ⟨fun loop hloop => h.evolves.trans (hlater.since loop hloop), h.since⟩
  stand := List.forall_mem_append.2
    ⟨hlater.stand, fun loop hloop => (h.stand loop hloop).later hlater.evolves.extends⟩
  order := List.pairwise_append.2 ⟨hlater.order, h.order, fun loop hloop earlier hearlier =>
    (h.stand earlier hearlier).later (hlater.since loop hloop).extends⟩

end Counts

/-- Parts of walks write some counted loops. -/
theorem counts_evolution (table : NodeTable) :
    Evolution fun state final => ∃ loops, Counts table loops state final where
  refl := fun _ => ⟨[], .quiet rfl .refl⟩
  trans := fun ⟨loops, h⟩ ⟨later, hlater⟩ => ⟨later ++ loops, h.trans hlater⟩
  context := fun _ _ h => ⟨[], .quiet rfl h⟩

/-- The statements of a node write the loop, if it is one, and those of its slots. -/
theorem dispatch_counts {setting : Setting} {id : String} {node : Node} (state : State)
    (hnode : setting.table.get? id = some node)
    (hfollow : ∀ id, Keeps (fun state final => ∃ loops, Counts setting.table loops state final)
      (follow id)) :
    ∃ loops, Counts setting.table loops state
      (after (dispatch setting (·.forM follow) node) (state.opened setting id node)) := by
  have h := counts_evolution setting.table
  have hopened : dispatched (state.opened setting id node).trace =
      id :: dispatched state.trace := rfl
  cases hcounted : countedLoop? setting.table id with
  | none =>
      obtain ⟨loops, hloops⟩ := @Evolution.dispatch _ setting node follow h hfollow
        (state.opened setting id node)
      have hids : countedIds setting.table (state.opened setting id node).trace =
          countedIds setting.table state.trace := by
        simp [countedIds, hopened, hcounted]
      exact ⟨loops, { hloops with ids := hids ▸ hloops.ids }⟩
  | some found =>
      obtain ⟨found, settings⟩ := found
      obtain ⟨rfl, hkind, hmode⟩ := countedLoop?_eq_some hnode hcounted
      let loop : CountedLoop := ⟨id, found, settings, state.context⟩
      let headed : State := { state.opened setting id found with context := loop.headed }
      have hemit : after (dispatch setting (·.forM follow) found) (state.opened setting id found) =
          after (settings.emit (·.forM follow) found) (state.opened setting id found) := by
        unfold dispatch
        rw [hkind]
        rfl
      have hrest := hemit.trans (after_counted id found hmode (state.opened setting id found))
      rw [hrest]
      have hevolves : state.context.Evolves loop.headed := loop.evolves_headed
      -- The loop itself is counted once its lines stand, and then those in its slots are.
      have hbegun : Counts setting.table [loop] state headed := by
        refine ⟨?_, hevolves, ?_, ?_, ?_, List.pairwise_singleton _ _⟩
        · have htrace : dispatched headed.trace = id :: dispatched state.trace := hopened
          simp [countedIds, htrace, hcounted, loop]
        · simpa [loop] using hcounted
        · simpa [loop] using ReflTransGen.refl
        · simpa using loop.standsIn_headed
      obtain ⟨loops, hloops⟩ := restOfLoop_keeps h hfollow found loop.flag headed
      exact ⟨loops ++ [loop], hbegun.trans hloops⟩

/-- A walk writes some counted loops. -/
theorem walk_counts (setting : Setting) (id : String) (state : State) :
    ∃ loops, Counts setting.table loops state (after (walk setting id) state) := by
  refine (counts_evolution setting.table).visit ?_ ?_ (setting.table.size + 1) id state
  · intro state final hcontext hids
    exact ⟨[], .quiet hids (hcontext ▸ .refl)⟩
  · intro follow hfollow id node state hnode
    exact dispatch_counts state hnode hfollow

end Walk

/-! ## The functions of a program -/

theorem taskStates_counted (setting : Setting) (context : Context) (tasks : List Task) :
    ∀ final ∈ taskStates setting context tasks, ∃ (start : Walk.State) (loops : List CountedLoop),
      start.trace = [] ∧ start.context.Proper ∧
        Walk.Counts setting.table loops start final := by
  induction tasks generalizing context with
  | nil => simp [taskStates]
  | cons task tasks ih =>
      refine List.forall_mem_cons.2 ⟨?_, ih _⟩
      unfold taskState
      split
      · next entry _ =>
        obtain ⟨loops, hloops⟩ := Walk.walk_counts setting entry { context := context.child }
        exact ⟨_, loops, rfl, .of_empty rfl rfl rfl rfl, hloops⟩
      · next hentry =>
        refine ⟨_, [], rfl, ?_, .quiet rfl .refl⟩
        unfold taskContext
        rw [hentry]
        exact .of_empty rfl rfl rfl rfl

/-- Every function of a program begins with nothing and writes some counted loops. -/
theorem functionStates_counted (program : Program) (registry : Registry) :
    ∀ final ∈ functionStates program registry, ∃ (start : Walk.State) (loops : List CountedLoop),
      start.trace = [] ∧ start.context.Proper ∧
        Walk.Counts program.nodes loops start final := by
  refine List.forall_mem_cons.2 ⟨?_, taskStates_counted _ _ _⟩
  obtain ⟨loops, hloops⟩ := Walk.walk_counts ⟨program.nodes, registry⟩ program.entry {}
  exact ⟨_, loops, rfl, .of_empty rfl rfl rfl rfl, hloops⟩

/-! ## Names that are the counter of one loop only -/

namespace CountedLoop

variable (loop : CountedLoop)

/-- The point before the header, among all lines that were written. -/
def site : Site := ⟨loop.context.written.length + 1, loop.context.indent⟩

/-- The body of the loop is open at a point. -/
def IsOpen (written : List Line) (site : Site) : Prop :=
  let depth := loop.context.indent + indentStep
  loop.site.line < site.line ∧ depth ≤ site.indent ∧
    ∀ line ∈ (written.take site.line).drop (loop.site.line + 1), depth ≤ line.indent

/-- The temporary names of a function, without that of the counter itself. -/
def otherNames (names : List String) : List String :=
  match loop.iterator? with
  | some _ => names
  | none => names.erase loop.counter

/-- At a point of a function, the counter has a name of its own: no other temporary name in scope
and no counter of another loop that is open there is the same. -/
structure Apart (loops : List CountedLoop) (final : Context) (site : Site) : Prop where
  names : ∀ name ∈ loop.otherNames final.names, InScope final.written site name →
    name ≠ loop.counter
  loops : ∀ other ∈ loops, other.id ≠ loop.id → other.IsOpen final.written site →
    other.counter ≠ loop.counter

/-- At a point of a function, no name that is set for the counter, or for the counter of another
loop that is open there, is taken. -/
structure Clear (loops : List CountedLoop) (final : Context) (site : Site) : Prop where
  names : ∀ name ∈ final.names, InScope final.written site name → loop.iterator? ≠ some name
  loops : ∀ other ∈ loops, other.id ≠ loop.id → other.IsOpen final.written site →
    loop.iterator? ≠ some other.counter ∧ other.iterator? ≠ some loop.counter

variable {loop} {loops : List CountedLoop} {final : Context}

theorem counter_of_some {name : String} (h : loop.iterator? = some name) : loop.counter = name := by
  rw [counter, h, Option.getD_some]

/-- A temporary counter is new when the loop begins. -/
theorem counter_not_mem (h : loop.iterator? = none) (hproper : loop.context.Proper) :
    loop.counter ∉ loop.flag :: loop.context.names := by
  have hissued := hproper.step (.issue loop.context "ran")
  rw [counter, h]
  exact hissued.nextName_not_mem "i"

/-- The counter is the flag only if that name is set. -/
theorem counter_eq_flag_iff (hproper : loop.context.Proper) :
    loop.counter = loop.flag ↔ loop.iterator? = some loop.flag := by
  cases hset : loop.iterator? with
  | some name => rw [counter_of_some hset, Option.some.injEq]
  | none =>
      have hne : loop.counter ≠ loop.flag := fun hsame =>
        counter_not_mem hset hproper (hsame ▸ List.mem_cons_self)
      simp [hne]

/-- Two temporary counters differ. -/
theorem counter_ne_of_standsIn {later : CountedLoop} (hset : loop.iterator? = none)
    (hlater : later.iterator? = none) (hstands : loop.StandsIn later.context)
    (hproper : later.context.Proper) : loop.counter ≠ later.counter := by
  intro hsame
  have hmem : loop.counter ∈ later.context.names := by
    refine hstands.names.subset ?_
    simp [names, hset]
  exact counter_not_mem hlater hproper (hsame ▸ List.mem_cons_of_mem _ hmem)

/-- The flag is in scope before the header. -/
theorem flag_inScope (h : loop.StandsIn final) : InScope final.written loop.site loop.flag := by
  obtain ⟨more, hwritten⟩ := h.written
  have hdeclared : final.written.take loop.site.line =
      loop.context.written ++ loop.lines.take 1 := by
    rw [← hwritten, List.append_assoc, site, List.take_length_add_append]
    rfl
  refine ⟨_, _, [], loop.context.indent, hdeclared, .inl ⟨⟨"let ", by simp, ?_⟩, rfl⟩,
    Nat.le_refl _, by simp⟩
  simp [toString]

/-- A counter has a name of its own exactly if the names that are set are not taken. -/
theorem apart_iff_clear (hnames : final.names.Nodup)
    (hgenerated : ∀ other ∈ loops, other.id ≠ loop.id → loop.iterator? = none →
      other.iterator? = none → other.counter ≠ loop.counter) (site : Site) :
    loop.Apart loops final site ↔ loop.Clear loops final site := by
  constructor
  · intro h
    refine ⟨fun name hname hscope hset => ?_,
      fun other hother hne hopen => ⟨fun hset => ?_, fun hset => ?_⟩⟩
    · refine h.names name ?_ hscope (counter_of_some hset).symm
      rw [otherNames, hset]
      exact hname
    · exact h.loops other hother hne hopen (counter_of_some hset).symm
    · exact h.loops other hother hne hopen (counter_of_some hset)
  · intro h
    refine ⟨fun name hname hscope hsame => ?_, fun other hother hne hopen hsame => ?_⟩
    · unfold otherNames at hname
      cases hset : loop.iterator? with
      | some set =>
          rw [hset] at hname
          exact h.names name hname hscope (by rw [hset, ← counter_of_some hset, hsame])
      | none =>
          rw [hset] at hname
          subst hsame
          exact hnames.not_mem_erase hname
    · obtain ⟨hset, hother'⟩ := h.loops other hother hne hopen
      -- Two temporary counters differ, so one of the two names was set.
      cases hloop : loop.iterator? with
      | some name => exact hset (by rw [hloop, hsame, counter_of_some hloop])
      | none =>
          cases hotherSet : other.iterator? with
          | some name => exact hother' (by rw [hotherSet, ← hsame, counter_of_some hotherSet])
          | none => exact hgenerated other hother hne hloop hotherSet hsame

/-- If no name that is set ends in a number and no two loops have the same, a counter has a name of
its own everywhere. -/
theorem clear_of_unnumbered (hnumbered : NumberedNames final.names) (hloop : loop ∈ loops)
    (hset : ∀ loop ∈ loops, ∀ name, loop.iterator? = some name → Text.isNumbered name = false ∧
      ∀ other ∈ loops, other.iterator? = some name → other.id = loop.id) (site : Site) :
    loop.Clear loops final site := by
  have htemporary {loop other : CountedLoop} (hloop : loop ∈ loops) (hother : other ∈ loops)
      (hne : other.id ≠ loop.id) : loop.iterator? ≠ some other.counter := by
    intro hsame
    obtain ⟨hunnumbered, honly⟩ := hset loop hloop _ hsame
    cases hotherSet : other.iterator? with
    | some name => exact hne (honly other hother (by rw [hotherSet, counter_of_some hotherSet]))
    | none =>
        have hcounter : other.counter = "i" ++ "_" ++ Nat.repr (other.context.temps + 2) := by
          rw [counter, hotherSet]
          rfl
        rw [hcounter, Text.isNumbered_numbered] at hunnumbered
        cases hunnumbered
  refine ⟨fun name hname _ hsame => ?_, fun other hother hne _ =>
    ⟨htemporary hloop hother hne, htemporary hother hloop hne.symm⟩⟩
  obtain ⟨stem, number, rfl, -⟩ := hnumbered.exists_number hname
  have hunnumbered := (hset loop hloop _ hsame).1
  rw [Text.isNumbered_numbered] at hunnumbered
  cases hunnumbered

/-- An edge that reads the value of the loop before it is recorded anew finds the counter. -/
theorem found_eq_counter (hproper : final.Proper) {newer since : List Access}
    {consumer port : String} {found : Option String} {place : Site}
    (haccesses : final.accesses = newer ++
      .resolved consumer loop.node.id port found place ::
        (since ++ loop.record :: loop.context.accesses))
    (hsince : ∀ expr place, .recorded loop.node.id expr place ∉ since) :
    found = some loop.counter := by
  have htruthful := hproper.truthful
  rw [haccesses] at htruthful
  exact htruthful.of_append.1.trans (lookup_recordings hsince)

/-! ## How often a loop runs -/

/-- The values of variables. -/
abbrev Store := String → Int

variable (loop) in
/-- How often the body of the loop is run, in at most the given number of rounds. In a round the
counter is compared with the bound, the flag is set to true, which counts as one, the rest of the
body is run and the counter is increased. -/
def rounds (rest : Store → Store) : Nat → Store → Nat
  | 0, _ => 0
  | fuel + 1, store =>
    if store loop.counter < loop.settings.maxIterations then
      let done := rest (Function.update store loop.flag 1)
      rounds rest fuel (Function.update done loop.counter (done loop.counter + 1)) + 1
    else 0

section Rounds

variable {rest : Store → Store} (hrest : ∀ store, rest store loop.counter = store loop.counter)
include hrest

/-- If only the header changes the counter, it goes up in every round. -/
theorem rounds_le (hne : loop.counter ≠ loop.flag) (fuel : Nat) (store : Store) :
    loop.rounds rest fuel store ≤ (loop.settings.maxIterations - store loop.counter).toNat := by
  induction fuel generalizing store with
  | zero => exact Nat.zero_le _
  | succ fuel ih =>
      unfold rounds
      split
      · dsimp only
        rw [hrest, Function.update_of_ne hne]
        -- The distance to the bound is one less in the next round.
        have hround := ih (Function.update (rest (Function.update store loop.flag 1)) loop.counter
          (store loop.counter + 1))
        rw [Function.update_self] at hround
        omega
      · exact Nat.zero_le _

/-- If the flag is the counter, every round sets it to one, so that it never gets beyond two. -/
theorem rounds_eq (hsame : loop.counter = loop.flag) (hbound : 2 < loop.settings.maxIterations)
    (fuel : Nat) {store : Store} (hstore : store loop.counter < loop.settings.maxIterations) :
    loop.rounds rest fuel store = fuel := by
  induction fuel generalizing store with
  | zero => rfl
  | succ fuel ih =>
      have hround : rest (Function.update store loop.flag 1) loop.counter = 1 := by
        rw [hrest, hsame, Function.update_self]
      unfold rounds
      rw [if_pos hstore]
      dsimp only
      rw [hround, ih]
      rw [Function.update_self]
      omega

end Rounds

end CountedLoop

/-- Two loops of a function were begun one after the other. -/
theorem Walk.Counts.counter_ne {table : NodeTable} {loops : List CountedLoop}
    {start final : Walk.State} (h : Walk.Counts table loops start final)
    (hstart : start.context.Proper) {loop other : CountedLoop} (hloop : loop ∈ loops)
    (hother : other ∈ loops) (hne : other.id ≠ loop.id) (hset : loop.iterator? = none)
    (hotherSet : other.iterator? = none) : other.counter ≠ loop.counter := by
  have hproper : ∀ loop ∈ loops, loop.context.Proper := fun loop hloop =>
    hstart.evolves (h.since loop hloop)
  have hsymm : Std.Symm fun loop other : CountedLoop =>
      other.StandsIn loop.context ∨ loop.StandsIn other.context := ⟨fun _ _ => Or.symm⟩
  have hordered := (h.order.imp Or.inl : loops.Pairwise fun loop other : CountedLoop =>
    other.StandsIn loop.context ∨ loop.StandsIn other.context)
  -- One of the two stood when the other was begun.
  rcases hordered.forall hloop hother (fun hsame => hne (by rw [hsame])) with hstands | hstands
  · exact CountedLoop.counter_ne_of_standsIn hotherSet hset hstands (hproper loop hloop)
  · exact (CountedLoop.counter_ne_of_standsIn hset hotherSet hstands (hproper other hother)).symm

/-- Every function of a program has the counted loops that its walk came to, each with its lines,
its temporary names and the record of its counter. At any point of the function, a counter has a
name of its own exactly if the names that are set are not taken there; so it does everywhere if
these names do not end in numbers and differ. The counter is the flag of the loop only if that name
is set. If it is not, the loop runs no more often than its bound says, and else it never ends. An
edge that reads the value of the loop finds the name of its counter. -/
theorem counters_apart_iff (program : Program) (registry : Registry) :
    ∀ final ∈ functionStates program registry, ∃ loops : List CountedLoop,
      loops.map (·.id) = Walk.countedIds program.nodes final.trace ∧
      (loops.Pairwise fun later earlier => earlier.StandsIn later.context) ∧
      final.context.names.Nodup ∧
      (∀ loop ∈ loops,
        Walk.countedLoop? program.nodes loop.id = some (loop.node, loop.settings) ∧
        loop.StandsIn final.context ∧
        InScope final.context.written loop.site loop.flag ∧
        (∀ site, loop.Apart loops final.context site ↔ loop.Clear loops final.context site) ∧
        (loop.counter = loop.flag ↔ loop.iterator? = some loop.flag) ∧
        (∀ rest : CountedLoop.Store → CountedLoop.Store,
          (∀ store, rest store loop.counter = store loop.counter) → ∀ fuel store,
            let rounds := loop.rounds rest fuel (Function.update store loop.counter 0)
            (loop.counter ≠ loop.flag → rounds ≤ loop.settings.maxIterations) ∧
              (loop.counter = loop.flag → 2 < loop.settings.maxIterations → rounds = fuel)) ∧
        (∀ newer since consumer port found place, final.context.accesses = newer ++
            .resolved consumer loop.node.id port found place ::
              (since ++ loop.record :: loop.context.accesses) →
          (∀ expr place, .recorded loop.node.id expr place ∉ since) →
            found = some loop.counter)) ∧
      ((∀ id ∈ loops.map (·.id), ∀ name ∈ Walk.setIterator? program.nodes id,
          Text.isNumbered name = false ∧
            ∀ other ∈ loops.map (·.id), name ∈ Walk.setIterator? program.nodes other → other = id) →
        ∀ loop ∈ loops, ∀ site, loop.Apart loops final.context site) := by
  intro final hfinal
  obtain ⟨start, loops, htrace, hstart, hcounts⟩ :=
    functionStates_counted program registry final hfinal
  have hproper := hstart.evolves hcounts.evolves
  have hbegun (loop : CountedLoop) (hloop : loop ∈ loops) : loop.context.Proper :=
    hstart.evolves (hcounts.since loop hloop)
  have hclear (loop : CountedLoop) (hloop : loop ∈ loops) (site : Site) :
      loop.Apart loops final.context site ↔ loop.Clear loops final.context site :=
    CountedLoop.apart_iff_clear hproper.numbered.nodup (fun other hother hne hset hotherSet =>
      hcounts.counter_ne hstart hloop hother hne hset hotherSet) site
  have hiterator (loop : CountedLoop) (hloop : loop ∈ loops) :
      Walk.setIterator? program.nodes loop.id = loop.iterator? := by
    rw [Walk.setIterator?, hcounts.found loop hloop]
    rfl
  refine ⟨loops, ?_, hcounts.order, hproper.numbered.nodup, fun loop hloop =>
    ⟨hcounts.found loop hloop, hcounts.stand loop hloop,
      CountedLoop.flag_inScope (hcounts.stand loop hloop), hclear loop hloop,
      CountedLoop.counter_eq_flag_iff (hbegun loop hloop), ?_, ?_⟩, ?_⟩
  · rw [hcounts.ids, htrace]
    exact (List.append_nil _).symm
  · intro rest hrest fuel store
    refine ⟨fun hne => ?_, fun hsame hbound => ?_⟩
    · have hle := CountedLoop.rounds_le hrest hne fuel (Function.update store loop.counter 0)
      rw [Function.update_self] at hle
      exact Nat.le_trans hle (by omega)
    · refine CountedLoop.rounds_eq hrest hsame hbound fuel ?_
      rw [Function.update_self]
      omega
  · intro newer since consumer port found place haccesses hsince
    exact CountedLoop.found_eq_counter hproper haccesses hsince
  · intro hset loop hloop site
    refine (hclear loop hloop site).2 (CountedLoop.clear_of_unnumbered hproper.numbered hloop
      (fun loop hloop name hname => ?_) site)
    obtain ⟨hunnumbered, honly⟩ := hset loop.id (List.mem_map_of_mem hloop) name
      ((hiterator loop hloop).trans hname)
    refine ⟨hunnumbered, fun other hother hotherName => ?_⟩
    exact honly other.id (List.mem_map_of_mem hother) ((hiterator other hother).trans hotherName)

/-- A loop in the body of another one, in which the counter of the outer loop is stored. -/
def nestedLoops (outer inner : String) : Program where
  fileId := "nested"
  entry := "start"
  nodes := .ofList [
    ("start", { id := "start", kind := .start, outputs := ["outer"] }),
    ("outer",
      { id := "outer", kind := .loop { max := some 3, iterator := some outer }
        slots := .ofList [("body", ["inner"])] }),
    ("inner",
      { id := "inner", kind := .loop { max := some 3, iterator := some inner }
        slots := .ofList [("body", ["store"])] }),
    ("store",
      { id := "store", kind := .memoryWrite { path := "n" }
        inputs := .ofList [("value", .edge "outer" "value")] })]

/-- With different names that do not end in numbers, both counters have names of their own. -/
theorem nestedLoops_apart : ∃ final ∈ functionStates (nestedLoops "i" "j") .empty,
    ∃ loops : List CountedLoop, loops.map (·.id) = ["inner", "outer"] ∧
      ∀ loop ∈ loops, ∀ site, loop.Apart loops final.context site := by
  refine ⟨_, List.mem_cons_self, ?_⟩
  obtain ⟨loops, hids, -, -, -, hapart⟩ :=
    counters_apart_iff (nestedLoops "i" "j") .empty _ List.mem_cons_self
  have hwritten : Walk.countedIds (nestedLoops "i" "j").nodes
      (Walk.after (Walk.walk ⟨(nestedLoops "i" "j").nodes, .empty⟩ "start") {}).trace =
        ["inner", "outer"] := by decide +kernel
  have hids := hids.trans hwritten
  refine ⟨loops, hids, hapart ?_⟩
  rw [hids]
  decide +kernel

/-- A loop whose counter is its own flag, and a loop that stores its own counter in the place of
that of the loop around it. -/
theorem nestedLoops_captured :
    (functions (nestedLoops "ran_1" "j") .empty).1.body.take 3 =
      [⟨0, "let ran_1 = false;"⟩, ⟨0, "for (let ran_1 = 0; ran_1 < 3; ran_1++) \x7b"⟩,
        ⟨2, "ran_1 = true;"⟩] ∧
    (functions (nestedLoops "i" "i") .empty).1.body.drop 1 =
      [⟨0, "for (let i = 0; i < 3; i++) \x7b"⟩, ⟨2, "ran_1 = true;"⟩, ⟨2, "let ran_2 = false;"⟩,
        ⟨2, "for (let i = 0; i < 3; i++) \x7b"⟩, ⟨4, "ran_2 = true;"⟩,
        ⟨4, "Memory[\"n\"] = i;"⟩, ⟨2, "\x7d"⟩, ⟨0, "\x7d"⟩] := by
  decide +kernel

end TickScript.Emission
