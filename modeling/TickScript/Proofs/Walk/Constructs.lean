import TickScript.Proofs.Walk.Tour

/-!
# Join points come after their construct

While the statements of a control node are written, its outputs and what several of its slots lead to
wait. The journal of a walk shows that they do: `openConstructs` reads off a journal which nodes are
being written, and `pending` what waits for their ends. `Passage` keeps both in step with the state
over any part of a walk. `Completed` says what the journal has to show of one node, and
`joins_follow_construct` that it does so for every node that is written, whatever emitters there are.
-/

namespace TickScript.Emission.Walk

/-! ## Open constructs -/

/-- The events of some marks. -/
def events (journal : List Mark) : List Event := journal.map (·.event)

/-- The nodes whose statements have begun and not ended, the innermost first, each with what its slots
share. -/
def openConstructs : List Event → List (String × List String)
  | [] => []
  | .began id shared :: trace => (id, shared) :: openConstructs trace
  | .ended _ _ :: trace => (openConstructs trace).tail
  | _ :: trace => openConstructs trace

/-- What waits for the end of the node under an id. -/
def awaited (table : NodeTable) (id : String) (shared : List String) : List String :=
  match table.get? id with
  | some node => if node.hasBranches then node.outputs ++ shared else []
  | none => []

/-- What waits for the ends of the open constructs, for the outermost first. -/
def pending (table : NodeTable) (trace : List Event) : List String :=
  (openConstructs trace).reverse.flatMap fun (id, shared) => awaited table id shared

/-- Nothing ends that has not begun. -/
def Nested : List Event → Prop
  | [] => True
  | .ended _ _ :: trace => openConstructs trace ≠ [] ∧ Nested trace
  | _ :: trace => Nested trace

@[simp] theorem events_nil : events [] = [] := rfl

@[simp] theorem events_cons (mark : Mark) (journal : List Mark) :
    events (mark :: journal) = mark.event :: events journal := rfl

@[simp] theorem events_append (later earlier : List Mark) :
    events (later ++ earlier) = events later ++ events earlier := List.map_append

@[simp] theorem entered_append (later earlier : List Event) :
    entered (later ++ earlier) = entered later ++ entered earlier := List.filterMap_append

@[simp] theorem dispatched_append (later earlier : List Event) :
    dispatched (later ++ earlier) = dispatched later ++ dispatched earlier := List.filterMap_append

section Cons

variable (id : String) (shared : List String) (continuation : Continuation) (trace : List Event)

@[simp] theorem entered_began : entered (.began id shared :: trace) = entered trace := rfl

@[simp] theorem entered_ended : entered (.ended id continuation :: trace) = entered trace := rfl

@[simp] theorem entered_left : entered (.left id :: trace) = entered trace := rfl

@[simp] theorem dispatched_began : dispatched (.began id shared :: trace) = id :: dispatched trace :=
  rfl

@[simp] theorem dispatched_ended :
    dispatched (.ended id continuation :: trace) = dispatched trace := rfl

end Cons

section Nested

variable {later earlier : List Event}

/-- What is open after more events are the constructs that those open and the ones from before. -/
theorem openConstructs_append (h : Nested later) (earlier : List Event) :
    openConstructs (later ++ earlier) = openConstructs later ++ openConstructs earlier := by
  induction later with
  | nil => rfl
  | cons event later ih =>
      cases event with
      | ended id continuation =>
          simp only [List.cons_append, openConstructs, ih h.2]
          exact List.tail_append_of_ne_nil h.1
      | _ => simp only [List.cons_append, openConstructs, ih h]

theorem pending_append (table : NodeTable) (h : Nested later) (earlier : List Event) :
    pending table (later ++ earlier) = pending table earlier ++ pending table later := by
  simp [pending, openConstructs_append h]

theorem Nested.append (hlater : Nested later) (hearlier : Nested earlier) :
    Nested (later ++ earlier) := by
  induction later with
  | nil => exact hearlier
  | cons event later ih =>
      cases event with
      | ended id continuation =>
          have hopen : openConstructs (later ++ earlier) ≠ [] := by
            rw [openConstructs_append hlater.2]
            exact List.append_ne_nil_of_left_ne_nil hlater.1 _
          exact ⟨hopen, ih hlater.2⟩
      | _ => exact ih hlater

/-- What happened first is nested. -/
theorem Nested.of_append (h : Nested (later ++ earlier)) : Nested earlier := by
  induction later with
  | nil => exact h
  | cons event later ih =>
      cases event with
      | ended id continuation => exact ih h.2
      | _ => exact ih h

end Nested

/-- Whatever begins ends, and nothing else does. -/
structure Balanced (trace : List Event) : Prop where
  nested : Nested trace
  closed : openConstructs trace = []

theorem Balanced.append {later earlier : List Event} (hlater : Balanced later)
    (hearlier : Balanced earlier) : Balanced (later ++ earlier) where
  nested := hlater.nested.append hearlier.nested
  closed := by rw [openConstructs_append hlater.nested, hlater.closed, hearlier.closed]; rfl

/-- Events that are balanced leave pending what was. -/
theorem Balanced.pending_append {later : List Event} (h : Balanced later) (table : NodeTable)
    (earlier : List Event) : pending table (later ++ earlier) = pending table earlier := by
  rw [pending, openConstructs_append h.nested, h.closed]
  rfl

/-- What happens between the beginning and the end of a node is balanced, and so is all of it. -/
theorem Balanced.construct {inside : List Event} (h : Balanced inside) (id : String)
    (shared : List String) (continuation : Continuation) :
    Balanced (.ended id continuation :: (inside ++ [.began id shared])) := by
  have hopen : openConstructs (inside ++ [.began id shared]) = [(id, shared)] := by
    rw [openConstructs_append h.nested, h.closed]
    rfl
  exact ⟨⟨by simp [hopen], h.nested.append trivial⟩, by simp [openConstructs, hopen]⟩

/-! ## Parts of a walk -/

/-- A part of a walk that made some marks. What it visited and what waits at its end are read off the
marks. It writes nothing that waited at its beginning. -/
structure Passage (table : NodeTable) (marks : List Mark) (state final : State) : Prop where
  journal : final.journal = marks ++ state.journal
  visited : final.visited = entered (events marks) ++ state.visited
  joins : final.joins = state.joins ++ pending table (events marks)
  nested : Nested (events marks)
  patient : ∀ id ∈ dispatched (events marks), id ∉ state.joins
  written : state.context.written <+: final.context.written
  first : ∀ mark ∈ marks, state.context.written.length ≤ mark.written
  last : ∀ mark ∈ marks, mark.written ≤ final.context.written.length
  sorted : marks.Pairwise fun later earlier => earlier.written ≤ later.written

namespace Passage

variable {setting : Setting} {table : NodeTable} {later earlier : List Mark}
  {state middle final : State}

/-- Lines are added. -/
theorem context (state : State) (context : Context)
    (h : state.context.written <+: context.written) :
    Passage table [] state { state with context } where
  journal := rfl
  visited := rfl
  joins := (List.append_nil _).symm
  nested := trivial
  patient := by simp [dispatched]
  written := h
  first := by simp
  last := by simp
  sorted := .nil

/-- An id is postponed or left. -/
theorem note {event : Event} {id : String} (h : event = .postponed id ∨ event = .left id)
    (state : State) :
    Passage table [⟨event, state.context.written.length⟩] state (state.note event) := by
  obtain rfl | rfl := h
  all_goals
    exact ⟨rfl, rfl, (List.append_nil _).symm, trivial, by simp [dispatched], List.prefix_rfl,
      by simp, by simp [State.note], List.pairwise_singleton _ _⟩

/-- An id is visited. -/
theorem enter (state : State) (id : String) :
    Passage table [⟨.entered id, state.context.written.length⟩] state (state.enter id) where
  journal := rfl
  visited := rfl
  joins := (List.append_nil _).symm
  nested := trivial
  patient := by simp [dispatched]
  written := List.prefix_rfl
  first := by simp
  last := by simp [State.enter, State.note]
  sorted := List.pairwise_singleton _ _

/-- The statements of a node begin. -/
theorem opened {id : String} {node : Node} {state : State}
    (hnode : setting.table.get? id = some node) (hid : id ∉ state.joins) :
    Passage setting.table
      [⟨.began id (sharedAfter setting state.visited node), state.context.written.length⟩] state
      (state.opened setting id node) where
  journal := rfl
  visited := rfl
  joins := by simp [State.opened, State.suspend, pending, openConstructs, awaited, hnode]
  nested := trivial
  patient := by simpa [dispatched] using hid
  written := List.prefix_rfl
  first := by simp
  last := by simp [State.opened, State.suspend, State.note]
  sorted := List.pairwise_singleton _ _

/-- Parts of a walk can be joined. -/
theorem trans (hfirst : Passage table earlier state middle)
    (hlater : Passage table later middle final) :
    Passage table (later ++ earlier) state final where
  journal := by rw [hlater.journal, hfirst.journal, List.append_assoc]
  visited := by rw [hlater.visited, hfirst.visited]; simp
  joins := by
    rw [hlater.joins, hfirst.joins, events_append, pending_append _ hlater.nested]
    simp
  nested := by
    rw [events_append]
    exact hlater.nested.append hfirst.nested
  patient := by
    rw [events_append, dispatched_append]
    refine List.forall_mem_append.2 ⟨fun id hid hjoin => ?_, hfirst.patient⟩
    refine hlater.patient id hid ?_
    rw [hfirst.joins]
    exact List.mem_append_left _ hjoin
  written := hfirst.written.trans hlater.written
  first := List.forall_mem_append.2
    ⟨fun mark hmark => Nat.le_trans hfirst.written.length_le (hlater.first mark hmark), hfirst.first⟩
  last := List.forall_mem_append.2
    ⟨hlater.last, fun mark hmark => Nat.le_trans (hfirst.last mark hmark) hlater.written.length_le⟩
  sorted := List.pairwise_append.2 ⟨hlater.sorted, hfirst.sorted,
    fun mark hmark mark' hmark' => Nat.le_trans (hfirst.last mark' hmark') (hlater.first mark hmark)⟩

/-- The statements of a node end that began in a part of a walk, and no other ones began in it. -/
theorem close {id : String} {shared : List String} {closed : State}
    (h : Passage table earlier state closed) (continuation : Continuation)
    (hopen : openConstructs (events earlier) = [(id, shared)]) :
    Passage table (⟨.ended id continuation, closed.context.written.length⟩ :: earlier) state
      (closed.resume id continuation state.joins) where
  journal := congrArg (List.cons _) h.journal
  visited := h.visited
  joins := by simp [State.resume, pending, openConstructs, hopen]
  nested := ⟨hopen ▸ List.cons_ne_nil _ _, h.nested⟩
  patient := h.patient
  written := h.written
  first := List.forall_mem_cons.2 ⟨h.written.length_le, h.first⟩
  last := List.forall_mem_cons.2 ⟨Nat.le_refl _, h.last⟩
  sorted := List.pairwise_cons.2 ⟨h.last, h.sorted⟩

/-- A balanced part of a walk leaves waiting what did. -/
theorem joins_eq (h : Passage table later state final) (hbalanced : Balanced (events later)) :
    final.joins = state.joins := by
  rw [h.joins, pending, hbalanced.closed]
  exact List.append_nil _

end Passage

/-! ## What is attempted -/

/-- `Attempts joins visited ids trace` says that a walk came to the ids in their order, with the given
ids visited before and the given ones waiting: those that had been visited by then were passed over,
those that waited were postponed, and the others were entered and left, one after the other. -/
inductive Attempts (joins : List String) : List String → List String → List Event → Prop where
  | nil (visited : List String) : Attempts joins visited [] []
  | visited {visited ids : List String} {trace : List Event} {id : String} : id ∈ visited →
      Attempts joins visited ids trace → Attempts joins visited (id :: ids) trace
  | postponed {visited ids : List String} {trace : List Event} {id : String} :
      id ∉ visited → id ∈ joins → Attempts joins visited ids trace →
        Attempts joins visited (id :: ids) (trace ++ [.postponed id])
  | entered {visited ids : List String} {inner trace : List Event} {id : String} :
      id ∉ visited → id ∉ joins →
        Attempts joins (Walk.entered (.left id :: (inner ++ [.entered id])) ++ visited) ids trace →
          Attempts joins visited (id :: ids) (trace ++ .left id :: (inner ++ [.entered id]))

/-- What was attempted has been visited or still waits. -/
theorem Attempts.settled {joins visited ids : List String} {trace : List Event}
    (h : Attempts joins visited ids trace) :
    ∀ id ∈ ids, id ∈ Walk.entered trace ++ visited ∨ id ∈ joins := by
  induction h with
  | nil => simp
  | visited hid _ ih =>
      exact List.forall_mem_cons.2 ⟨.inl (List.mem_append_right _ hid), ih⟩
  | postponed hid hjoin _ ih =>
      refine List.forall_mem_cons.2 ⟨.inr hjoin, fun next hnext => ?_⟩
      simpa [Walk.entered] using ih next hnext
  | entered hid hjoin _ ih =>
      refine List.forall_mem_cons.2 ⟨.inl (by simp [Walk.entered]), fun next hnext => ?_⟩
      have := ih next hnext
      rwa [← List.append_assoc, ← Walk.entered_append] at this

/-! ## Nodes that are written -/

/-- What the later marks show of a node whose statements begin, with the given ids visited and the
given ones waiting: its statements end, during which nothing is written that is to come after them,
and what follows it is attempted before it is left. -/
def Completed (setting : Setting) (visited joins : List String) (id : String) (shared : List String)
    (later : List Mark) : Prop :=
  ∃ node continuation inside rest outside stop leave,
    setting.table.get? id = some node ∧ shared = sharedAfter setting visited node ∧
    setting.Continues node continuation ∧
    later = outside ++ ⟨.left id, leave⟩ :: (rest ++ ⟨.ended id continuation, stop⟩ :: inside) ∧
    Balanced (events inside) ∧ Balanced (events rest) ∧
    (node.hasBranches = true ∨ setting.isPlain node = true →
      ∀ next ∈ node.outputs ++ shared, next ∉ dispatched (events inside)) ∧
    Attempts joins (entered (events inside) ++ visited) (continuation.followers node shared)
      (events rest)

theorem Completed.mono {setting : Setting} {visited joins shared : List String} {id : String}
    {later : List Mark} (h : Completed setting visited joins id shared later) (more : List Mark) :
    Completed setting visited joins id shared (more ++ later) := by
  obtain ⟨node, continuation, inside, rest, outside, stop, leave, hnode, hshared, hcontinues, rfl,
    h⟩ := h
  exact ⟨node, continuation, inside, rest, more ++ outside, stop, leave, hnode, hshared, hcontinues,
    by simp, h⟩

/-- Each node whose statements begin in a part of a walk is completed, by that part or by what comes
after it. -/
def Accounts (setting : Setting) (state : State) (marks after : List Mark) : Prop :=
  ∀ later before id shared start, marks = later ++ ⟨.began id shared, start⟩ :: before →
    Completed setting (entered (events before) ++ state.visited)
      (state.joins ++ pending setting.table (events before)) id shared (after ++ later)

namespace Accounts

variable {setting : Setting} {state middle : State} {later earlier after : List Mark}

theorem nil : Accounts setting state [] after := by
  intro later before id shared start h
  simp at h

theorem mono (h : Accounts setting state earlier after) (more : List Mark) :
    Accounts setting state earlier (more ++ after) := by
  intro later before id shared start hsplit
  rw [List.append_assoc]
  exact (h later before id shared start hsplit).mono more

/-- A mark that no statements begin with needs no account. -/
theorem cons {mark : Mark} (hmark : ∀ id shared, mark.event ≠ .began id shared)
    (h : Accounts setting state earlier (after ++ [mark])) :
    Accounts setting state (mark :: earlier) after := by
  intro later before id shared start hsplit
  rcases List.cons_eq_append_iff.1 hsplit with ⟨-, hhead⟩ | ⟨later, rfl, hrest⟩
  · exact absurd (congrArg Mark.event (List.cons.inj hhead).1).symm (hmark id shared)
  · simpa using h later before id shared start hrest

/-- The accounts of two parts of a walk make one. -/
theorem append (hpassage : Passage setting.table earlier state middle)
    (hnested : Nested (events later))
    (hearlier : Accounts setting state earlier (after ++ later))
    (hlater : Accounts setting middle later after) :
    Accounts setting state (later ++ earlier) after := by
  intro front before id shared start hsplit
  rcases List.append_eq_append_iff.1 hsplit with ⟨part, rfl, hpart⟩ | ⟨part, hpart, hbefore⟩
  · simpa using hearlier part before id shared start hpart
  · rcases List.cons_eq_append_iff.1 hbefore with ⟨rfl, hhead⟩ | ⟨part, rfl, rfl⟩
    · simpa [hpart] using hearlier [] before id shared start hhead
    · have h := hlater front part id shared start hpart
      rw [hpart, events_append] at hnested
      have hpartNested : Nested (events part) := hnested.of_append
      rw [hpassage.visited, hpassage.joins] at h
      simpa [pending_append _ hpartNested] using h

end Accounts

/-- A part of a walk in which every node that is written is completed. -/
structure Stretch (setting : Setting) (marks : List Mark) (state final : State) : Prop where
  passage : Passage setting.table marks state final
  balanced : Balanced (events marks)
  accounts : Accounts setting state marks []

namespace Stretch

variable {setting : Setting} {later earlier : List Mark} {state middle final : State}

theorem trans (hfirst : Stretch setting earlier state middle)
    (hlater : Stretch setting later middle final) :
    Stretch setting (later ++ earlier) state final where
  passage := hfirst.passage.trans hlater.passage
  balanced := by
    rw [events_append]
    exact hlater.balanced.append hfirst.balanced
  accounts := by
    refine .append hfirst.passage hlater.balanced.nested ?_ hlater.accounts
    simpa using hfirst.accounts.mono later

/-- Lines are added. -/
theorem context {context : Context} (h : state.context.written <+: context.written) :
    Stretch setting [] state { state with context } :=
  ⟨.context state context h, ⟨trivial, rfl⟩, .nil⟩

/-- An id is postponed or left. -/
theorem note {event : Event} {id : String} (h : event = .postponed id ∨ event = .left id)
    (state : State) :
    Stretch setting [⟨event, state.context.written.length⟩] state (state.note event) := by
  refine ⟨.note h state, ?_, .cons ?_ .nil⟩
  · obtain rfl | rfl := h <;> exact ⟨trivial, rfl⟩
  · obtain rfl | rfl := h <;> simp

theorem enter (state : State) (id : String) :
    Stretch setting [⟨.entered id, state.context.written.length⟩] state (state.enter id) :=
  ⟨.enter state id, ⟨trivial, rfl⟩, .cons (by simp) .nil⟩

/-- The statements of a node and what follows it make a stretch, if they are stretches and the node
is completed by them. -/
theorem node {id : String} {node : Node} {continuation : Continuation} {inside rest : List Mark}
    {closed written : State} (hnode : setting.table.get? id = some node) (hid : id ∉ state.joins)
    (hinside : Stretch setting inside (state.opened setting id node) closed)
    (hrest : Stretch setting rest (closed.resume id continuation state.joins) written)
    (hcompleted : Completed setting state.visited state.joins id
      (sharedAfter setting state.visited node)
      (⟨.left id, written.context.written.length⟩ ::
        (rest ++ ⟨.ended id continuation, closed.context.written.length⟩ :: inside))) :
    Stretch setting
      (⟨.left id, written.context.written.length⟩ ::
        (rest ++ ⟨.ended id continuation, closed.context.written.length⟩ :: (inside ++
          [⟨.began id (sharedAfter setting state.visited node), state.context.written.length⟩])))
      state (written.note (.left id)) := by
  have hopened := Passage.opened hnode hid
  have hopen : openConstructs (events (inside ++
      [⟨.began id (sharedAfter setting state.visited node), state.context.written.length⟩])) =
        [(id, sharedAfter setting state.visited node)] := by
    rw [events_append, openConstructs_append hinside.balanced.nested, hinside.balanced.closed]
    rfl
  have hclosed := (hopened.trans hinside.passage).close continuation hopen
  refine ⟨(hclosed.trans hrest.passage).trans (.note (.inr rfl) written), ?_, ?_⟩
  · have h := hrest.balanced.append (hinside.balanced.construct id
      (sharedAfter setting state.visited node) continuation)
    exact ⟨by simpa [Nested] using h.nested, by simpa [openConstructs] using h.closed⟩
  · -- Each part needs the account of those before it; the node itself is completed by all of them.
    have hbegan : Accounts setting state
        [⟨.began id (sharedAfter setting state.visited node), state.context.written.length⟩]
        (⟨.left id, written.context.written.length⟩ ::
          (rest ++ ⟨.ended id continuation, closed.context.written.length⟩ :: inside)) := by
      intro later before id' shared' start hsplit
      obtain ⟨rfl, hhead⟩ | ⟨later, rfl, hnone⟩ := List.cons_eq_append_iff.1 hsplit
      · obtain ⟨hmark, rfl⟩ := List.cons.inj hhead
        cases hmark
        simpa [pending, openConstructs, entered] using hcompleted
      · simp at hnone
    have hbody := Accounts.append hopened hinside.balanced.nested
      (by simpa using hbegan) (hinside.accounts.mono
        (⟨.left id, written.context.written.length⟩ ::
          (rest ++ [⟨.ended id continuation, closed.context.written.length⟩])))
    refine .cons (by simp) (.append hclosed hrest.balanced.nested (.cons (by simp) ?_)
      (by simpa using hrest.accounts.mono [⟨.left id, written.context.written.length⟩]))
    simpa using hbody

end Stretch

/-! ## Walks -/

variable {setting : Setting}

/-- A node without branches has no heads. -/
theorem children_eq_nil {node : Node} (h : node.hasBranches = false) : node.children = [] := by
  simp only [Node.hasBranches, Node.branches, Bool.not_eq_false', List.isEmpty_iff,
    List.filter_eq_nil_iff, Bool.not_eq_true] at h
  exact List.flatten_eq_nil_iff.2 fun heads hheads => by simpa using h heads hheads

theorem sharedAfter_eq_sharedContinuations (setting : Setting) (visited : List String) (node : Node) :
    sharedAfter setting visited node = sharedContinuations setting.table visited node := by
  unfold sharedAfter
  split
  · rfl
  · next h =>
    have hbranches : node.branches = [] := by simpa [Node.hasBranches] using h
    simp [sharedContinuations, hbranches, firstOccurrences]

/-- While the statements of a node are written, nothing is written that waits for their end. Built-in
statements of a node without branches write no other node. -/
theorem inside_patient {id : String} {node : Node} {heads : List String} {inside : List Mark}
    {state closed : State}
    (hheads : setting.isPlain node = true → ∀ head ∈ heads, head ∈ node.children)
    (hpassage : Passage setting.table inside (state.opened setting id node) closed)
    (hattempts : Attempts (state.opened setting id node).joins state.visited heads (events inside))
    (hcontrol : node.hasBranches = true ∨ setting.isPlain node = true) :
    ∀ next ∈ node.outputs ++ sharedAfter setting state.visited node,
      next ∉ dispatched (events inside) := by
  intro next hnext hinside
  cases hbranches : node.hasBranches with
  | true =>
      refine hpassage.patient next hinside (List.mem_append_right _ ?_)
      simpa [hbranches] using hnext
  | false =>
      have hplain := hcontrol.resolve_left (by simp [hbranches])
      obtain rfl : heads = [] := List.eq_nil_iff_forall_not_mem.2 fun head hhead => by
        simpa [children_eq_nil hbranches] using hheads hplain head hhead
      cases hevents : events inside with
      | nil => simp [hevents, dispatched] at hinside
      | cons => rw [hevents] at hattempts; cases hattempts

/-- A tour is a stretch of a walk that attempts its ids. -/
theorem Tour.stretch {ids : List String} {state final : State} (h : Tour setting ids state final) :
    ∃ marks, Stretch setting marks state final ∧
      Attempts state.joins state.visited ids (events marks) := by
  induction h with
  | done state => exact ⟨[], .context List.prefix_rfl, .nil _⟩
  | context context hwritten _ ih =>
      obtain ⟨marks, hstretch, hattempts⟩ := ih
      have h := (Stretch.context hwritten).trans hstretch
      rw [List.append_nil] at h
      exact ⟨marks, h, hattempts⟩
  | visited hid _ ih =>
      obtain ⟨marks, hstretch, hattempts⟩ := ih
      exact ⟨marks, hstretch, .visited hid hattempts⟩
  | postponed hid hjoin _ ih =>
      obtain ⟨marks, hstretch, hattempts⟩ := ih
      refine ⟨_, (Stretch.note (.inl rfl) _).trans hstretch, ?_⟩
      rw [events_append]
      exact .postponed hid hjoin hattempts
  | @missing id _ state _ hid hjoin _ _ ih =>
      obtain ⟨marks, hstretch, hattempts⟩ := ih
      refine ⟨_, ((Stretch.enter state id).trans (.note (.inr rfl) _)).trans hstretch, ?_⟩
      rw [events_append]
      exact @Attempts.entered _ _ _ [] _ id hid hjoin hattempts
  | @node id ids heads node continuation state closed written final hid hjoin hnode hcontinues hheads
      _ _ _ ihbody ihrest ih =>
      obtain ⟨inside, hinside, hheadsAttempts⟩ := ihbody
      obtain ⟨rest, hrest, hrestAttempts⟩ := ihrest
      obtain ⟨marks, hstretch, hattempts⟩ := ih
      have hentered : id ∉ (state.enter id).joins := hjoin
      have hcompleted : Completed setting (state.enter id).visited (state.enter id).joins id
          (sharedAfter setting (state.enter id).visited node)
          (⟨.left id, written.context.written.length⟩ ::
            (rest ++ ⟨.ended id continuation, closed.context.written.length⟩ :: inside)) := by
        refine ⟨node, continuation, inside, rest, [], _, _, hnode, rfl, hcontinues, rfl,
          hinside.balanced, hrest.balanced, inside_patient hheads hinside.passage hheadsAttempts, ?_⟩
        have hvisited : (closed.resume id continuation state.joins).visited =
            entered (events inside) ++ (state.enter id).visited := hinside.passage.visited
        rw [hvisited] at hrestAttempts
        exact hrestAttempts
      obtain ⟨part, hpart, inner, hinner⟩ : ∃ part, Stretch setting part state
          (written.note (.left id)) ∧ ∃ inner, events part = .left id :: (inner ++ [.entered id]) :=
        ⟨_, (Stretch.enter state id).trans (.node hnode hentered hinside hrest hcompleted),
          events rest ++ .ended id continuation :: (events inside ++
            [.began id (sharedAfter setting (state.enter id).visited node)]), by simp⟩
      refine ⟨_, hpart.trans hstretch, ?_⟩
      rw [hpart.passage.visited, hpart.passage.joins_eq hpart.balanced, hinner] at hattempts
      rw [events_append, hinner]
      exact .entered hid hjoin hattempts

/-- The statements of the node under an id, those of the nodes in its slots included, wrote the line
with a number. -/
def Wrote (journal : List Mark) (id : String) (line : Nat) : Prop :=
  ∃ later inside before shared continuation start stop,
    journal = later ++ ⟨.ended id continuation, stop⟩ ::
      (inside ++ ⟨.began id shared, start⟩ :: before) ∧
      start ≤ line ∧ line < stop

/-- A node whose statements begin after a mark was made writes no line that there was by then. -/
theorem Wrote.le_line {front back : List Mark} {mark : Mark} {id : String} {line : Nat}
    (hsorted : (front ++ mark :: back).Pairwise fun later earlier => earlier.written ≤ later.written)
    (hid : id ∉ dispatched (events (mark :: back))) (h : Wrote (front ++ mark :: back) id line) :
    mark.written ≤ line := by
  obtain ⟨later, inside, before, shared, continuation, start, stop, hsplit, hstart, -⟩ := h
  have hbegan : ⟨.began id shared, start⟩ ∈ front ++ mark :: back := by simp [hsplit]
  rcases List.mem_append.1 hbegan with hfront | hback
  · have hle := (List.pairwise_append.1 hsorted).2.2 _ hfront mark List.mem_cons_self
    exact Nat.le_trans hle hstart
  · have hevent : .began id shared ∈ events (mark :: back) := List.mem_map_of_mem hback
    exact absurd (mem_dispatched.2 ⟨shared, hevent⟩) hid

/-- A walk writes each node as one piece: its statements, with those of the nodes in its slots, and
then what follows it. Let the next nodes be the outputs of a node and what several of its slots lead
to. If the node has branches, or is of a built-in kind, none of the next nodes is written between the
beginning and the end of its statements, so that the lines of those that were not written before come
after its lines. If they follow the node, they are attempted in their order after its end, and when it
is left each of them has been visited or waits for the end of an open construct. -/
theorem joins_follow_construct (setting : Setting) (ids : List String) (state : State) :
    ∃ journal, (after (branch setting ids) state).journal = journal ++ state.journal ∧
      (after (branch setting ids) state).visited = entered (events journal) ++ state.visited ∧
      state.context.written <+: (after (branch setting ids) state).context.written ∧
      (∀ mark ∈ journal,
        mark.written ≤ (after (branch setting ids) state).context.written.length) ∧
      ∀ later before id shared start, journal = later ++ ⟨.began id shared, start⟩ :: before →
        ∃ node continuation inside rest outside stop leave,
          setting.table.get? id = some node ∧ setting.Continues node continuation ∧
          shared = sharedContinuations setting.table (entered (events before) ++ state.visited) node ∧
          later = outside ++ ⟨.left id, leave⟩ ::
            (rest ++ ⟨.ended id continuation, stop⟩ :: inside) ∧
          Balanced (events inside) ∧ Balanced (events rest) ∧
          (node.hasBranches = true ∨ setting.isPlain node = true →
            ∀ next ∈ node.outputs ++ shared, next ∉ dispatched (events inside) ∧
              (next ∉ id :: dispatched (events before) →
                ∀ line, Wrote journal next line → stop ≤ line)) ∧
          (continuation = .outputs →
            let now := events (⟨.left id, leave⟩ :: (rest ++ ⟨.ended id continuation, stop⟩ ::
              (inside ++ ⟨.began id shared, start⟩ :: before)))
            Attempts (state.joins ++ pending setting.table now)
              (entered (events (inside ++ before)) ++ state.visited) (node.outputs ++ shared)
              (events rest) ∧
            ∀ next ∈ node.outputs ++ shared, next ∈ entered now ++ state.visited ∨
              next ∈ state.joins ++ pending setting.table now) := by
  obtain ⟨journal, ⟨hpassage, -, haccounts⟩, -⟩ := (branch_tour setting ids state).stretch
  refine ⟨journal, hpassage.journal, hpassage.visited, hpassage.written, hpassage.last, ?_⟩
  intro later before id shared start hsplit
  obtain ⟨node, continuation, inside, rest, outside, stop, leave, hnode, hshared, hcontinues, hlater,
    hinside, hrest, hpatient, hattempts⟩ := haccounts later before id shared start hsplit
  rw [List.nil_append] at hlater
  refine ⟨node, continuation, inside, rest, outside, stop, leave, hnode, hcontinues, ?_, hlater,
    hinside, hrest, ?_, ?_⟩
  · rw [hshared, sharedAfter_eq_sharedContinuations]
  · intro hcontrol next hnext
    refine ⟨hpatient hcontrol next hnext, fun hbefore line hline => ?_⟩
    have hjournal : journal = (outside ++ ⟨.left id, leave⟩ :: rest) ++
        ⟨.ended id continuation, stop⟩ :: (inside ++ ⟨.began id shared, start⟩ :: before) := by
      simp [hsplit, hlater]
    rw [hjournal] at hline
    refine Wrote.le_line (hjournal ▸ hpassage.sorted) ?_ hline
    simpa using And.intro (hpatient hcontrol next hnext) (by simpa using hbefore)
  · rintro rfl now
    have hnow : pending setting.table now = pending setting.table (events before) := by
      have hbalanced := hrest.append (hinside.construct id shared .outputs)
      rw [← hbalanced.pending_append _ (events before)]
      simp [now, pending, openConstructs]
    have hentered : entered now = entered (events rest) ++ entered (events (inside ++ before)) := by
      simp [now]
    have hvisited : entered (events inside) ++ (entered (events before) ++ state.visited) =
        entered (events (inside ++ before)) ++ state.visited := by
      simp
    rw [Continuation.followers, hvisited, ← hnow] at hattempts
    refine ⟨hattempts, fun next hnext => ?_⟩
    rw [hentered, List.append_assoc]
    exact hattempts.settled next hnext

/-- A branch both of whose slots lead to one node. -/
def forked : Node where
  id := "inner"
  kind := .branch
  outputs := ["join"]
  slots := .ofList [("true", ["stay"]), ("false", ["go"])]

/-- A branch inside a node whose emitter tries to write what both of its slots lead to. -/
def eager : Setting where
  table := .ofList [
    ("wrap",
      { id := "wrap", kind := .custom ⟨"wrap", .null⟩, outputs := ["end"],
        slots := .ofList [("left", ["inner"]), ("right", ["join"])] }),
    ("inner", forked),
    ("stay", { id := "stay", kind := .continue, outputs := ["join"] }),
    ("go", { id := "go", kind := .merge, outputs := ["join"] }),
    ("join", { id := "join", kind := .tick {}, outputs := ["end"] }),
    ("end", { id := "end", kind := .break })]
  registry := Registry.register .empty
    ⟨"wrap", [.statement "wrap();", .slot "left" none, .take, .branch ["join"], .slot "right" none,
      .statement "unwrap();"], false⟩

/-- The node that both slots of the inner branch lead to is not written inside it. All its lines come
after those of the branch, and when the branch is left it has been visited or waits. -/
theorem eager_join_waits :
    let journal := (after (branch eager ["wrap"]) {}).journal
    journal = journal.take 26 ++ ⟨.began "inner" ["join", "end"], 1⟩ :: journal.drop 27 ∧
    ∃ inside rest outside stop leave,
      journal.take 26 =
        outside ++ ⟨.left "inner", leave⟩ :: (rest ++ ⟨.ended "inner" .outputs, stop⟩ :: inside) ∧
      "join" ∉ dispatched (events inside) ∧ (∀ line, Wrote journal "join" line → stop ≤ line) ∧
      let now := events (⟨.left "inner", leave⟩ :: (rest ++ ⟨.ended "inner" .outputs, stop⟩ ::
        (inside ++ ⟨.began "inner" ["join", "end"], 1⟩ :: journal.drop 27)))
      "join" ∈ entered now ∨ "join" ∈ pending eager.table now := by
  intro journal
  have hsplit : journal =
      journal.take 26 ++ ⟨.began "inner" ["join", "end"], 1⟩ :: journal.drop 27 := by
    decide +kernel
  have hbefore : "join" ∉ "inner" :: dispatched (events (journal.drop 27)) := by decide +kernel
  obtain ⟨marks, hmarks, -, -, -, hall⟩ := joins_follow_construct eager ["wrap"] {}
  obtain rfl : journal = marks := hmarks.trans (List.append_nil _)
  obtain ⟨node, continuation, inside, rest, outside, stop, leave, hnode, hcontinues, -, hlater, -, -,
    hpatient, hfollow⟩ := hall _ _ _ _ _ hsplit
  have hforked : eager.table.get? "inner" = some forked := rfl
  obtain rfl : forked = node := Option.some.inj (hforked.symm.trans hnode)
  obtain rfl : continuation = .outputs := hcontinues
  have hnext : "join" ∈ forked.outputs ++ ["join", "end"] := List.mem_cons_self
  obtain ⟨hinside, hlines⟩ := hpatient (.inl rfl) "join" hnext
  have hsettled := (hfollow rfl).2 "join" hnext
  exact ⟨hsplit, inside, rest, outside, stop, leave, hlater, hinside, hlines hbefore,
    by simpa using hsettled⟩

end TickScript.Emission.Walk
