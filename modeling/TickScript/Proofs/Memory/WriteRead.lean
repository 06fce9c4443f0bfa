import TickScript.Proofs.Memory.Emitted

/-!
# What was written is read

A node that writes a location and a node that reads it spell the location in different ways.
`read_after_write` says that running the statements of the one and then those of the other gives what
was written, whatever was missing on the way, and that nothing changes at other locations. Expressions
that the nodes are given stand for the same values all the time.
-/

namespace TickScript

open TickScript.Emission TickScript.Text

namespace Store

variable {σ : Type} {others : Others σ} {given : String → Value σ}

/-- An object with some members. -/
def Value.ofMembers (members : List (String × Value σ)) : Value σ :=
  .object fun key => members.lookup key

/-- After its declaration, what stands for an expression has the value of the expression. -/
theorem run?_holding (machine : Machine σ) (name expr : String) :
    ∃ middle, run? others given machine (holding name expr) = some middle ∧
      middle.root = machine.root ∧
      (standing name expr).value? given middle.constants = some (given expr) ∧
      ∀ {keys texts}, machine.Reads others given keys texts →
        (∀ key ∈ keys, key ≠ .nameOf (.held name)) → middle.Reads others given keys texts := by
  unfold holding standing
  cases isSimple expr with
  | true => exact ⟨machine, rfl, rfl, rfl, fun h _ => h⟩
  | false =>
      exact ⟨machine.hold name (given expr), rfl, rfl, Function.update_self _ _ _,
        fun h hname => h.hold hname _⟩

/-- String constants stand for their texts. -/
theorem reads_constants (machine : Machine σ) (texts : List String) :
    machine.Reads others given (texts.map .constant) texts := by
  rw [Machine.Reads, List.forall₂_map_left_iff, List.forall₂_same]
  exact fun _ _ => rfl

/-- What stands for an expression is no constant of another name. -/
theorem standing_ne {name other expr : String} (h : name ≠ other) :
    standing name expr ≠ .held other := by
  unfold standing
  split
  · exact nofun
  · exact fun heq => h (Operand.held.inj heq)

end Store

namespace Kind.Memory

open TickScript.Store

variable {σ : Type} (others : Others σ) (given : String → Value σ)

/-- The keys of the location of a memory node. A room without a value has no location. -/
def keys? (settings : Memory) (node : Node) (context : Context) : Option (List String) :=
  let path := splitPath settings.path
  match settings.scope with
  | .global | .actor => some path
  | .room => do
    let name ← (given (room node context)).member? others "name"
    return "rooms" :: name.key others :: path

/-- What a write leaves in place of an old value. -/
def leaves (settings : Memory) (node : Node) (context : Context) (old : Value σ) : Value σ :=
  let value := given (settings.written node context)
  if settings.merge then old.mergedInto others value else value

/-- What a read gives for a stored value. -/
def answer (settings : Memory) (node : Node) (context : Context) (stored : Value σ) : Value σ :=
  match settings.default? node context with
  | none => stored
  | some default => if stored.isMissing then given default else stored

variable {others given} {settings : Memory} {node : Node} {context : Context} {keys : List String}

/-- After the declaration of what they refer to, the keys of a location stand for its keys. -/
theorem run?_before (h : settings.keys? others given node context = some keys)
    (machine : Machine σ) :
    ∃ middle, run? others given machine (settings.address node context).before = some middle ∧
      middle.root = machine.root ∧
      middle.Reads others given (settings.address node context).keys keys := by
  unfold keys? at h
  unfold address
  cases hscope : settings.scope with
  | global | actor =>
      rw [hscope] at h
      cases h
      exact ⟨machine, rfl, rfl, reads_constants machine _⟩
  | room =>
      rw [hscope] at h
      obtain ⟨name, hname, hkeys⟩ := Option.bind_eq_some_iff.1 h
      cases hkeys
      obtain ⟨middle, hmiddle, hroot, hvalue, -⟩ :=
        @run?_holding _ others given machine (numbered "room" context.temps) (room node context)
      refine ⟨middle, hmiddle, hroot, .cons rfl (.cons ?_ (reads_constants middle _))⟩
      simp [Key.value?, hvalue, hname]

/-- The only constant that the keys of a location refer to is the one for the room. -/
theorem ne_nameOf_of_mem_keys (settings : Memory) (node : Node) (context : Context) {stem : String}
    (hstem : "room" ≠ stem) (earlier : Nat) :
    ∀ key ∈ (settings.address node context).keys, key ≠ .nameOf (.held (numbered stem earlier)) := by
  have hpath : ∀ key ∈ (splitPath settings.path).map Key.constant,
      key ≠ .nameOf (.held (numbered stem earlier)) := by
    intro key hkey
    obtain ⟨segment, -, rfl⟩ := List.mem_map.1 hkey
    exact nofun
  unfold address
  cases settings.scope with
  | global | actor => exact hpath
  | room =>
      have hroom := @standing_ne _ _ (room node context)
        (numbered_ne (by decide) hstem context.temps earlier)
      exact List.forall_mem_cons.2 ⟨nofun, List.forall_mem_cons.2
        ⟨fun heq => hroom (Key.nameOf.inj heq), hpath⟩⟩

/-- The statements of a write store a value at the location, and nothing changes elsewhere. -/
theorem run?_writing (h : settings.keys? others given node context = some keys)
    (hkeys : keys ≠ []) {machine : Machine σ} (hroot : Passable others machine.root keys) :
    ∃ final, run? others given machine (settings.writing node context) = some final ∧
      final.root.reach others keys =
        settings.leaves others given node context (machine.root.reach others keys) ∧
      ∀ other, ¬ other <+: keys → ¬ keys <+: other →
        final.root.reach others other = machine.root.reach others other := by
  obtain ⟨located, hlocated, hsame, hreads⟩ := run?_before h machine
  let name := numbered "value" (context.temps + (settings.address node context).before.length)
  let value := settings.written node context
  obtain ⟨held, hheld, hstill, hvalue, hkept⟩ := @run?_holding _ others given located name value
  have hreads := hkept hreads (ne_nameOf_of_mem_keys settings node context (by decide) _)
  have hbase : held.root = machine.root := hstill.trans hsame
  obtain ⟨root, hguards, hmade⟩ := run?_guards hreads (hbase ▸ hroot) hkeys
  rw [hbase] at hmade
  let made : Machine σ := { held with root }
  let old := numbered "prev"
    (context.temps + (settings.address node context).before.length + (holding name value).length)
  have hold : standing name value ≠ .held old :=
    standing_ne (numbered_ne (by decide) (by decide) _ _)
  have hfree : ∀ key ∈ (settings.address node context).keys, key ≠ .nameOf (.held old) :=
    ne_nameOf_of_mem_keys settings node context (by decide) _
  have hmadeReads : made.Reads others given (settings.address node context).keys keys := hreads
  obtain ⟨final, hfinal, hself, hothers⟩ :=
    run?_stores hmadeReads hmade hkeys hvalue hold hfree settings.merge
  refine ⟨final, ?_, hself, hothers⟩
  rw [writing, run?_append, run?_append, run?_append, hlocated, Option.bind_some, hheld,
    Option.bind_some, hguards, Option.bind_some]
  exact hfinal

/-- The statements of a read find what is at the location, and change nothing there. -/
theorem run?_reading (h : settings.keys? others given node context = some keys)
    (machine : Machine σ) :
    ∃ final, run? others given machine (settings.reading node context) = some final ∧
      final.root = machine.root ∧
      final.constants (settings.recalled node context) =
        some (settings.answer given node context (machine.root.reach others keys)) := by
  obtain ⟨located, hlocated, hsame, hreads⟩ := run?_before h machine
  have hfound := hreads.recall? machine.root
  refine ⟨located.hold (settings.recalled node context)
    (settings.answer given node context (machine.root.reach others keys)), ?_, hsame,
    Function.update_self _ _ _⟩
  rw [reading, run?_append, hlocated, Option.bind_some, answer]
  cases settings.default? node context with
  | none => simp [run?, Statement.run?, hsame, hfound]
  | some default => simp [run?, Statement.run?, Operand.value?, hsame, hfound]

/-- A path with a segment is a location below the base. -/
theorem ne_nil_of_keys? (h : settings.keys? others given node context = some keys)
    (hpath : splitPath settings.path ≠ []) : keys ≠ [] := by
  unfold keys? at h
  cases hscope : settings.scope with
  | global | actor =>
      rw [hscope] at h
      cases h
      exact hpath
  | room =>
      rw [hscope] at h
      obtain ⟨name, -, hkeys⟩ := Option.bind_eq_some_iff.1 h
      cases hkeys
      exact List.cons_ne_nil _ _

/-- A node that writes a location and one that reads it write the texts of the statements `writing`
and `reading`. If all values on the way to the location are objects or missing, and the first one is
an object, the statements of the write run through. They leave the value at the location, merged into
an object that was there if this is wanted, and change nothing at locations that are neither on the way
there nor below. Then the statements of the read run through wherever they stand, change nothing in the
store, and the value of the reading node is a constant that holds what the write has stored; only if
this is missing, a default takes its place. -/
theorem read_after_write (others : Others σ) (given : String → Value σ) (settings reading : Memory)
    (writer reader : Node) (context later : Context) (hpath : splitPath settings.path ≠ [])
    (hbase : (reading.address reader later).base = (settings.address writer context).base)
    (hwriter : settings.keys? others given writer context = some keys)
    (hreader : reading.keys? others given reader later = some keys) :
    let base := (settings.address writer context).base
    let afterWrite := ((settings.emitWrite writer).run context).2
    let afterRead := ((reading.emitRead reader).run later).2
    afterWrite.lines =
      context.lines ++ (settings.writing writer context).map (line base context.indent) ∧
    afterRead.lines = later.lines ++ (reading.reading reader later).map (line base later.indent) ∧
    ∃ constant, afterRead.valueOf? reader.id = some constant ∧
      ∀ machine : Machine σ, Passable others machine.root keys → ∃ final,
        run? others given machine (settings.writing writer context) = some final ∧
        let found := settings.leaves others given writer context (machine.root.reach others keys)
        final.root.reach others keys = found ∧
        (∀ other, ¬ other <+: keys → ¬ keys <+: other →
          final.root.reach others other = machine.root.reach others other) ∧
        ∀ constants, ∃ last,
          run? others given ⟨final.root, constants⟩ (reading.reading reader later) = some last ∧
          last.root = final.root ∧
          last.constants constant = some (reading.answer given reader later found) := by
  obtain ⟨hlines, hvalue⟩ := reading.emitRead_lines reader later
  rw [hbase] at hlines
  refine ⟨emitWrite_lines hpath writer context, hlines, _, hvalue, fun machine hroot => ?_⟩
  obtain ⟨final, hfinal, hself, hothers⟩ :=
    run?_writing hwriter (ne_nil_of_keys? hwriter hpath) hroot
  refine ⟨final, hfinal, hself, hothers, fun constants => ?_⟩
  obtain ⟨last, hlast, hroot, hconstant⟩ := run?_reading hreader ⟨final.root, constants⟩
  rw [hself] at hconstant
  exact ⟨last, hlast, hroot, hconstant⟩

/-- Settings of a node that merges a scan into the memory of the room. -/
def notes : Memory := { scope := .room, path := " seen . at", value := .text "scan()", merge := true }

/-- Settings of a node that reads what was noted. -/
def lookup : Memory := { scope := .room, path := "seen.at", default := .null }

/-- The node that notes. -/
def noting : Node := { id := "note", kind := .memoryWrite notes }

/-- The node that reads the notes. It finds the room in another way. -/
def recalling : Node where
  id := "recall"
  kind := .memoryRead lookup
  inputs := .insert .empty "room" (.literal (.text "home()"))

/-- Texts have no members, and are keys as they are. -/
def plainTexts : Others String where
  member _ _ := .undefined
  parts _ _ := none
  key := id

/-- A scan counts three things, and every other expression is the same room. -/
def surroundings (expr : String) : Value String :=
  if expr = "scan()" then .ofMembers [("count", .other "3")]
  else .ofMembers [("name", .other "W1N1")]

/-- A memory with older notes and something else in it. -/
def olderNotes : Value String :=
  .ofMembers [("size", .other "5"), ("rooms", .ofMembers [("W1N1", .ofMembers [("seen", .ofMembers
    [("at", .ofMembers [("count", .other "1"), ("tick", .other "8")])])])])]

/-- The new count takes the place of the older one in the memory, and the tick is still there. It is
what the reading node finds, and so it is in an empty memory, where the scan is all there is. -/
theorem notes_recalled :
    splitPath notes.path ≠ [] ∧
    ((lookup.emitRead recalling).run {}).2.renderedLines = ["const room_1 = home();",
      "const mem_2 = Memory?.[\"rooms\"]?.[room_1.name]?.[\"seen\"]?.[\"at\"] ?? null;"] ∧
    Passable plainTexts olderNotes ["rooms", "W1N1", "seen", "at"] ∧
    Passable plainTexts .empty ["rooms", "W1N1", "seen", "at"] ∧
    ∀ root ∈ [olderNotes, .empty], ∃ final last,
      run? plainTexts surroundings ⟨root, fun _ => none⟩ (notes.writing noting {}) = some final ∧
      run? plainTexts surroundings final (lookup.reading recalling {}) = some last ∧
      final.root.reach plainTexts ["size"] = root.reach plainTexts ["size"] ∧
      ∃ found, last.constants "mem_2" = some found ∧
        found.peek plainTexts "count" = .other "3" ∧
        found.peek plainTexts "tick" =
          root.reach plainTexts ["rooms", "W1N1", "seen", "at", "tick"] := by
  have hpath : splitPath notes.path ≠ [] := by decide +kernel
  have hpass : ∀ root ∈ [olderNotes, .empty],
      Passable plainTexts root ["rooms", "W1N1", "seen", "at"] := by
    intro root hroot
    rcases List.mem_pair.1 hroot with rfl | rfl
    · exact ⟨rfl, by decide +kernel⟩
    · exact ⟨rfl, by decide +kernel⟩
  have hnoting : notes.keys? plainTexts surroundings noting {} =
      some ["rooms", "W1N1", "seen", "at"] := by decide +kernel
  have hrecalling : lookup.keys? plainTexts surroundings recalling {} =
      some ["rooms", "W1N1", "seen", "at"] := by decide +kernel
  obtain ⟨-, -, constant, hconstant, hrun⟩ := read_after_write plainTexts surroundings notes
    lookup noting recalling {} {} hpath rfl hnoting hrecalling
  have hname : ((lookup.emitRead recalling).run {}).2.valueOf? recalling.id = some "mem_2" := by
    decide +kernel
  obtain rfl : constant = "mem_2" := Option.some.inj (hconstant.symm.trans hname)
  refine ⟨hpath, by decide +kernel, hpass _ (by simp), hpass _ (by simp), fun root hroot => ?_⟩
  obtain ⟨final, hfinal, -, hothers, hread⟩ := hrun ⟨root, fun _ => none⟩ (hpass root hroot)
  obtain ⟨last, hlast, -, hfound⟩ := hread final.constants
  refine ⟨final, last, hfinal, hlast, hothers ["size"] (by decide) (by decide), _, hfound, ?_⟩
  rcases List.mem_pair.1 hroot with rfl | rfl
  · exact ⟨rfl, rfl⟩
  · exact ⟨rfl, rfl⟩

end Kind.Memory

end TickScript
