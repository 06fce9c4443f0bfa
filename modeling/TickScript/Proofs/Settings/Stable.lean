import Mathlib.Data.List.Forall2
import TickScript.Proofs.Json.Proper
import TickScript.Proofs.Text.Identifier
import TickScript.Settings.Codec

/-!
# Codecs that read what they wrote

A codec is stable if it reads again what it once read from a proper value and then wrote, whatever the
order of members in between. `settle` says what a content has become then; for all codecs but that of
literals it is what it was. A codec refuses what it wrote if a number that stands as a key is all that
it fails at.
-/

namespace TickScript

/-- What an absent setting is after it was written: a literal cannot be undefined in data. -/
def Literal.settled : Literal → Literal
  | .undefined => .null
  | literal => literal

namespace Settings

open TickScript.Json (Value)

/-! ## Results -/

section Results

variable {ε α β : Type} {result : Except ε α} {final : β}

theorem map_eq_ok_iff {change : α → β} :
    change <$> result = .ok final ↔ ∃ content, result = .ok content ∧ change content = final := by
  cases result with
  | error failure => exact ⟨(fun h => nomatch h), fun ⟨_, h, _⟩ => nomatch h⟩
  | ok content =>
      constructor
      · rintro ⟨⟩
        exact ⟨content, rfl, rfl⟩
      · rintro ⟨_, ⟨⟩, rfl⟩
        rfl

theorem bind_eq_ok_iff {next : α → Except ε β} :
    result >>= next = .ok final ↔ ∃ content, result = .ok content ∧ next content = .ok final := by
  cases result with
  | error failure => exact ⟨(fun h => nomatch h), fun ⟨_, h, _⟩ => nomatch h⟩
  | ok content =>
      constructor
      · exact fun h => ⟨content, rfl, h⟩
      · rintro ⟨_, ⟨⟩, h⟩
        exact h

/-- What is read from the items of a list is read from one of them. -/
theorem exists_of_mapM_eq_ok {read : α → Except ε β} {items : List α} {contents : List β}
    (h : items.mapM read = .ok contents) :
    ∀ content ∈ contents, ∃ item ∈ items, read item = .ok content := by
  induction items generalizing contents with
  | nil =>
      cases h
      exact fun _ h => nomatch h
  | cons item items ih =>
      rw [List.mapM_cons] at h
      obtain ⟨first, hfirst, hrest⟩ := bind_eq_ok_iff.1 h
      obtain ⟨others, hothers, hall⟩ := bind_eq_ok_iff.1 hrest
      cases hall
      refine List.forall_mem_cons.2 ⟨⟨item, List.mem_cons_self, hfirst⟩, fun content hcontent => ?_⟩
      obtain ⟨source, hsource, hread⟩ := ih hothers content hcontent
      exact ⟨source, List.mem_cons_of_mem _ hsource, hread⟩

/-- A list is read if all its items are. -/
theorem mapM_eq_ok {read : α → Except ε β} {items : List α} {content : α → β}
    (h : ∀ item ∈ items, read item = .ok (content item)) :
    items.mapM read = .ok (items.map content) := by
  induction items with
  | nil => rfl
  | cons item items ih =>
      obtain ⟨hitem, hitems⟩ := List.forall_mem_cons.1 h
      rw [List.mapM_cons, hitem, ih hitems]
      rfl

/-- A fold of steps that give a result gives one. -/
theorem foldlM_eq_ok {ι : Type*} {step : β → ι → Except ε β} {next : β → ι → β} {items : List ι}
    (h : ∀ item ∈ items, ∀ state, step state item = .ok (next state item)) (state : β) :
    items.foldlM step state = .ok (items.foldl next state) := by
  induction items generalizing state with
  | nil => rfl
  | cons item items ih =>
      obtain ⟨hitem, hitems⟩ := List.forall_mem_cons.1 h
      rw [List.foldlM_cons, hitem state]
      exact ih hitems (next state item)

/-- A fold fails if one of its steps fails, and if the others give results or fail alike. -/
theorem foldlM_eq_error {step : β → α → Except ε β} {expected : ε → Prop} {items : List α}
    (hsteps : ∀ item ∈ items, (∀ state, ∃ next, step state item = .ok next) ∨
      ∃ failure, expected failure ∧ ∀ state, step state item = .error failure)
    (hfails : ∃ item ∈ items, ∃ failure, ∀ state, step state item = .error failure) (state : β) :
    ∃ failure, expected failure ∧ items.foldlM step state = .error failure := by
  induction items generalizing state with
  | nil =>
      obtain ⟨_, hmem, -⟩ := hfails
      cases hmem
  | cons item items ih =>
      obtain ⟨hitem, hitems⟩ := List.forall_mem_cons.1 hsteps
      rw [List.foldlM_cons]
      rcases hitem with hok | ⟨failure, hfailure, herror⟩
      · obtain ⟨next, hnext⟩ := hok state
        obtain ⟨culprit, hculprit, failure, herror⟩ := hfails
        -- The step that fails is not this one, which has given a result.
        rcases List.mem_cons.1 hculprit with rfl | hculprit
        · rw [herror state] at hnext
          cases hnext
        · rw [hnext]
          exact ih hitems ⟨culprit, hculprit, failure, herror⟩ next
      · exact ⟨failure, hfailure, by rw [herror state]; rfl⟩

end Results

/-- A number was expected and its digits were found as a text. -/
def Failure.IsNumberKey (failure : Failure) : Prop :=
  ∃ number, failure = .wrongType (.text (Nat.repr number)) .unsigned32

namespace Codec

variable {α κ : Type} {codec : Codec α} {settle : α → α} {content : α} {origin again : Origin}
  {value : Value}

/-- What is written of a content is read as that content, settled. -/
def Restores (codec : Codec α) (origin : Origin) (settle : α → α) (content : α) : Prop :=
  codec.read origin (codec.write content).sorted = .ok (settle content)

/-- What is written of a content is not read, because a number stands as a key. -/
def Refuses (codec : Codec α) (origin : Origin) (content : α) : Prop :=
  ∃ failure, failure.IsNumberKey ∧ codec.read origin (codec.write content).sorted = .error failure

/-- What is read from a proper value is restored. -/
def Stable (codec : Codec α) (settle : α → α) : Prop :=
  ∀ ⦃origin value content⦄, value.isProper = true → codec.read origin value = .ok content →
    ∀ again, codec.Restores again settle content

/-- What is read from a value other than null is not written as null. -/
def Solid (codec : Codec α) : Prop :=
  ∀ ⦃origin value content⦄, value.isProper = true → value ≠ .null →
    codec.read origin value = .ok content → (codec.write content).sorted ≠ .null

/-! ## Scalars -/

theorem stable_text : text.Stable id := fun _ _ _ _ _ _ => rfl

theorem solid_text : text.Solid := fun _ _ _ _ _ _ h => nomatch h

theorem stable_boolean : boolean.Stable id := fun _ _ _ _ _ _ => rfl

/-- An integer that is read is between the bounds. -/
theorem readInteger_eq_ok_iff {low high number : Int} {expected : Expected} :
    readInteger low high expected value = .ok number ↔
      value = .number (.integer number) ∧ low ≤ number ∧ number ≤ high := by
  unfold readInteger
  split
  · split
    · next hbounds =>
      constructor
      · rintro ⟨⟩
        exact ⟨rfl, hbounds⟩
      · rintro ⟨⟨⟩, -⟩
        rfl
    · next hbounds =>
      constructor
      · rintro ⟨⟩
      · rintro ⟨⟨⟩, hnumber⟩
        exact (hbounds hnumber).elim
  · next hvalue =>
    constructor
    · rintro ⟨⟩
    · rintro ⟨rfl, -⟩
      exact (hvalue number rfl).elim

theorem stable_signed64 : signed64.Stable id := fun _ _ _ _ hread _ =>
  readInteger_eq_ok_iff.2 ⟨rfl, (readInteger_eq_ok_iff.1 hread).2⟩

theorem solid_signed64 : signed64.Solid := fun _ _ _ _ _ _ h => nomatch h

theorem restores_unsigned32 {number : Nat} (h : number ≤ 4294967295) :
    unsigned32.Restores again id number := by
  have hread : readInteger 0 4294967295 .unsigned32 (.number (.integer number)) = .ok (number : Int) :=
    readInteger_eq_ok_iff.2 ⟨rfl, by omega, by omega⟩
  change Int.toNat <$> readInteger 0 4294967295 .unsigned32 (.number (.integer number)) = _
  rw [hread]
  rfl

theorem stable_unsigned32 : unsigned32.Stable id := by
  intro origin value content _ hread again
  obtain ⟨number, hnumber, rfl⟩ := map_eq_ok_iff.1 hread
  obtain ⟨-, hlow, hhigh⟩ := readInteger_eq_ok_iff.1 hnumber
  exact restores_unsigned32 (by omega)

theorem solid_unsigned32 : unsigned32.Solid := fun _ _ _ _ _ _ h => nomatch h

theorem restores_number {content : Binary64} (h : content.isFinite = true) :
    number.Restores again id content := by
  change number.read again (Value.ofBinary64 content).sorted = .ok content
  rw [Value.ofBinary64, if_pos h]
  rfl

/-- Only finite numbers are read. -/
theorem isFinite_of_read {content : Binary64} (hproper : value.isProper = true)
    (hread : number.read origin value = .ok content) : content.isFinite = true := by
  cases value with
  | number given =>
      cases hread
      exact Json.Number.isFinite_toBinary64 hproper
  | _ => cases hread

theorem stable_number : number.Stable id := fun _ _ _ hproper hread _ =>
  restores_number (isFinite_of_read hproper hread)

theorem solid_number : number.Solid := by
  intro origin value content hproper _ hread hnull
  change (Value.ofBinary64 content).sorted = .null at hnull
  rw [Value.ofBinary64, if_pos (isFinite_of_read hproper hread)] at hnull
  cases hnull

theorem settled_ofValue (value : Value) : (Literal.ofValue value).settled = Literal.ofValue value := by
  cases value <;> rfl

/-- A literal that was read is not undefined. -/
theorem stable_literal_id : literal.Stable id := by
  intro origin value content hproper hread again
  cases hread
  exact congrArg Except.ok (Literal.ofValue_sorted hproper)

theorem stable_literal : literal.Stable Literal.settled := by
  intro origin value content hproper hread again
  have hrestores := stable_literal_id hproper hread again
  cases hread
  unfold Restores
  rw [settled_ofValue]
  exact hrestores

theorem solid_literal : literal.Solid := by
  intro origin value content hproper hne hread
  cases hread
  exact Literal.toValue_ofValue_ne_null hproper hne

theorem stable_value : Codec.value.Stable id := by
  intro origin value content hproper hread again
  cases hread
  exact congrArg Except.ok (Value.sorted_of_isProper hproper)

/-! ## Containers -/

theorem Restores.optional {content : Option α}
    (h : ∀ inner ∈ content, codec.Restores again settle inner ∧ (codec.write inner).sorted ≠ .null) :
    (Codec.optional codec).Restores again (Option.map settle) content := by
  cases content with
  | none => rfl
  | some inner =>
      obtain ⟨hrestores, hne⟩ := h inner rfl
      change (Codec.optional codec).read again (codec.write inner).sorted = .ok (some (settle inner))
      unfold Restores at hrestores
      unfold Codec.optional
      dsimp only
      split
      · next hnull => exact (hne hnull).elim
      · rw [hrestores]
        rfl

theorem Stable.optional (h : codec.Stable settle) (hsolid : codec.Solid) :
    (Codec.optional codec).Stable (Option.map settle) := by
  intro origin value content hproper hread again
  refine Restores.optional fun inner hinner => ?_
  cases hinner
  unfold Codec.optional at hread
  dsimp only at hread
  split at hread
  · cases hread
  · next hne =>
    obtain ⟨_, hinner, heq⟩ := map_eq_ok_iff.1 hread
    cases heq
    exact ⟨h hproper hinner again, hsolid hproper hne hinner⟩

theorem Stable.optional_id (h : codec.Stable id) (hsolid : codec.Solid) :
    (Codec.optional codec).Stable id := by
  have hoptional := h.optional hsolid
  rwa [Option.map_id] at hoptional

theorem Restores.list {items : List α} (h : ∀ item ∈ items, codec.Restores again settle item) :
    (Codec.list codec).Restores again (List.map settle) items := by
  change (Value.sortedItems (items.map codec.write)).mapM (codec.read again) = _
  rw [Value.sortedItems_eq, List.map_map, List.mapM_map]
  exact mapM_eq_ok h

theorem Restores.list_id {items : List α} (h : ∀ item ∈ items, codec.Restores again id item) :
    (Codec.list codec).Restores again id items := by
  have hlist := Restores.list h
  rwa [List.map_id_fun] at hlist

theorem Stable.list (h : codec.Stable settle) : (Codec.list codec).Stable (List.map settle) := by
  intro origin value content hproper hread again
  refine Restores.list fun item hitem => ?_
  cases value with
  | array items =>
      obtain ⟨source, hsource, hitem⟩ := exists_of_mapM_eq_ok hread item hitem
      exact h (Value.isProper_array_iff.1 hproper source hsource) hitem again
  | _ => cases hread

theorem Stable.list_id (h : codec.Stable id) : (Codec.list codec).Stable id := by
  have hlist := h.list
  rwa [List.map_id_fun] at hlist

/-! ## Choices -/

end Codec

namespace Choice

variable {α : Type} {choice : Choice α}

/-- Every alternative is what its name is read as. -/
def Named (choice : Choice α) : Prop :=
  ∀ alternative, choice.ofName (choice.name alternative) = .ok alternative

/-- The order of the spellings of an alternative makes no difference. -/
theorem contains_spellings (alternative : α) (name : String) :
    (choice.spellings alternative).contains name =
      (choice.name alternative :: choice.aliases alternative).contains name := by
  rw [Bool.eq_iff_iff, List.contains_iff_mem, List.contains_iff_mem]
  exact (List.mergeSort_perm _ _).mem_iff

theorem ofName_of_find {name : String} {alternative : α} (h : (choice.all.find? fun found =>
      (choice.name found :: choice.aliases found).contains name).or choice.other = some alternative) :
    choice.ofName name = .ok alternative := by
  unfold ofName
  simp only [contains_spellings]
  cases hfound : choice.all.find? fun found =>
      (choice.name found :: choice.aliases found).contains name with
  | some found =>
      rw [hfound] at h
      cases h
      rfl
  | none =>
      rw [hfound, Option.none_or] at h
      rw [h]

theorem named_of_find (h : ∀ alternative, (choice.all.find? fun found =>
      (choice.name found :: choice.aliases found).contains (choice.name alternative)).or choice.other =
        some alternative) : choice.Named := fun alternative => ofName_of_find (h alternative)

theorem restores_codec (h : choice.Named) (again : Origin) (alternative : α) :
    choice.codec.Restores again id alternative := h alternative

theorem stable_codec (h : choice.Named) : choice.codec.Stable id := fun _ _ _ _ _ again =>
  restores_codec h again _

theorem solid_codec : choice.codec.Solid := fun _ _ _ _ _ _ h => nomatch h

end Choice

namespace Codec

/-! ## Maps -/

/-- A key is what its spelling is read as. -/
def Key.Faithful {κ : Type} (key : Key κ) : Prop :=
  ∀ origin name, key.read origin (key.write name) = .ok name

theorem Key.faithful_text : Key.text.Faithful := fun _ _ => rfl

theorem Key.faithful_choice {α : Type} {choice : Choice α} (h : choice.Named) :
    choice.key.Faithful := fun _ => h

section Keyed

variable {α κ : Type} [Ord κ] [Std.TransOrd κ] [Std.LawfulEqOrd κ] {key : Key κ} {codec : Codec α}
  {settle : α → α} {again : Origin} {table : Keyed κ α}

omit [Std.TransOrd κ] in
/-- Different keys are spelt differently. -/
theorem Key.Faithful.nodup (h : key.Faithful) (table : Keyed κ α) :
    (table.entries.map fun entry => key.write entry.1).Nodup := by
  have hkeys : (table.keys.map key.write).Nodup := by
    refine List.Nodup.map (fun first second hsame => ?_) table.keys_nodup
    have hread := h .direct first
    rw [hsame, h .direct second] at hread
    cases hread
    rfl
  rwa [Keyed.keys, List.map_map] at hkeys

/-- A map that was written is read entry by entry, in some order. -/
theorem read_keyed (hkey : key.Faithful) (codec : Codec α) (again : Origin) (table : Keyed κ α) :
    ∃ moved : List (κ × α), moved.Perm table.entries ∧
      (keyed key codec).read again ((keyed key codec).write table).sorted =
        moved.foldlM (fun found entry => (fun content => found.insert entry.1 content) <$>
          codec.read again (codec.write entry.2).sorted) .empty := by
  obtain ⟨moved, hperm, hsorted⟩ :=
    Value.sorted_object_map (fun entry : κ × α => codec.write entry.2) (hkey.nodup table)
  refine ⟨moved, hperm, ?_⟩
  change (keyed key codec).read again (Value.object (table.entries.map fun entry =>
    (key.write entry.1, codec.write entry.2))).sorted = _
  rw [hsorted]
  change (moved.map _).foldlM _ _ = _
  rw [List.foldlM_map]
  refine congrArg (fun step => List.foldlM step _ moved) (funext fun found => funext fun entry => ?_)
  dsimp only
  rw [hkey again entry.1]
  cases codec.read again (codec.write entry.2).sorted <;> rfl

theorem Restores.keyed [BEq κ] [LawfulBEq κ] (hkey : key.Faithful)
    (h : ∀ entry ∈ table.entries, codec.Restores again settle entry.2) :
    (Codec.keyed key codec).Restores again (Keyed.mapValues settle) table := by
  obtain ⟨moved, hperm, hread⟩ := read_keyed hkey codec again table
  have hsteps : ∀ entry ∈ moved, ∀ found : Keyed κ α, (fun content => found.insert entry.1 content) <$>
      codec.read again (codec.write entry.2).sorted = .ok (found.insert entry.1 (settle entry.2)) :=
    fun entry hentry found => by rw [h entry (hperm.mem_iff.1 hentry)]; rfl
  have hmoved := hperm.map fun entry : κ × α => (entry.1, settle entry.2)
  have hnodup : ((moved.map fun entry => (entry.1, settle entry.2)).map (·.1)).Nodup := by
    rw [List.map_map]
    exact (hperm.map Prod.fst).nodup_iff.2 table.keys_nodup
  have hlist : moved.foldl (fun found entry => found.insert entry.1 (settle entry.2)) Keyed.empty =
      Keyed.ofList (moved.map fun entry => (entry.1, settle entry.2)) := by
    rw [Keyed.ofList, List.foldl_map]
  unfold Restores
  rw [hread, foldlM_eq_ok hsteps, hlist]
  exact congrArg Except.ok
    (Keyed.eq_of_entries_perm ((Keyed.entries_ofList_perm hnodup).trans hmoved))

theorem Restores.keyed_id [BEq κ] [LawfulBEq κ] (hkey : key.Faithful)
    (h : ∀ entry ∈ table.entries, codec.Restores again id entry.2) :
    (Codec.keyed key codec).Restores again id table := by
  have hkeyed := Restores.keyed hkey h
  rwa [Keyed.mapValues_id] at hkeyed

/-- A map is refused if one of its contents is, and if the others are restored. -/
theorem Refuses.keyed (hkey : key.Faithful)
    (hentries : ∀ entry ∈ table.entries,
      codec.Restores again settle entry.2 ∨ codec.Refuses again entry.2)
    (hrefused : ∃ entry ∈ table.entries, codec.Refuses again entry.2) :
    (Codec.keyed key codec).Refuses again table := by
  obtain ⟨moved, hperm, hread⟩ := read_keyed hkey codec again table
  unfold Refuses
  rw [hread]
  refine foldlM_eq_error (fun entry hentry => ?_) ?_ _
  · rcases hentries entry (hperm.mem_iff.1 hentry) with hrestores | ⟨failure, hkey, hfails⟩
    · exact .inl fun found => ⟨_, by rw [hrestores]; rfl⟩
    · exact .inr ⟨failure, hkey, fun found => by rw [hfails]; rfl⟩
  · obtain ⟨entry, hentry, failure, -, hfails⟩ := hrefused
    exact ⟨entry, hperm.mem_iff.2 hentry, failure, fun found => by rw [hfails]; rfl⟩

/-- The contents of a map that is read member by member are restored. -/
theorem Stable.foldlM (h : codec.Stable settle) {origin : Origin} {members : List (String × Value)}
    (hproper : ∀ member ∈ members, member.2.isProper = true) {start final : Keyed κ α}
    (hstart : ∀ entry ∈ start.entries, codec.Restores again settle entry.2)
    (hread : members.foldlM (fun table (name, content) => do
      let name ← key.read origin name
      let content ← codec.read origin content
      return table.insert name content) start = .ok final) :
    ∀ entry ∈ final.entries, codec.Restores again settle entry.2 := by
  induction members generalizing start with
  | nil =>
      cases hread
      exact hstart
  | cons member members ih =>
      rw [List.foldlM_cons] at hread
      obtain ⟨middle, hmember, hrest⟩ := bind_eq_ok_iff.1 hread
      obtain ⟨name, -, hmember⟩ := bind_eq_ok_iff.1 hmember
      obtain ⟨content, hcontent, heq⟩ := bind_eq_ok_iff.1 hmember
      cases heq
      obtain ⟨hmember, hmembers⟩ := List.forall_mem_cons.1 hproper
      refine ih hmembers (fun entry hentry => ?_) hrest
      rcases mem_insertEntry hentry with rfl | hold
      · exact h hmember hcontent again
      · exact hstart entry hold

theorem Stable.keyed [BEq κ] [LawfulBEq κ] (hkey : key.Faithful) (h : codec.Stable settle) :
    (Codec.keyed key codec).Stable (Keyed.mapValues settle) := by
  intro origin value table hproper hread again
  refine Restores.keyed hkey ?_
  cases value with
  | object members =>
      have hempty : ∀ entry ∈ (Keyed.empty : Keyed κ α).entries,
          codec.Restores again settle entry.2 := fun _ h => nomatch h
      exact h.foldlM (Value.isProper_object_iff.1 hproper).2 hempty hread
  | _ => cases hread

theorem Stable.keyed_id [BEq κ] [LawfulBEq κ] (hkey : key.Faithful) (h : codec.Stable id) :
    (Codec.keyed key codec).Stable id := by
  have hkeyed := h.keyed hkey
  rwa [Keyed.mapValues_id] at hkeyed

/-- Keys that are numbers are refused by a reader of contents that were set aside. -/
theorem refuses_unsigned32 (codec : Codec α) {table : Keyed Nat α} (h : table.isEmpty = false) :
    (Codec.keyed .unsigned32 codec).Refuses .buffered table := by
  have hnodup : (table.entries.map fun entry => Nat.repr entry.1).Nodup := by
    have hkeys := List.Nodup.map Text.repr_injective table.keys_nodup
    rwa [Keyed.keys, List.map_map] at hkeys
  obtain ⟨moved, hperm, hsorted⟩ :=
    Value.sorted_object_map (fun entry : Nat × α => codec.write entry.2) hnodup
  cases moved with
  | nil =>
      rw [Keyed.isEmpty, ← hperm.nil_eq] at h
      cases h
  | cons entry moved =>
      refine ⟨_, ⟨entry.1, rfl⟩, ?_⟩
      change (Codec.keyed .unsigned32 codec).read .buffered (Value.object (table.entries.map
        fun entry => (Nat.repr entry.1, codec.write entry.2))).sorted = _
      rw [hsorted]
      rfl

end Keyed

end Codec

end Settings

end TickScript
