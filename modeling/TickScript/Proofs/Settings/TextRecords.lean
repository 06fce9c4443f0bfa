import TickScript.Proofs.Json.Printed
import TickScript.Proofs.Settings.Stable
import TickScript.Settings.TextRecord

/-!
# Records read from a text

A value that was read from a draft is read from its own draft with the same room (`value_ofValue`), as
its members are in order and it is no deeper. What a record is read as has every property that the
blank record has and all fields keep (`reading_keeps`). On the other side, an object that has a member
for each field is read as the record that these make (`reading_members`).
-/

namespace TickScript

theorem Keyed.mem_of_mem_ofList {κ υ : Type} [Ord κ] [Std.TransOrd κ] [Std.LawfulEqOrd κ] [BEq κ]
    [LawfulBEq κ] {entries : List (κ × υ)} {entry : κ × υ}
    (h : entry ∈ (Keyed.ofList entries).entries) : entry ∈ entries := by
  have hfound : (Keyed.ofList entries).get? entry.1 = some entry.2 := Keyed.get?_of_mem h
  rw [Keyed.get?_ofList] at hfound
  obtain ⟨before, after, hentries, -⟩ := List.lookup_eq_some_iff.1 hfound
  have hmem : entry ∈ entries.reverse := by simp [hentries]
  exact List.mem_reverse.1 hmem

namespace Json.Draft

open TickScript.Settings (bind_eq_ok_iff map_eq_ok_iff)

/-- The drafts of items are read as the items if each of them is. -/
theorem itemValues_ofItems {room : Nat} {items : List Value}
    (h : ∀ item ∈ items, (ofValue item).value room = .ok item) :
    itemValues room (ofItems items) = .ok items := by
  induction items with
  | nil => rfl
  | cons item items ih =>
      obtain ⟨hitem, hitems⟩ := List.forall_mem_cons.1 h
      rw [ofItems, itemValues, hitem, ih hitems]
      rfl

/-- The drafts of members are read as the members if the value of each of them is. -/
theorem memberValues_ofMembers {room : Nat} {members : List (String × Value)}
    (h : ∀ member ∈ members, (ofValue member.2).value room = .ok member.2) :
    memberValues room (ofMembers members) = .ok members := by
  induction members with
  | nil => rfl
  | cons member members ih =>
      obtain ⟨hmember, hmembers⟩ := List.forall_mem_cons.1 h
      rw [ofMembers, memberValues, hmember, ih hmembers]
      rfl

mutual

/-- A value that was read from a draft is read from its own one. -/
theorem value_ofValue : ∀ {draft : Draft} {room : Nat} {value : Value},
    draft.value room = .ok value → (ofValue value).value room = .ok value
  | .null, _, _, h => by cases h; rfl
  | .bool _, _, _, h => by cases h; rfl
  | .number content, _, _, h => by
      rw [Draft.value] at h
      obtain ⟨number, -, rfl⟩ := map_eq_ok_iff.1 h
      rfl
  | .text scan, _, _, h => by
      rw [Draft.value] at h
      obtain ⟨text, -, rfl⟩ := map_eq_ok_iff.1 h
      rfl
  | .broken _ _, _, _, h => by cases h
  | .array _ _, 0, _, h => by cases h
  | .object _ _, 0, _, h => by cases h
  | .array items ending, room + 1, _, h => by
      rw [Draft.value] at h
      obtain ⟨contents, hcontents, h⟩ := bind_eq_ok_iff.1 h
      obtain ⟨_, -, ⟨⟩⟩ := bind_eq_ok_iff.1 h
      rw [ofValue, Draft.value, itemValues_ofItems (itemValues_mem hcontents)]
      rfl
  | .object members ending, room + 1, _, h => by
      rw [Draft.value] at h
      obtain ⟨contents, hcontents, h⟩ := bind_eq_ok_iff.1 h
      obtain ⟨_, -, ⟨⟩⟩ := bind_eq_ok_iff.1 h
      -- Only members that were read are kept, and they are in order.
      have hkept := fun member hmember =>
        memberValues_mem hcontents member (Keyed.mem_of_mem_ofList hmember)
      rw [Value.ofMembers_eq, ofValue, Draft.value, memberValues_ofMembers hkept]
      exact congrArg Except.ok (Value.ofMembers_of_ascending (Keyed.ascending _))

theorem itemValues_mem : ∀ {items : List Draft} {room : Nat} {contents : List Value},
    itemValues room items = .ok contents →
      ∀ content ∈ contents, (ofValue content).value room = .ok content
  | [], _, _, h => by cases h; simp
  | item :: items, room, _, h => by
      rw [itemValues] at h
      obtain ⟨content, hcontent, h⟩ := bind_eq_ok_iff.1 h
      obtain ⟨contents, hcontents, ⟨⟩⟩ := bind_eq_ok_iff.1 h
      exact List.forall_mem_cons.2 ⟨value_ofValue hcontent, itemValues_mem hcontents⟩

theorem memberValues_mem : ∀ {members : List (Scan × Draft)} {room : Nat}
    {contents : List (String × Value)}, memberValues room members = .ok contents →
      ∀ content ∈ contents, (ofValue content.2).value room = .ok content.2
  | [], _, _, h => by cases h; simp
  | (key, member) :: members, room, _, h => by
      rw [memberValues] at h
      obtain ⟨name, -, h⟩ := bind_eq_ok_iff.1 h
      obtain ⟨content, hcontent, h⟩ := bind_eq_ok_iff.1 h
      obtain ⟨contents, hcontents, ⟨⟩⟩ := bind_eq_ok_iff.1 h
      exact List.forall_mem_cons.2 ⟨value_ofValue hcontent, memberValues_mem hcontents⟩

end

end Json.Draft

namespace Settings

open TickScript.Json (Draft Scan)

variable {σ α : Type} {room : Nat} {holds : σ → Prop}

theorem ofFault_eq_ok_iff {result : Except Json.Fault α} {content : α} :
    Reading.ofFault result = .ok content ↔ result = .ok content := by
  cases result with
  | ok _ => exact ⟨fun h => by cases h; rfl, fun h => by cases h; rfl⟩
  | error _ => exact ⟨(fun h => nomatch h), fun h => nomatch h⟩

/-- A mismatch is no result. -/
theorem Reading.mismatch_ne_ok {draft : Draft} {expected : Expected} {content : α} :
    Reading.mismatch draft expected ≠ .ok content := by
  intro h
  cases draft with
  | number value =>
      obtain ⟨_, -, h⟩ := bind_eq_ok_iff.1 h
      cases h
  | text scan =>
      obtain ⟨_, -, h⟩ := bind_eq_ok_iff.1 h
      cases h
  | _ => cases h

/-- What a list is read as was read item by item. -/
theorem Reading.mem_of_list {reading : Reading α} {draft : Draft} {contents : List α}
    (h : Reading.list reading (room + 1) draft = .ok contents) :
    ∀ content ∈ contents, ∃ item, reading room item = .ok content := by
  cases draft with
  | array items ending =>
      obtain ⟨found, hfound, h⟩ := bind_eq_ok_iff.1 h
      obtain ⟨_, -, ⟨⟩⟩ := bind_eq_ok_iff.1 h
      intro content hcontent
      obtain ⟨item, -, hitem⟩ := exists_of_mapM_eq_ok hfound content hcontent
      exact ⟨item, hitem⟩
  | _ =>
      rw [Reading.list] at h
      · exact absurd h Reading.mismatch_ne_ok
      all_goals simp

/-- A list that was written item by item is read as it was. -/
theorem Reading.list_ofValue {reading : Reading α} {write : α → Json.Value} {items : List α}
    (h : ∀ item ∈ items, reading room (.ofValue (write item)) = .ok item) :
    Reading.list reading (room + 1) (.ofValue (.array (items.map write))) = .ok items := by
  have hdrafts : Draft.ofItems (items.map write) = items.map fun item => .ofValue (write item) := by
    clear h
    induction items with
    | nil => rfl
    | cons item items ih => rw [List.map_cons, Draft.ofItems, ih, List.map_cons]
  have hitems : (Draft.ofItems (items.map write)).mapM (reading room) = .ok items := by
    rw [hdrafts, List.mapM_map]
    exact (mapM_eq_ok h).trans (congrArg Except.ok (List.map_id items))
  exact bind_eq_ok_iff.2 ⟨items, hitems, rfl⟩

section Load

variable {name : String} {reading : Reading α} {set : σ → α → σ} {aliases : List String}
  {draft : Draft} {content : α}

theorem TextField.load_defaulted (h : reading room draft = .ok content) :
    (TextField.defaulted name reading set aliases).load room draft =
      .ok fun record => set record content :=
  map_eq_ok_iff.2 ⟨content, h, rfl⟩

theorem TextField.load_required (h : reading room draft = .ok content) :
    (TextField.required name reading set aliases).load room draft =
      .ok fun record => set record content :=
  map_eq_ok_iff.2 ⟨content, h, rfl⟩

end Load

/-- Whatever a field is read as, it keeps a property of records. -/
def TextField.Keeps (field : TextField σ) (room : Nat) (holds : σ → Prop) : Prop :=
  ∀ draft change, field.load room draft = .ok change → ∀ value, holds value → holds (change value)

theorem TextField.keeps_defaulted {name : String} {reading : Reading α} {set : σ → α → σ}
    {aliases : List String}
    (h : ∀ draft content, reading room draft = .ok content →
      ∀ value, holds value → holds (set value content)) :
    (TextField.defaulted name reading set aliases).Keeps room holds := by
  intro draft change hload
  obtain ⟨content, hcontent, rfl⟩ := map_eq_ok_iff.1 hload
  exact h draft content hcontent

theorem TextField.keeps_required {name : String} {reading : Reading α} {set : σ → α → σ}
    {aliases : List String}
    (h : ∀ draft content, reading room draft = .ok content →
      ∀ value, holds value → holds (set value content)) :
    (TextField.required name reading set aliases).Keeps room holds :=
  @TextField.keeps_defaulted σ α room holds name reading set aliases h

namespace TextRecord

variable {record : TextRecord σ}

theorem takeMember_keeps (hfields : ∀ field ∈ record.fields, field.Keeps room holds)
    {filled next : Record.Filled σ} {member : Scan × Draft}
    (h : record.takeMember room filled member = .ok next) (hfilled : holds filled.1) :
    holds next.1 := by
  obtain ⟨key, -, h⟩ := bind_eq_ok_iff.1 h
  cases hfield : record.fields.find? (·.answersTo key) with
  | none =>
      simp only [hfield] at h
      obtain ⟨_, -, ⟨⟩⟩ := bind_eq_ok_iff.1 h
      exact hfilled
  | some field =>
      simp only [hfield] at h
      split at h
      · cases h
      · obtain ⟨change, hchange, ⟨⟩⟩ := bind_eq_ok_iff.1 h
        exact hfields field (List.mem_of_find?_eq_some hfield) _ _ hchange _ hfilled

theorem foldlM_takeMember_keeps (hfields : ∀ field ∈ record.fields, field.Keeps room holds)
    {members : List (Scan × Draft)} {filled final : Record.Filled σ}
    (h : members.foldlM (record.takeMember room) filled = .ok final) (hfilled : holds filled.1) :
    holds final.1 := by
  induction members generalizing filled with
  | nil =>
      cases h
      exact hfilled
  | cons member members ih =>
      rw [List.foldlM_cons] at h
      obtain ⟨next, hnext, h⟩ := bind_eq_ok_iff.1 h
      exact ih h (takeMember_keeps hfields hnext hfilled)

theorem readRow_keeps {ending : Json.Ending} {index : Nat} {fields : List (TextField σ)}
    (hfields : ∀ field ∈ fields, field.Keeps room holds) {items : List Draft} {value : σ}
    {final : σ × List Draft}
    (h : record.readRow room ending index fields items value = .ok final) (hvalue : holds value) :
    holds final.1 := by
  induction fields generalizing index items value with
  | nil =>
      cases h
      exact hvalue
  | cons field fields ih =>
      obtain ⟨hfield, hrest⟩ := List.forall_mem_cons.1 hfields
      cases items with
      | nil =>
          obtain ⟨_, -, h⟩ := bind_eq_ok_iff.1 h
          split at h
          · exact ih hrest h hvalue
          · cases h
      | cons item items =>
          obtain ⟨change, hchange, h⟩ := bind_eq_ok_iff.1 h
          exact ih hrest h (hfield item change hchange value hvalue)

/-- What a record is read as has the properties that the blank record has and all fields keep. -/
theorem reading_keeps (hblank : holds record.blank)
    (hfields : ∀ field ∈ record.fields, field.Keeps room holds) {draft : Draft} {value : σ}
    (h : record.reading (room + 1) draft = .ok value) : holds value := by
  cases draft with
  | object members ending =>
      obtain ⟨filled, hfilled, h⟩ := bind_eq_ok_iff.1 h
      obtain ⟨_, -, h⟩ := bind_eq_ok_iff.1 h
      obtain ⟨_, -, ⟨⟩⟩ := bind_eq_ok_iff.1 h
      exact foldlM_takeMember_keeps hfields hfilled hblank
  | array items ending =>
      obtain ⟨⟨final, rest⟩, hrow, h⟩ := bind_eq_ok_iff.1 h
      simp only at h
      split at h
      · obtain ⟨_, -, ⟨⟩⟩ := bind_eq_ok_iff.1 h
        exact readRow_keeps hfields hrow hblank
      · cases h
  | _ =>
      rw [reading] at h
      · exact absurd h Reading.mismatch_ne_ok
      all_goals simp

/-- The fields of a record have names of their own, under which they are found. -/
structure Distinct (record : TextRecord σ) : Prop where
  nodup : (record.fields.map (·.name)).Nodup
  found : ∀ field ∈ record.fields, record.fields.find? (·.answersTo field.name) = some field

/-- A member fills its field if the field has not been filled. -/
theorem takeMember_of_found {filled : Record.Filled σ} {field : TextField σ} {draft : Draft}
    {change : σ → σ} (hfound : record.fields.find? (·.answersTo field.name) = some field)
    (hnew : field.name ∉ filled.2) (hload : field.load room draft = .ok change) :
    record.takeMember room filled (.ofText field.name, draft) =
      .ok (change filled.1, field.name :: filled.2) := by
  have hkey : Reading.ofFault (Scan.ofText field.name).content = .ok field.name := rfl
  have hcontains : filled.2.contains field.name = false := by simpa using hnew
  simp only [takeMember, hkey, bind, Except.bind, hfound, hcontains, hload]
  rfl

/-- The members of an object that are named for fields. -/
def members (fields : List (TextField σ)) (entries : List (Draft × (σ → σ))) : List (Scan × Draft) :=
  List.zipWith (fun field entry => (.ofText field.name, entry.1)) fields entries

/-- Members fill their fields one after the other. -/
theorem foldlM_takeMember {fields : List (TextField σ)} {entries : List (Draft × (σ → σ))}
    (hfound : ∀ field ∈ fields, record.fields.find? (·.answersTo field.name) = some field)
    (hload : List.Forall₂ (fun field entry => field.load room entry.1 = .ok entry.2) fields entries)
    (hnodup : (fields.map (·.name)).Nodup) {filled : Record.Filled σ}
    (hnew : ∀ field ∈ fields, field.name ∉ filled.2) :
    (members fields entries).foldlM (record.takeMember room) filled =
      .ok (entries.foldl (fun value entry => entry.2 value) filled.1,
        (fields.map (·.name)).reverse ++ filled.2) := by
  induction hload generalizing filled with
  | nil => rfl
  | @cons field entry fields entries hentry _ ih =>
      obtain ⟨hfield, hfields⟩ := List.forall_mem_cons.1 hfound
      rw [List.map_cons, List.nodup_cons] at hnodup
      have hlater : ∀ later ∈ fields, later.name ∉ field.name :: filled.2 := by
        intro later hlater hname
        rcases List.mem_cons.1 hname with hsame | hname
        · exact hnodup.1 (hsame ▸ List.mem_map_of_mem hlater)
        · exact hnew later (List.mem_cons_of_mem _ hlater) hname
      have htake := takeMember_of_found hfield (hnew field List.mem_cons_self) hentry
      rw [members, List.zipWith_cons_cons, List.foldlM_cons, htake]
      change (members fields entries).foldlM (record.takeMember room) _ = _
      rw [ih hfields hnodup.2 hlater]
      simp

theorem checkFilled_of_mem {names : List String}
    (h : ∀ field ∈ record.fields, field.name ∈ names) : record.checkFilled names = .ok () := by
  unfold checkFilled
  split
  · next field hfield =>
    have hmem := h field (List.mem_of_find?_eq_some hfield)
    simpa [hmem] using List.find?_some hfield
  · rfl

/-- An object with a member for each field is read as the record that they make. -/
theorem reading_members (hdistinct : record.Distinct) {entries : List (Draft × (σ → σ))}
    (hload : List.Forall₂ (fun field entry => field.load room entry.1 = .ok entry.2)
      record.fields entries) :
    record.reading (room + 1) (.object (members record.fields entries) .closed) =
      .ok (entries.foldl (fun value entry => entry.2 value) record.blank) := by
  have hfold := @foldlM_takeMember σ room record _ _ hdistinct.found hload hdistinct.nodup
    (record.blank, []) (by simp)
  have hfilled : record.checkFilled ((record.fields.map TextField.name).reverse ++ []) = .ok () :=
    checkFilled_of_mem fun field hfield => by simpa using ⟨field, hfield, rfl⟩
  exact bind_eq_ok_iff.2 ⟨_, hfold, bind_eq_ok_iff.2 ⟨(), rfl, bind_eq_ok_iff.2 ⟨(), hfilled, rfl⟩⟩⟩

end TextRecord

end Settings

end TickScript
