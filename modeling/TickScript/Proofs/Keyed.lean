import Mathlib.Data.List.Basic
import Mathlib.Data.List.Induction
import Mathlib.Data.List.Nodup
import TickScript.Keyed

/-!
# Lookups in tables

What a table says under a key after an insertion, and how its keys and values go together with its
lookups.
-/

namespace TickScript

variable {κ υ : Type} [Ord κ] [BEq κ] [LawfulBEq κ]

omit [Ord κ] [LawfulBEq κ] in
/-- To change all values of an entry list changes the one that is found. -/
theorem lookup_map_snd {ω : Type} (change : υ → ω) (entries : List (κ × υ)) (key : κ) :
    (entries.map fun entry => (entry.1, change entry.2)).lookup key =
      (entries.lookup key).map change := by
  induction entries with
  | nil => rfl
  | cons entry entries ih =>
      rw [List.map_cons, List.lookup_cons, List.lookup_cons, ih]
      cases key == entry.1 <;> rfl

section Entries

variable [Std.LawfulEqOrd κ] {key other : κ} {value : υ}

/-- A key that stands before or behind another one differs from it. -/
theorem beq_eq_false_of_compare (h : compare key other ≠ .eq) : (key == other) = false := by
  rw [beq_eq_false_iff_ne]
  rintro rfl
  exact h Std.ReflCmp.compare_self

/-- The value that was put under a key is found there. -/
theorem lookup_insertEntry_self (entries : List (κ × υ)) :
    (insertEntry key value entries).lookup key = some value := by
  induction entries with
  | nil => simp [insertEntry]
  | cons head tail ih =>
      rw [insertEntry]
      split
      · exact List.lookup_cons_self
      · exact List.lookup_cons_self
      · next hgt => rw [List.lookup_cons, beq_eq_false_of_compare (by simp [hgt]), ih]

/-- Other keys keep their values. -/
theorem lookup_insertEntry_of_ne (hne : other ≠ key) (entries : List (κ × υ)) :
    (insertEntry key value entries).lookup other = entries.lookup other := by
  have hfalse : (other == key) = false := beq_eq_false_iff_ne.2 hne
  induction entries with
  | nil => simp [insertEntry, List.lookup_cons, hfalse]
  | cons head tail ih =>
      rw [insertEntry]
      split
      · simp [List.lookup_cons, hfalse]
      · next heq =>
        obtain rfl := Std.LawfulEqOrd.eq_of_compare heq
        rw [List.lookup_cons, List.lookup_cons, hfalse]
      · rw [List.lookup_cons, List.lookup_cons, ih]

/-- An insertion under a new key adds one entry. -/
theorem insertEntry_perm {entries : List (κ × υ)} (h : entries.lookup key = none) :
    (insertEntry key value entries).Perm ((key, value) :: entries) := by
  induction entries with
  | nil => exact .refl _
  | cons head tail ih =>
      rw [insertEntry]
      split
      · exact .refl _
      · next heq =>
        obtain rfl := Std.LawfulEqOrd.eq_of_compare heq
        simp at h
      · next hgt =>
        rw [List.lookup_cons, beq_eq_false_of_compare (by simp [hgt])] at h
        exact ((ih h).cons head).trans (.swap _ _ _)

/-- An insertion under a key of the list changes no key, provided that the keys ascend. -/
theorem map_fst_insertEntry [Std.OrientedOrd κ] {entries : List (κ × υ)} (hasc : Ascending entries)
    {old : υ} (h : entries.lookup key = some old) :
    (insertEntry key value entries).map (·.1) = entries.map (·.1) := by
  induction entries with
  | nil => cases h
  | cons head tail ih =>
      obtain ⟨hhead, htail⟩ := List.pairwise_cons.1 hasc
      rw [insertEntry]
      split
      · next hlt =>
        -- the key would stand before all others, so it could not be found
        rw [List.lookup_cons, beq_eq_false_of_compare (by simp [hlt])] at h
        obtain ⟨before, after, hentries, -⟩ := List.lookup_eq_some_iff.1 h
        have hgt := Std.OrientedCmp.gt_of_lt (hhead (key, old) (by simp [hentries]))
        simp [hlt] at hgt
      · next heq =>
        obtain rfl := Std.LawfulEqOrd.eq_of_compare heq
        rfl
      · next hgt =>
        rw [List.lookup_cons, beq_eq_false_of_compare (by simp [hgt])] at h
        rw [List.map_cons, List.map_cons, ih htail h]

end Entries

namespace Keyed

variable {table : Keyed κ υ} {key other : κ} {value : υ}

/-- A value that is found in a table is listed with its key. -/
theorem mem_entries_of_get? (h : table.get? key = some value) : (key, value) ∈ table.entries := by
  obtain ⟨before, after, hentries, -⟩ := List.lookup_eq_some_iff.1 h
  simp [hentries]

/-- A value that is found in a table is one of its values. -/
theorem mem_values_of_get? (h : table.get? key = some value) : value ∈ table.values :=
  List.mem_map_of_mem (mem_entries_of_get? h)

/-- A value is found under the key that it is listed with. -/
theorem get?_of_mem [Std.LawfulEqOrd κ] (h : (key, value) ∈ table.entries) :
    table.get? key = some value := by
  obtain ⟨before, after, hentries⟩ := List.append_of_mem h
  refine List.lookup_eq_some_iff.2 ⟨before, after, hentries, fun entry hentry => ?_⟩
  have hasc := table.ascending
  rw [Ascending, hentries, List.pairwise_append] at hasc
  have hlt := hasc.2.2 entry hentry _ List.mem_cons_self
  rw [bne, Bool.not_eq_true', beq_eq_false_iff_ne]
  rintro rfl
  simp [Std.ReflCmp.compare_self] at hlt

theorem get?_eq_some_iff [Std.LawfulEqOrd κ] :
    table.get? key = some value ↔ (key, value) ∈ table.entries :=
  ⟨mem_entries_of_get?, get?_of_mem⟩

omit [BEq κ] [LawfulBEq κ] in
/-- The keys of a table differ from each other. -/
theorem keys_nodup [Std.LawfulEqOrd κ] : table.keys.Nodup := by
  unfold keys List.Nodup
  rw [List.pairwise_map]
  refine table.ascending.imp fun hlt heq => ?_
  simp [heq, Std.ReflCmp.compare_self] at hlt

/-- A key of a table has a value. -/
theorem contains_iff_mem_keys [Std.LawfulEqOrd κ] :
    table.contains key = true ↔ key ∈ table.keys := by
  unfold contains keys
  rw [Option.isSome_iff_exists, List.mem_map]
  constructor
  · rintro ⟨value, h⟩
    exact ⟨(key, value), mem_entries_of_get? h, rfl⟩
  · rintro ⟨⟨_, value⟩, h, rfl⟩
    exact ⟨value, get?_of_mem h⟩

omit [BEq κ] [LawfulBEq κ] in
/-- Two tables with the same entries in any order are equal. -/
theorem eq_of_entries_perm [Std.OrientedOrd κ] {other : Keyed κ υ}
    (h : table.entries.Perm other.entries) : table = other := by
  refine Keyed.ext (List.Perm.eq_of_pairwise ?_ table.ascending other.ascending h)
  intro first second _ _ hlt hgt
  rw [Std.OrientedCmp.gt_of_lt hlt] at hgt
  cases hgt

/-- Two tables in which the same is found under every key are equal. -/
theorem ext_get? [Std.TransOrd κ] [Std.LawfulEqOrd κ] {other : Keyed κ υ}
    (h : ∀ key, table.get? key = other.get? key) : table = other := by
  have hmem (entry : κ × υ) : entry ∈ table.entries ↔ entry ∈ other.entries :=
    ⟨fun hentry => mem_entries_of_get? ((h entry.1).symm.trans (get?_of_mem hentry)),
      fun hentry => mem_entries_of_get? ((h entry.1).trans (get?_of_mem hentry))⟩
  have hne {table : Keyed κ υ} : table.entries.Nodup :=
    List.Nodup.of_map _ table.keys_nodup
  exact eq_of_entries_perm ((List.perm_ext_iff_of_nodup hne hne).2 hmem)

/-- The values of a table are what is found under its keys. -/
theorem filterMap_get?_keys [Std.LawfulEqOrd κ] : table.keys.filterMap table.get? = table.values := by
  unfold keys values
  rw [List.filterMap_map]
  exact List.filterMap_eq_map_iff_forall_eq_some.2 fun entry hentry => get?_of_mem hentry

omit [BEq κ] [LawfulBEq κ] in
@[simp] theorem mapValues_id : mapValues id = (id : Keyed κ υ → Keyed κ υ) :=
  funext fun table => Keyed.ext (List.map_id table.entries)

omit [LawfulBEq κ] in
/-- Under a key stands what its value was changed to. -/
@[simp] theorem get?_mapValues {ω : Type} (change : υ → ω) (key : κ) :
    (table.mapValues change).get? key = (table.get? key).map change :=
  lookup_map_snd change table.entries key

section Insert

variable [Std.TransOrd κ] [Std.LawfulEqOrd κ]

@[simp] theorem get?_insert_self : (table.insert key value).get? key = some value :=
  lookup_insertEntry_self _

theorem get?_insert_of_ne (hne : other ≠ key) :
    (table.insert key value).get? other = table.get? other :=
  lookup_insertEntry_of_ne hne _

/-- An insertion under a new key adds the key. -/
theorem keys_insert_perm (h : table.get? key = none) :
    (table.insert key value).keys.Perm (key :: table.keys) :=
  (insertEntry_perm h).map _

/-- An insertion in place of a value keeps the keys. -/
theorem keys_insert_of_get? {old : υ} (h : table.get? key = some old) :
    (table.insert key value).keys = table.keys :=
  map_fst_insertEntry table.ascending h

/-- Of several values that are listed for a key the last is found. -/
theorem get?_ofList (entries : List (κ × υ)) :
    (ofList entries).get? key = entries.reverse.lookup key := by
  induction entries using List.reverseRecOn with
  | nil => rfl
  | append_singleton entries entry ih =>
      rw [ofList, List.foldl_append, List.reverse_append]
      change ((ofList entries).insert entry.1 entry.2).get? key =
        (entry :: entries.reverse).lookup key
      by_cases hkey : key = entry.1
      · subst hkey
        rw [get?_insert_self, List.lookup_cons, beq_self_eq_true]
      · rw [get?_insert_of_ne hkey, ih, List.lookup_cons, beq_eq_false_iff_ne.2 hkey]

/-- The table of entries whose keys differ has just these entries. -/
theorem entries_ofList_perm {entries : List (κ × υ)} (h : (entries.map (·.1)).Nodup) :
    (ofList entries).entries.Perm entries := by
  induction entries using List.reverseRecOn with
  | nil => exact .refl _
  | append_singleton entries entry ih =>
      rw [List.map_append, List.nodup_append] at h
      obtain ⟨hentries, -, hnew⟩ := h
      have hfree : (ofList entries).entries.lookup entry.1 = none := by
        refine List.lookup_eq_none_iff.2 fun other hother => bne_iff_ne.2 fun hsame => ?_
        have hmem : other.1 ∈ entries.map (·.1) :=
          List.mem_map_of_mem ((ih hentries).mem_iff.1 hother)
        exact hnew _ hmem entry.1 (by simp) hsame.symm
      have hlast : (ofList (entries ++ [entry])).entries =
          insertEntry entry.1 entry.2 (ofList entries).entries := by
        rw [ofList, List.foldl_append]
        rfl
      rw [hlast]
      exact (insertEntry_perm hfree).trans
        (((ih hentries).cons _).trans (List.perm_append_singleton _ _).symm)

end Insert

end Keyed

end TickScript
