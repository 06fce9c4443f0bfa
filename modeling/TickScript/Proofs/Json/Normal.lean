import Mathlib.Data.String.Basic
import TickScript.Proofs.Json.Proper

/-!
# Normal form of literals

What data cannot hold is lost when a literal is written as data: undefined and numbers that are not
finite become null, and of several entries for a key only the last is left. `normal` does this to a
literal, and brings the entries of maps into the order of their keys. The main statement,
`literal_round_trip`, says that writing and reading amounts to just that.
-/

namespace TickScript

/-! ## Entries in key order -/

section Entries

variable {υ ω : Type} {entries : List (String × υ)}

/-- The last entry of each key, in the order of the list. -/
def lastEntries : List (String × υ) → List (String × υ)
  | [] => []
  | entry :: entries =>
    if entry.1 ∈ entries.map (·.1) then lastEntries entries else entry :: lastEntries entries

/-- The last entry of each key, sorted by the keys. Texts are compared by their code points. -/
def inKeyOrder (entries : List (String × υ)) : List (String × υ) :=
  (lastEntries entries).mergeSort fun first second => first.1 ≤ second.1

/-- What is found from the end on is the last entry of its key. -/
theorem mem_lastEntries_iff {key : String} {value : υ} :
    (key, value) ∈ lastEntries entries ↔ entries.reverse.lookup key = some value := by
  induction entries with
  | nil => simp [lastEntries]
  | cons head tail ih =>
      obtain ⟨first, old⟩ := head
      have hlater : first ∈ tail.map (·.1) ↔ tail.reverse.lookup first ≠ none := by
        simp only [Ne, List.lookup_eq_none_iff, List.mem_reverse, List.mem_map, bne_iff_ne,
          not_forall, not_not, exists_prop, @eq_comm _ first]
      rw [List.reverse_cons, List.lookup_append, lastEntries]
      by_cases hkey : key = first
      · subst hkey
        cases hfound : tail.reverse.lookup key with
        | some last =>
            rw [if_pos (hlater.2 (by simp [hfound])), ih, hfound]
            rfl
        | none =>
            rw [if_neg fun hmem => hlater.1 hmem hfound, List.mem_cons, ih, hfound]
            simp [@eq_comm _ value]
      · have hhead : [(first, old)].lookup key = none := by simp [hkey]
        rw [hhead, Option.or_none, ← ih]
        split
        · exact Iff.rfl
        · simp [hkey]

theorem keys_lastEntries_subset (entries : List (String × υ)) :
    (lastEntries entries).map (·.1) ⊆ entries.map (·.1) := by
  induction entries with
  | nil => exact List.Subset.refl _
  | cons entry entries ih =>
      rw [lastEntries]
      split
      · exact List.subset_cons_of_subset _ ih
      · exact List.cons_subset_cons _ ih

theorem keys_lastEntries_nodup (entries : List (String × υ)) :
    ((lastEntries entries).map (·.1)).Nodup := by
  induction entries with
  | nil => exact List.nodup_nil
  | cons entry entries ih =>
      rw [lastEntries]
      split
      · exact ih
      · next hlast =>
        exact List.nodup_cons.2 ⟨fun hmem => hlast (keys_lastEntries_subset _ hmem), ih⟩

theorem ascending_inKeyOrder (entries : List (String × υ)) : Ascending (inKeyOrder entries) := by
  have hsorted : (inKeyOrder entries).Pairwise fun first second => first.1 ≤ second.1 := by
    have hbool := @List.pairwise_mergeSort (String × υ) (fun first second => first.1 ≤ second.1)
      (fun _ _ _ hle hle' =>
        decide_eq_true ((of_decide_eq_true hle).trans (of_decide_eq_true hle')))
      (fun first second => by simpa using le_total first.1 second.1) (lastEntries entries)
    exact hbool.imp of_decide_eq_true
  have hkeys : ((inKeyOrder entries).map (·.1)).Nodup :=
    (((lastEntries entries).mergeSort_perm _).map _).nodup_iff.2 (keys_lastEntries_nodup entries)
  refine (hsorted.and (List.pairwise_map.1 hkeys)).imp fun ⟨hle, hne⟩ => ?_
  exact compare_lt_iff_lt.2 (lt_of_le_of_ne hle hne)

/-- To put entries into a table one after the other brings the last of each key into key order. -/
theorem entries_ofList_eq (entries : List (String × υ)) :
    (Keyed.ofList entries).entries = inKeyOrder entries := by
  let sorted : Keyed String υ := ⟨inKeyOrder entries, ascending_inKeyOrder entries⟩
  suffices h : Keyed.ofList entries = sorted from congrArg Keyed.entries h
  refine Keyed.ext_get? fun key => Option.ext fun value => ?_
  have hperm : (inKeyOrder entries).Perm (lastEntries entries) := List.mergeSort_perm _ _
  rw [Keyed.get?_ofList, Keyed.get?_eq_some_iff, hperm.mem_iff, mem_lastEntries_iff]

theorem inKeyOrder_map_snd (change : υ → ω) (entries : List (String × υ)) :
    (inKeyOrder entries).map (fun entry => (entry.1, change entry.2)) =
      inKeyOrder (entries.map fun entry => (entry.1, change entry.2)) := by
  have htable : (Keyed.ofList entries).mapValues change =
      Keyed.ofList (entries.map fun entry => (entry.1, change entry.2)) := by
    refine Keyed.ext_get? fun key => ?_
    rw [Keyed.get?_mapValues, Keyed.get?_ofList, Keyed.get?_ofList, ← List.map_reverse,
      lookup_map_snd]
  rw [← entries_ofList_eq, ← entries_ofList_eq, ← htable]
  rfl

/-- To bring entries into key order once more changes nothing. -/
theorem inKeyOrder_inKeyOrder (entries : List (String × υ)) :
    inKeyOrder (inKeyOrder entries) = inKeyOrder entries := by
  rw [← entries_ofList_eq (inKeyOrder entries),
    Keyed.entries_ofList_of_ascending (ascending_inKeyOrder entries)]

end Entries

/-! ## Literals -/

namespace Literal

open Json (Value)

mutual

/-- The literal as data can hold it. -/
def normal : Literal → Literal
  | .undefined | .null => .null
  | .bool value => .bool value
  | .number value => if value.isFinite then .number value else .null
  | .text value => .text value
  | .list items => .list (normalItems items)
  | .map entries => .map (inKeyOrder (normalEntries entries))

/-- The items of a list as data can hold them. -/
def normalItems : List Literal → List Literal
  | [] => []
  | item :: items => normal item :: normalItems items

/-- The values of map entries as data can hold them, in the order of the entries. -/
def normalEntries : List (String × Literal) → List (String × Literal)
  | [] => []
  | (key, value) :: entries => (key, normal value) :: normalEntries entries

end

theorem toMembers_eq (entries : List (String × Literal)) :
    toMembers entries = entries.map fun entry => (entry.1, toValue entry.2) := by
  induction entries with
  | nil => rfl
  | cons entry entries ih => rw [toMembers, ih, List.map_cons]

theorem ofMembers_eq (members : List (String × Value)) :
    ofMembers members = members.map fun member => (member.1, ofValue member.2) := by
  induction members with
  | nil => rfl
  | cons member members ih => rw [ofMembers, ih, List.map_cons]

/-- A map is written as the object of the last members of each key, in the order of the keys. -/
theorem toValue_map (entries : List (String × Literal)) :
    toValue (.map entries) = .object (inKeyOrder (toMembers entries)) := by
  rw [toValue, Value.ofMembers_eq, entries_ofList_eq]

theorem ofMembers_inKeyOrder (members : List (String × Value)) :
    ofMembers (inKeyOrder members) = inKeyOrder (ofMembers members) := by
  rw [ofMembers_eq, ofMembers_eq, inKeyOrder_map_snd]

theorem toMembers_inKeyOrder (entries : List (String × Literal)) :
    toMembers (inKeyOrder entries) = inKeyOrder (toMembers entries) := by
  rw [toMembers_eq, toMembers_eq, inKeyOrder_map_snd]

mutual

/-- To write a literal and to read it again brings it into normal form. -/
theorem ofValue_toValue : ∀ literal : Literal, ofValue (toValue literal) = normal literal
  | .undefined | .null | .bool _ | .text _ => rfl
  | .number value => by
      rw [toValue, Value.ofBinary64, normal]
      split <;> rfl
  | .list items => congrArg Literal.list (ofItems_toItems items)
  | .map entries => by
      rw [toValue_map, ofValue, ofMembers_inKeyOrder, ofMembers_toMembers, normal]

theorem ofItems_toItems : ∀ items : List Literal, ofItems (toItems items) = normalItems items
  | [] => rfl
  | item :: items => by rw [toItems, ofItems, ofValue_toValue, ofItems_toItems, normalItems]

theorem ofMembers_toMembers : ∀ entries : List (String × Literal),
    ofMembers (toMembers entries) = normalEntries entries
  | [] => rfl
  | entry :: entries => by
      obtain ⟨key, value⟩ := entry
      rw [toMembers, ofMembers, ofValue_toValue, ofMembers_toMembers, normalEntries]

end

mutual

/-- A literal in normal form is written as the literal itself. -/
theorem toValue_normal : ∀ literal : Literal, toValue (normal literal) = toValue literal
  | .undefined | .null | .bool _ | .text _ => rfl
  | .number value => by
      rw [normal, toValue, Value.ofBinary64]
      split
      · next hfinite => rw [toValue, Value.ofBinary64, if_pos hfinite]
      · rfl
  | .list items => congrArg Value.array (toItems_normalItems items)
  | .map entries => by
      rw [normal, toValue_map, toMembers_inKeyOrder, inKeyOrder_inKeyOrder,
        toMembers_normalEntries, toValue_map]

theorem toItems_normalItems : ∀ items : List Literal, toItems (normalItems items) = toItems items
  | [] => rfl
  | item :: items => by rw [normalItems, toItems, toValue_normal, toItems_normalItems, toItems]

theorem toMembers_normalEntries : ∀ entries : List (String × Literal),
    toMembers (normalEntries entries) = toMembers entries
  | [] => rfl
  | entry :: entries => by
      obtain ⟨key, value⟩ := entry
      rw [normalEntries, toMembers, toValue_normal, toMembers_normalEntries, toMembers]

end

/-- To write a literal and to read it again gives its normal form. The normal form is its own normal
form, and is written as the literal itself is. A literal that was read from a proper value stays as
it is when it is written and read. -/
theorem literal_round_trip (literal : Literal) :
    ofValue (toValue literal) = literal.normal ∧
    literal.normal.normal = literal.normal ∧
    toValue literal.normal = toValue literal ∧
    ∀ value : Value, value.isProper = true → ofValue (toValue (ofValue value)) = ofValue value := by
  refine ⟨ofValue_toValue literal, ?_, toValue_normal literal,
    fun value h => (restored_ofValue h).2⟩
  calc literal.normal.normal
      = ofValue (toValue literal.normal) := (ofValue_toValue _).symm
    _ = ofValue (toValue literal) := by rw [toValue_normal]
    _ = literal.normal := ofValue_toValue literal

/-- A map with entries that are repeated, out of order and not what data can hold. -/
def untidy : Literal := .map [("zone", .number (.infinite true)), ("aim", .text "old"),
  ("zone", .list [.undefined, .map [("b", .bool true), ("a", .number .nan)]]), ("aim", .undefined)]

/-- The same as data with integers of 64 bits. -/
def counts : Value := .object [("high", .number (.integer 18446744073709551615)),
  ("low", .array [.number (.integer (-9223372036854775808)), .null])]

/-- The later entries are left and sorted, here and inside; large integers become what they are when
they are read. -/
theorem untidy_round_trip :
    ofValue (toValue untidy) = .map [("aim", .null),
      ("zone", .list [.null, .map [("a", .null), ("b", .bool true)]])] ∧
    counts.isProper = true ∧ ofValue (toValue (ofValue counts)) = ofValue counts := by
  obtain ⟨huntidy, -, -, hvalues⟩ := literal_round_trip untidy
  have hcounts : counts.isProper = true := by decide
  have hnormal : untidy.normal = .map [("aim", .null),
      ("zone", .list [.null, .map [("a", .null), ("b", .bool true)]])] := by
    simp only [untidy, normal, normalItems, normalEntries, ← entries_ofList_eq]
    rfl
  exact ⟨huntidy.trans hnormal, hcounts, hvalues counts hcounts⟩

end Literal

end TickScript
