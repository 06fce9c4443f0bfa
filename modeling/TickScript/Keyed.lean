/-!
# Tables in key order

A table holds at most one value for a key and lists its entries in increasing order of the keys.
The order is part of the type: two tables with the same values are equal. `insertEntry` is the
operation on plain entry lists, which objects of data files share.
-/

namespace TickScript

variable {κ υ : Type}

/-- Put a value under a key of an ascending entry list, in place of any earlier value. -/
def insertEntry [Ord κ] (key : κ) (value : υ) : List (κ × υ) → List (κ × υ)
  | [] => [(key, value)]
  | entry :: entries =>
    match compare key entry.1 with
    | .lt => (key, value) :: entry :: entries
    | .eq => (key, value) :: entries
    | .gt => entry :: insertEntry key value entries

/-- The keys increase strictly from entry to entry. -/
def Ascending [Ord κ] (entries : List (κ × υ)) : Prop :=
  entries.Pairwise fun first second => compare first.1 second.1 = .lt

/-- The entries after an insertion are the new one and some of the old ones. -/
theorem mem_insertEntry [Ord κ] {key : κ} {value : υ} {entry : κ × υ} {entries : List (κ × υ)}
    (h : entry ∈ insertEntry key value entries) : entry = (key, value) ∨ entry ∈ entries := by
  induction entries with
  | nil => simpa [insertEntry] using h
  | cons head tail ih =>
    rw [insertEntry] at h
    split at h
    · simpa using h
    · rcases List.mem_cons.1 h with rfl | h
      · exact .inl rfl
      · exact .inr (List.mem_cons_of_mem _ h)
    · rcases List.mem_cons.1 h with rfl | h
      · exact .inr List.mem_cons_self
      · exact (ih h).imp id (List.mem_cons_of_mem _)

/-- Inserting an entry keeps the keys ascending. -/
theorem Ascending.insertEntry [Ord κ] [Std.TransOrd κ] [Std.LawfulEqOrd κ] {entries : List (κ × υ)}
    (h : Ascending entries) (key : κ) (value : υ) :
    Ascending (insertEntry key value entries) := by
  induction entries with
  | nil => exact List.pairwise_singleton _ _
  | cons head tail ih =>
    obtain ⟨hhead, htail⟩ := List.pairwise_cons.1 h
    rw [TickScript.insertEntry]
    split
    · next hlt =>
      refine List.pairwise_cons.2 ⟨fun entry hentry => ?_, h⟩
      rcases List.mem_cons.1 hentry with rfl | hentry
      · exact hlt
      · exact Std.TransCmp.lt_trans hlt (hhead entry hentry)
    · next heq =>
      obtain rfl := Std.LawfulEqOrd.eq_of_compare heq
      exact List.pairwise_cons.2 ⟨hhead, htail⟩
    · next hgt =>
      refine List.pairwise_cons.2 ⟨fun entry hentry => ?_, ih htail⟩
      rcases mem_insertEntry hentry with rfl | hentry
      · exact Std.OrientedCmp.lt_of_gt hgt
      · exact hhead entry hentry

/-- A table whose entries are listed in increasing order of their keys. -/
structure Keyed (κ υ : Type) [Ord κ] where
  entries : List (κ × υ)
  ascending : Ascending entries

namespace Keyed

variable [Ord κ]

/-- Two tables with the same entries are equal. -/
@[ext] theorem ext {table other : Keyed κ υ} (h : table.entries = other.entries) :
    table = other := by
  cases table; cases other; cases h; rfl

/-- The table without entries. -/
def empty : Keyed κ υ := ⟨[], List.Pairwise.nil⟩

instance : EmptyCollection (Keyed κ υ) := ⟨empty⟩

instance : Inhabited (Keyed κ υ) := ⟨empty⟩

/-- The value under a key. -/
def get? [BEq κ] (table : Keyed κ υ) (key : κ) : Option υ :=
  table.entries.lookup key

/-- Whether the table has a value under a key. -/
def contains [BEq κ] (table : Keyed κ υ) (key : κ) : Bool :=
  (table.get? key).isSome

/-- Put a value under a key, in place of any earlier one. -/
def insert [Std.TransOrd κ] [Std.LawfulEqOrd κ] (table : Keyed κ υ) (key : κ) (value : υ) :
    Keyed κ υ :=
  ⟨insertEntry key value table.entries, table.ascending.insertEntry key value⟩

/-- The keys in increasing order. -/
def keys (table : Keyed κ υ) : List κ := table.entries.map (·.1)

/-- The values in the order of their keys. -/
def values (table : Keyed κ υ) : List υ := table.entries.map (·.2)

/-- The number of entries. -/
def size (table : Keyed κ υ) : Nat := table.entries.length

/-- Whether the table has no entries. -/
def isEmpty (table : Keyed κ υ) : Bool := table.entries.isEmpty

/-- The table of a list of entries; of several values for a key the last is kept. -/
def ofList [Std.TransOrd κ] [Std.LawfulEqOrd κ] (entries : List (κ × υ)) : Keyed κ υ :=
  entries.foldl (fun table entry => table.insert entry.1 entry.2) empty

/-- Change every value and keep the keys. -/
def mapValues {ω : Type} (change : υ → ω) (table : Keyed κ υ) : Keyed κ ω :=
  ⟨table.entries.map fun entry => (entry.1, change entry.2), by
    unfold Ascending
    rw [List.pairwise_map]
    exact table.ascending⟩

instance [BEq κ] [BEq υ] : BEq (Keyed κ υ) := ⟨fun table other => table.entries == other.entries⟩

end Keyed

end TickScript
