import TickScript.Emission.Memory
import TickScript.Proofs.Text.Paths

/-!
# Locations of paths

A memory node writes the keys of its path as string constants in brackets. `paths_told_apart` says
that the text of a location, like any access to a path, tells the segments of the path from all
others.
-/

namespace TickScript.Kind

open TickScript.Emission TickScript.Text

namespace Location

/-- All keys of a location, each in brackets. -/
theorem toList_direct (location : Location) :
    (location.direct location.keys.length).toList =
      location.base.toList ++ location.keys.flatMap (bracketed []) := by
  have hspell : bracketed [] = fun key => ("[" ++ key ++ "]").toList := by
    funext key
    simp [bracketed]
  rw [hspell, ← toList_foldl_append]
  simp [direct, toString, String.append_assoc]

/-- All keys of a location, each in brackets behind the mark that stops at a missing part. -/
theorem toList_optional (location : Location) :
    location.optional.toList =
      location.base.toList ++ location.keys.flatMap (bracketed ['?', '.']) := by
  have hspell : bracketed ['?', '.'] = fun key => ("?.[" ++ key ++ "]").toList := by
    funext key
    simp [bracketed]
  rw [hspell, ← toList_foldl_append]
  simp [optional, toString, String.append_assoc]

variable {location other : Location} {segments segments' : List String}

/-- Locations that differ in their paths only have the same keys in brackets exactly if their paths
have the same segments. -/
theorem bracketed_eq_iff (mark : List Char) (hkeys : location.pathKeys = segments.map quote)
    (hother : other.pathKeys = segments'.map quote)
    (hscope : other.scopeKeys = location.scopeKeys) :
    location.keys.flatMap (bracketed mark) = other.keys.flatMap (bracketed mark) ↔
      segments = segments' := by
  rw [keys, keys, hscope, hkeys, hother, List.flatMap_append, List.flatMap_append,
    List.append_cancel_left_eq, List.flatMap_map, List.flatMap_map]
  exact (bracketed_injective mark).eq_iff

end Location

/-- The keys of the path of a memory node are string constants for its segments. -/
theorem Memory.pathKeys_locate (settings : Memory) (node : Node) (context : Context) :
    ((settings.locate node).run context).1.pathKeys = (splitPath settings.path).map quote := by
  unfold locate
  cases settings.scope <;> rfl

/-- Two paths give the same access below a base expression exactly if they have the same segments,
and so it is with the location of a memory node, whether it is written directly or with the marks
that stop at missing parts. Segments are not empty, have no blanks at their ends and no dots inside,
and a path can be put together from its segments. -/
theorem paths_told_apart :
    (∀ base path other : String,
      memberPath base path = memberPath base other ↔ splitPath path = splitPath other) ∧
    (∀ (settings other : Memory) (node node' : Node) (context context' : Context),
      let location := ((settings.locate node).run context).1
      let location' := ((other.locate node').run context').1
      location'.base = location.base → location'.scopeKeys = location.scopeKeys →
        (location.direct location.keys.length = location'.direct location'.keys.length ↔
          splitPath settings.path = splitPath other.path) ∧
        (location.optional = location'.optional ↔
          splitPath settings.path = splitPath other.path)) ∧
    (∀ path : String, (∀ segment ∈ splitPath path, IsSegment segment) ∧
      splitPath (".".intercalate (splitPath path)) = splitPath path) := by
  refine ⟨fun base path other => memberPath_eq_iff base, ?_, fun path => ?_⟩
  · intro settings other node node' context context' location location' hbase hscope
    have hkeys (mark : List Char) := Location.bracketed_eq_iff mark
      (settings.pathKeys_locate node context) (other.pathKeys_locate node' context') hscope
    constructor
    · rw [← String.toList_inj, Location.toList_direct, Location.toList_direct, hbase,
        List.append_cancel_left_eq]
      exact hkeys []
    · rw [← String.toList_inj, Location.toList_optional, Location.toList_optional, hbase,
        List.append_cancel_left_eq]
      exact hkeys ['?', '.']
  · have hsegments : ∀ segment ∈ splitPath path, IsSegment segment := fun _ =>
      isSegment_of_mem_splitPath
    exact ⟨hsegments, splitPath_intercalate hsegments⟩

/-- A node that reads from the memory of the room of the acting unit. -/
def roomReader (path : String) : Node := { id := "read", kind := .memoryRead { scope := .room, path } }

/-- The text of its location in an empty function. -/
def roomText (path : String) : String :=
  let settings : Memory := { scope := .room, path }
  let location := ((settings.locate (roomReader path)).run {}).1
  location.direct location.keys.length

/-- Blanks around segments and empty segments do not matter, but a bracket inside of a segment does
not make two of it. -/
theorem roomText_respelled :
    roomText "a.b\"][\"c" = "Memory[\"rooms\"][creep.room.name][\"a\"][\"b\\\"][\\\"c\"]" ∧
      roomText " a .. b\"][\"c." = roomText "a.b\"][\"c" ∧ roomText "a.b.c" ≠ roomText "a.b\"][\"c" := by
  have happly (path other : String) : roomText path = roomText other ↔
      splitPath path = splitPath other :=
    (paths_told_apart.2.1 { scope := .room, path } { scope := .room, path := other }
      (roomReader path) (roomReader other) {} {} rfl rfl).1
  refine ⟨by decide +kernel, (happly _ _).2 (by decide +kernel), fun h => ?_⟩
  exact absurd ((happly _ _).1 h) (by decide +kernel)

end TickScript.Kind
