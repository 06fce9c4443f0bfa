import TickScript.Proofs.Emission.Coherence
import TickScript.Proofs.Emission.Parallel

/-!
# Imports from the library

Statements of built-in kinds import library functions only, and no two of these have one name. So a
library function is always imported under its own name, whatever was imported before it, and imports
from the library are a set of functions: `Standard.require_fst` and `has_require` say so of one more
function, `Standard.merge` and `Standard.has_merge` of merged imports.
-/

namespace TickScript.Emission.Imports

variable {imports other : Imports} {module symbol localName : String}

/-- A symbol of a module is imported. -/
def Has (imports : Imports) (module symbol : String) : Prop :=
  (imports.localName? module symbol).isSome = true

instance (imports : Imports) (module symbol : String) : Decidable (imports.Has module symbol) :=
  inferInstanceAs (Decidable ((imports.localName? module symbol).isSome = true))

/-- Only library functions are imported, each under its own name. -/
structure Standard (imports : Imports) : Prop where
  coherent : imports.Coherent
  named : ∀ module symbol localName, imports.localName? module symbol = some localName →
    localName = symbol ∧ (symbol, module) ∈ library

/-- The module of a library function is known from its name. -/
theorem library_injective {module' : String} (h : (symbol, module) ∈ library)
    (h' : (symbol, module') ∈ library) : module = module' := by
  simp only [library, List.mem_cons, List.not_mem_nil, or_false, Prod.mk.injEq] at h h'
  rcases h with ⟨rfl, rfl⟩ | ⟨rfl, rfl⟩ | ⟨rfl, rfl⟩ <;> simp_all

theorem not_has_empty (module symbol : String) : ¬ Has {} module symbol := nofun

/-- Nothing is imported. -/
theorem Standard.empty : Standard {} := ⟨Built.empty.coherent, nofun⟩

namespace Standard

/-- The alias of a function that is imported is its name. -/
theorem localName?_eq (h : imports.Standard) (hhas : imports.Has module symbol) :
    imports.localName? module symbol = some symbol := by
  obtain ⟨localName, hname⟩ := Option.isSome_iff_exists.1 hhas
  rw [hname, (h.named _ _ _ hname).1]

theorem localName?_eq_some_iff (h : imports.Standard) :
    imports.localName? module symbol = some localName ↔
      localName = symbol ∧ imports.Has module symbol := by
  constructor
  · intro hname
    exact ⟨(h.named _ _ _ hname).1, Option.isSome_iff_exists.2 ⟨_, hname⟩⟩
  · rintro ⟨rfl, hhas⟩
    exact h.localName?_eq hhas

/-- Imports from the library are known by the functions that are imported. -/
theorem ext (h : imports.Standard) (hother : other.Standard)
    (hsame : ∀ module symbol, imports.Has module symbol ↔ other.Has module symbol) :
    imports = other := by
  refine h.coherent.ext hother.coherent fun module symbol => ?_
  by_cases hhas : imports.Has module symbol
  · rw [h.localName?_eq hhas, hother.localName?_eq ((hsame _ _).1 hhas)]
  · have hnone : imports.localName? module symbol = none := by simpa [Has] using hhas
    have hnone' : other.localName? module symbol = none := by
      simpa [Has] using fun hother => hhas ((hsame _ _).2 hother)
    rw [hnone, hnone']

/-- The name of a library function is free until the function is imported. -/
theorem taken_eq_none (h : imports.Standard) (hlibrary : (symbol, module) ∈ library)
    (hnew : ¬ imports.Has module symbol) : imports.taken.get? symbol = none := by
  cases htaken : imports.taken.get? symbol with
  | none => rfl
  | some origin =>
      have hname := (h.coherent.taken_iff symbol origin.1 origin.2).1 htaken
      obtain ⟨hsymbol, horigin⟩ := h.named _ _ _ hname
      rw [← hsymbol] at hname horigin
      rw [library_injective horigin hlibrary] at hname
      exact absurd (Option.isSome_iff_exists.2 ⟨_, hname⟩) hnew

/-- A new library function is imported under its name. -/
theorem newName_eq (h : imports.Standard) (hlibrary : (symbol, module) ∈ library)
    (hnew : ¬ imports.Has module symbol) : imports.newName symbol = symbol := by
  have hfree := h.taken_eq_none hlibrary hnew
  unfold newName
  cases imports.taken.size with
  | zero => rfl
  | succ budget =>
      unfold freeName
      exact if_neg (by simp [numbered, Keyed.contains, hfree])

/-- The imports after one more library function. -/
theorem require_eq (h : imports.Standard) (hlibrary : (symbol, module) ∈ library) :
    imports.require symbol module =
      (symbol, if imports.Has module symbol then imports else imports.insert module symbol symbol) := by
  unfold Imports.require
  by_cases hhas : imports.Has module symbol
  · rw [h.localName?_eq hhas, if_pos hhas]
  · have hnone : imports.localName? module symbol = none := by simpa [Has] using hhas
    simp only [hnone, h.newName_eq hlibrary hhas, if_neg hhas]

/-- A library function is called by its name. -/
theorem require_fst (h : imports.Standard) (hlibrary : (symbol, module) ∈ library) :
    (imports.require symbol module).1 = symbol := by
  rw [h.require_eq hlibrary]

/-- One more library function is imported, and nothing else. -/
theorem has_require (h : imports.Standard) (hlibrary : (symbol, module) ∈ library)
    (module' symbol' : String) : (imports.require symbol module).2.Has module' symbol' ↔
      (module' = module ∧ symbol' = symbol) ∨ imports.Has module' symbol' := by
  rw [h.require_eq hlibrary]
  by_cases hhas : imports.Has module symbol
  · rw [if_pos hhas]
    refine ⟨.inr, ?_⟩
    rintro (⟨rfl, rfl⟩ | hhas')
    · exact hhas
    · exact hhas'
  · rw [if_neg hhas]
    unfold Has
    rw [localName?_insert]
    split
    · next hsame => simp [hsame]
    · next hne => simp [hne]

theorem require (h : imports.Standard) (hlibrary : (symbol, module) ∈ library) :
    (imports.require symbol module).2.Standard := by
  refine ⟨h.coherent.require symbol module, ?_⟩
  rw [h.require_eq hlibrary]
  intro module' symbol' localName hname
  by_cases hhas : imports.Has module symbol
  · rw [if_pos hhas] at hname
    exact h.named _ _ _ hname
  · rw [if_neg hhas, localName?_insert] at hname
    split at hname
    · next hsame =>
      cases hname
      exact ⟨hsame.2.symm, hsame.1 ▸ hsame.2 ▸ hlibrary⟩
    · exact h.named _ _ _ hname

/-- A library function is merged as if it had been asked for. -/
theorem mergeOne_eq (h : imports.Standard) (hlibrary : (symbol, module) ∈ library) :
    imports.mergeOne module symbol symbol = (imports.require symbol module).2 := by
  unfold Imports.mergeOne
  rw [h.require_eq hlibrary]
  by_cases hhas : imports.Has module symbol
  · rw [if_pos hhas]
    exact if_pos hhas
  · have hfree := h.taken_eq_none hlibrary hhas
    rw [if_neg hhas]
    refine (if_neg hhas).trans ?_
    exact if_neg (by simp [Keyed.contains, hfree])

/-- Library functions that are merged one after the other are imported together with those before. -/
theorem foldl_mergeOne (h : imports.Standard) (entries : List (String × String × String))
    (hentries : ∀ entry ∈ entries, entry.2.2 = entry.2.1 ∧ (entry.2.1, entry.1) ∈ library) :
    let merged := entries.foldl
      (fun imports (module, symbol, localName) => imports.mergeOne module symbol localName) imports
    merged.Standard ∧ ∀ module symbol, merged.Has module symbol ↔
      imports.Has module symbol ∨ ∃ localName, (module, symbol, localName) ∈ entries := by
  induction entries generalizing imports with
  | nil => exact ⟨h, by simp⟩
  | cons entry entries ih =>
      obtain ⟨module, symbol, localName⟩ := entry
      obtain ⟨⟨hname, hlibrary⟩, hrest⟩ := List.forall_mem_cons.1 hentries
      obtain rfl : localName = symbol := hname
      obtain ⟨hmerged, hhas⟩ := ih (h.mergeOne_eq hlibrary ▸ h.require hlibrary) hrest
      refine ⟨hmerged, fun module' symbol' => ?_⟩
      rw [List.foldl_cons, hhas, h.mergeOne_eq hlibrary, h.has_require hlibrary]
      constructor
      · rintro ((⟨rfl, rfl⟩ | hold) | ⟨given, hgiven⟩)
        · exact .inr ⟨_, List.mem_cons_self⟩
        · exact .inl hold
        · exact .inr ⟨given, List.mem_cons_of_mem _ hgiven⟩
      · rintro (hold | ⟨given, hgiven⟩)
        · exact .inl (.inr hold)
        · rcases List.mem_cons.1 hgiven with heq | hgiven
          · cases heq
            exact .inl (.inl ⟨rfl, rfl⟩)
          · exact .inr ⟨given, hgiven⟩

/-- Merged imports from the library. -/
theorem merge_spec (h : imports.Standard) (hother : other.Standard) :
    (imports.merge other).Standard ∧ ∀ module symbol, (imports.merge other).Has module symbol ↔
      imports.Has module symbol ∨ other.Has module symbol := by
  obtain ⟨hmerged, hhas⟩ := h.foldl_mergeOne other.toList fun entry hentry =>
    hother.named _ _ _ (mem_toList_iff.1 hentry)
  refine ⟨hmerged, fun module symbol => (hhas module symbol).trans (or_congr_right ?_)⟩
  rw [Has, Option.isSome_iff_exists]
  exact exists_congr fun localName => mem_toList_iff

theorem merge (h : imports.Standard) (hother : other.Standard) : (imports.merge other).Standard :=
  (h.merge_spec hother).1

/-- Merged imports are the union. -/
theorem has_merge (h : imports.Standard) (hother : other.Standard) (module symbol : String) :
    (imports.merge other).Has module symbol ↔
      imports.Has module symbol ∨ other.Has module symbol :=
  (h.merge_spec hother).2 module symbol

end Standard

end TickScript.Emission.Imports
