import Mathlib.Data.List.Nodup
import Mathlib.Data.List.Perm.Subperm
import TickScript.Proofs.Emission.Imports
import TickScript.Proofs.Text.Identifier

/-!
# Coherent imports

Imports keep the aliases of symbols and the symbols of aliases in two tables. `Coherent` says that the
two tables mirror each other, so that no alias stands for two symbols. Imports that were made from
nothing, by `Built`, are coherent. Coherent imports are known by the aliases of their symbols
(`Coherent.ext`).
-/

namespace TickScript.Emission.Imports

variable {imports other : Imports} {module symbol localName : String}

/-- The two tables of imports mirror each other, and no module is listed without a symbol. -/
structure Coherent (imports : Imports) : Prop where
  taken_iff : ∀ localName module symbol, imports.taken.get? localName = some (module, symbol) ↔
    imports.localName? module symbol = some localName
  inhabited : ∀ module symbols, imports.modules.get? module = some symbols →
    ∃ symbol, (symbols.get? symbol).isSome = true

/-- All aliases of imports are aliases of others. -/
def Known (imports other : Imports) : Prop :=
  ∀ module symbol localName, imports.localName? module symbol = some localName →
    other.localName? module symbol = some localName

/-- Imports that were made from nothing by asking for symbols and by merging. -/
inductive Built : Imports → Prop where
  | empty : Built {}
  | require {imports : Imports} (symbol module : String) :
      Built imports → Built (imports.require symbol module).2
  | merge {imports other : Imports} : Built imports → Built other → Built (imports.merge other)

/-! ## One more import -/

/-- The alias of the symbol that is imported, and those of the other symbols. -/
theorem localName?_insert (imports : Imports) (module symbol localName module' symbol' : String) :
    (imports.insert module symbol localName).localName? module' symbol' =
      if module' = module ∧ symbol' = symbol then some localName
      else imports.localName? module' symbol' := by
  unfold localName? insert
  by_cases hmodule : module' = module
  · subst hmodule
    rw [Keyed.get?_insert_self]
    change ((imports.modules.get? module').getD .empty |>.insert symbol localName).get? symbol' = _
    by_cases hsymbol : symbol' = symbol
    · subst hsymbol
      rw [Keyed.get?_insert_self, if_pos ⟨rfl, rfl⟩]
    · rw [Keyed.get?_insert_of_ne hsymbol, if_neg fun h => hsymbol h.2]
      cases imports.modules.get? module' <;> rfl
  · rw [Keyed.get?_insert_of_ne hmodule, if_neg fun h => hmodule h.1]

theorem taken_insert (imports : Imports) (module symbol localName : String) :
    (imports.insert module symbol localName).taken = imports.taken.insert localName (module, symbol) :=
  rfl

/-- An import under a free alias keeps the tables coherent. -/
theorem Coherent.insert (h : imports.Coherent) (hnew : imports.localName? module symbol = none)
    (hfree : imports.taken.get? localName = none) :
    (imports.insert module symbol localName).Coherent := by
  constructor
  · intro given module' symbol'
    rw [localName?_insert, taken_insert]
    by_cases hgiven : given = localName
    · subst hgiven
      rw [Keyed.get?_insert_self]
      -- Only the new symbol can have the alias, which was free before.
      have hother : imports.localName? module' symbol' ≠ some given := fun hsame => by
        rw [(h.taken_iff given module' symbol').2 hsame] at hfree
        cases hfree
      split
      · next hsame => simp [hsame]
      · next hne =>
        refine iff_of_false (fun heq => hne ?_) hother
        cases heq
        exact ⟨rfl, rfl⟩
    · rw [Keyed.get?_insert_of_ne hgiven, h.taken_iff]
      split
      · next hsame =>
        obtain ⟨rfl, rfl⟩ := hsame
        simp [hnew, Ne.symm hgiven]
      · exact Iff.rfl
  · intro module' symbols hsymbols
    by_cases hmodule : module' = module
    · subst hmodule
      rw [Imports.insert, Keyed.get?_insert_self] at hsymbols
      cases hsymbols
      exact ⟨symbol, by simp⟩
    · rw [Imports.insert, Keyed.get?_insert_of_ne hmodule] at hsymbols
      exact h.inhabited module' symbols hsymbols

/-! ## Free aliases -/

/-- The numbered names of a symbol differ from each other. -/
theorem numbered_injective (symbol : String) : Function.Injective (numbered symbol) := by
  have hbare (number : Nat) : symbol ≠ symbol ++ "_" ++ Nat.repr (number + 1) := fun heq => by
    have hlength := congrArg (·.toList.length) heq
    simp at hlength
  intro first second heq
  cases first with
  | zero =>
      cases second with
      | zero => rfl
      | succ second => exact (hbare second heq).elim
  | succ first =>
      cases second with
      | zero => exact (hbare first heq.symm).elim
      | succ second => 
          have hsucc : first + 1 = second + 1 := Text.repr_injective ((String.append_right_inj _).1 heq)
          omega

/-- The search for a free name finds one if it comes by one. -/
theorem freeName_free (imports : Imports) (symbol : String) (budget start number : Nat)
    (hstart : start ≤ number) (hbudget : number ≤ start + budget)
    (hfree : imports.taken.get? (numbered symbol number) = none) :
    imports.taken.get? (imports.freeName symbol budget start) = none := by
  induction budget generalizing start with
  | zero =>
      obtain rfl : start = number := by omega
      exact hfree
  | succ budget ih =>
      unfold freeName
      split
      · next htaken =>
        have hne : start ≠ number := by
          rintro rfl
          simp [Keyed.contains, hfree] at htaken
        exact ih (start + 1) (by omega) (by omega)
      · next hfound => simpa [Keyed.contains] using hfound

/-- The alias for a new symbol is free: there are more numbered names than aliases. -/
theorem newName_free (imports : Imports) (symbol : String) :
    imports.taken.get? (imports.newName symbol) = none := by
  by_contra hnone
  have htaken (number : Nat) (hnumber : number ≤ imports.taken.size) :
      numbered symbol number ∈ imports.taken.keys := by
    rw [← Keyed.contains_iff_mem_keys, Keyed.contains, Option.isSome_iff_ne_none]
    intro hfree
    exact hnone (freeName_free imports symbol _ 0 number (Nat.zero_le _) (by omega) hfree)
  have hnodup : ((List.range (imports.taken.size + 1)).map (numbered symbol)).Nodup :=
    List.nodup_range.map (numbered_injective symbol)
  have hsubset : (List.range (imports.taken.size + 1)).map (numbered symbol) ⊆ imports.taken.keys := by
    intro name hname
    obtain ⟨number, hnumber, rfl⟩ := List.mem_map.1 hname
    exact htaken number (by have := List.mem_range.1 hnumber; omega)
  have hlength := (List.subperm_of_subset hnodup hsubset).length_le
  simp only [List.length_map, List.length_range, Keyed.keys, Keyed.size] at hlength
  omega

/-! ## Asking for symbols -/

/-- The alias that is given for a symbol is its alias from then on. -/
theorem localName?_require (imports : Imports) (symbol module : String) :
    (imports.require symbol module).2.localName? module symbol =
      some (imports.require symbol module).1 := by
  unfold Imports.require
  split
  · assumption
  · simp [localName?_insert]

/-- Aliases are kept when a symbol is asked for. -/
theorem localName?_require_of_some {module' symbol' : String}
    (h : imports.localName? module symbol = some localName) :
    (imports.require symbol' module').2.localName? module symbol = some localName := by
  unfold Imports.require
  split
  · exact h
  · next hnew =>
    rw [localName?_insert, if_neg, h]
    rintro ⟨rfl, rfl⟩
    simp [hnew] at h

theorem Coherent.require (h : imports.Coherent) (symbol module : String) :
    (imports.require symbol module).2.Coherent := by
  unfold Imports.require
  split
  · exact h
  · next hnew => exact h.insert hnew (newName_free imports symbol)

/-! ## Merging -/

theorem Coherent.mergeOne (h : imports.Coherent) (module symbol localName : String) :
    (imports.mergeOne module symbol localName).Coherent := by
  unfold Imports.mergeOne
  split
  · exact h
  · next hnew =>
    split
    · exact h.require symbol module
    · next hfree =>
      exact h.insert (by simpa using hnew) (by simpa [Keyed.contains] using hfree)

/-- The imports after some imports of others have been merged, one after the other. -/
def mergeUpTo (imports : Imports) (entries : List (String × String × String)) : Imports :=
  entries.foldl
    (fun imports (module, symbol, localName) => imports.mergeOne module symbol localName) imports

theorem Coherent.mergeUpTo (h : imports.Coherent) (entries : List (String × String × String)) :
    (imports.mergeUpTo entries).Coherent := by
  induction entries generalizing imports with
  | nil => exact h
  | cons entry entries ih => exact ih (h.mergeOne _ _ _)

theorem Coherent.merge (h : imports.Coherent) (other : Imports) :
    (imports.merge other).Coherent :=
  h.mergeUpTo other.toList

/-- Imports that were made from nothing are coherent. -/
theorem Built.coherent (h : imports.Built) : imports.Coherent := by
  induction h with
  | empty => exact ⟨fun _ _ _ => iff_of_false nofun nofun, nofun⟩
  | require symbol module _ ih => exact ih.require symbol module
  | merge _ _ ih _ => exact ih.merge _

/-- Coherent imports are known by their aliases. -/
theorem Coherent.ext (h : imports.Coherent) (hother : other.Coherent)
    (hsame : ∀ module symbol, imports.localName? module symbol = other.localName? module symbol) :
    imports = other := by
  have hmodules : imports.modules = other.modules := by
    refine Keyed.ext_get? fun module => ?_
    have hsymbols (symbol : String) : ((imports.modules.get? module).bind (·.get? symbol)) =
        (other.modules.get? module).bind (·.get? symbol) := hsame module symbol
    cases hleft : imports.modules.get? module with
    | none =>
        cases hright : other.modules.get? module with
        | none => rfl
        | some right =>
            obtain ⟨symbol, hsome⟩ := hother.inhabited module right hright
            have hnone := hsymbols symbol
            rw [hleft, hright] at hnone
            rw [← show none = right.get? symbol from hnone] at hsome
            cases hsome
    | some left =>
        cases hright : other.modules.get? module with
        | none =>
            obtain ⟨symbol, hsome⟩ := h.inhabited module left hleft
            have hnone := hsymbols symbol
            rw [hleft, hright] at hnone
            rw [show left.get? symbol = none from hnone] at hsome
            cases hsome
        | some right =>
            have htable : left = right := Keyed.ext_get? fun symbol => by
              simpa [hleft, hright] using hsymbols symbol
            rw [htable]
  have htaken : imports.taken = other.taken := by
    refine Keyed.ext_get? fun localName => Option.ext fun origin => ?_
    rw [h.taken_iff localName origin.1 origin.2, hother.taken_iff localName origin.1 origin.2, hsame]
  cases imports
  cases other
  cases hmodules
  cases htaken
  rfl

end TickScript.Emission.Imports
