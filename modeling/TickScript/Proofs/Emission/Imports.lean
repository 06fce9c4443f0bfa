import TickScript.Emission.Imports
import TickScript.Proofs.Keyed

/-!
# Aliases of imports

The alias of a symbol is its name, with or without a number behind it. What holds of every import, by
`Each`, is kept by imports of further symbols and by merges. `Within` says of all imports what their
aliases are like, together with a bound on what is imported.
-/

namespace TickScript.Emission.Imports

variable {imports other : Imports} {symbols : List String} {module symbol localName : String}

/-- A symbol is listed with its alias. -/
theorem mem_toList_iff {entry : String × String × String} :
    entry ∈ imports.toList ↔ imports.localName? entry.1 entry.2.1 = some entry.2.2 := by
  obtain ⟨module, symbol, localName⟩ := entry
  constructor
  · intro h
    obtain ⟨⟨_, symbols⟩, hsymbols, hentry⟩ := List.mem_flatMap.1 h
    obtain ⟨⟨_, _⟩, hname, heq⟩ := List.mem_map.1 hentry
    cases heq
    exact Option.bind_eq_some_iff.2 ⟨symbols, Keyed.get?_of_mem hsymbols, Keyed.get?_of_mem hname⟩
  · intro h
    obtain ⟨symbols, hsymbols, hname⟩ := Option.bind_eq_some_iff.1 h
    exact List.mem_flatMap.2 ⟨(module, symbols), Keyed.mem_entries_of_get? hsymbols,
      List.mem_map.2 ⟨(symbol, localName), Keyed.mem_entries_of_get? hname, rfl⟩⟩

/-- The imports after one more are that one and some of the old ones. -/
theorem mem_toList_insert {entry : String × String × String}
    (h : entry ∈ (imports.insert module symbol localName).toList) :
    entry = (module, symbol, localName) ∨ entry ∈ imports.toList := by
  obtain ⟨⟨key, table⟩, htable, hentry⟩ := List.mem_flatMap.1 h
  obtain ⟨⟨name, given⟩, hname, rfl⟩ := List.mem_map.1 hentry
  have hold {table : Keyed String String} (hkey : (key, table) ∈ imports.modules.entries)
      (hname : (name, given) ∈ table.entries) : (key, name, given) ∈ imports.toList :=
    List.mem_flatMap.2 ⟨(key, table), hkey, List.mem_map.2 ⟨(name, given), hname, rfl⟩⟩
  rcases mem_insertEntry htable with heq | htable
  · cases heq
    rcases mem_insertEntry hname with heq | hname
    · cases heq
      exact .inl rfl
    · -- The symbols of the module before, if it had any.
      cases hmodule : imports.modules.get? module with
      | none =>
          rw [hmodule] at hname
          cases hname
      | some symbols =>
          rw [hmodule] at hname
          exact .inr (hold (Keyed.mem_entries_of_get? hmodule) hname)
  · exact .inr (hold htable hname)

/-- The alias that is found for a new symbol is its name, or a number is behind it. -/
theorem freeName_numbered (imports : Imports) (symbol : String) (budget start : Nat) :
    ∃ number, imports.freeName symbol budget start = numbered symbol number := by
  induction budget generalizing start with
  | zero => exact ⟨start, rfl⟩
  | succ budget ih =>
      unfold freeName
      split
      · exact ih (start + 1)
      · exact ⟨start, rfl⟩

theorem newName_numbered (imports : Imports) (symbol : String) :
    ∃ number, imports.newName symbol = numbered symbol number :=
  imports.freeName_numbered symbol _ _

/-! ## What holds of every import -/

/-- Something holds of every import, given by its module, its symbol and its alias. -/
def Each (holds : String → String → String → Prop) (imports : Imports) : Prop :=
  ∀ entry ∈ imports.toList, holds entry.1 entry.2.1 entry.2.2

section Each

variable {holds : String → String → String → Prop}

theorem Each.empty (holds : String → String → String → Prop) : Each holds {} := fun _ h => nomatch h

theorem Each.insert (h : imports.Each holds) (hnew : holds module symbol localName) :
    (imports.insert module symbol localName).Each holds := by
  intro entry hentry
  rcases mem_toList_insert hentry with rfl | hentry
  · exact hnew
  · exact h entry hentry

theorem Each.require (h : imports.Each holds)
    (hnew : ∀ number, holds module symbol (numbered symbol number)) :
    (imports.require symbol module).2.Each holds := by
  unfold Imports.require
  split
  · exact h
  · obtain ⟨number, hname⟩ := imports.newName_numbered symbol
    exact h.insert (hname ▸ hnew number)

/-- It holds of the alias that is given for a symbol. -/
theorem Each.alias (h : imports.Each holds)
    (hnew : ∀ number, holds module symbol (numbered symbol number)) :
    holds module symbol (imports.require symbol module).1 := by
  unfold Imports.require
  split
  · next localName hname => exact h (module, symbol, localName) (mem_toList_iff.2 hname)
  · obtain ⟨number, hname⟩ := imports.newName_numbered symbol
    change holds module symbol (imports.newName symbol)
    exact hname ▸ hnew number

theorem Each.mergeOne (h : imports.Each holds) (hold : holds module symbol localName)
    (hnew : ∀ number, holds module symbol (numbered symbol number)) :
    (imports.mergeOne module symbol localName).Each holds := by
  unfold Imports.mergeOne
  split
  · exact h
  · split
    · exact h.require hnew
    · exact h.insert hold

/-- Merged imports have nothing that was in neither, but for new aliases of the same symbols. -/
theorem Each.merge (h : imports.Each holds) (hother : other.Each holds)
    (hnew : ∀ module symbol localName, holds module symbol localName →
      ∀ number, holds module symbol (numbered symbol number)) :
    (imports.merge other).Each holds := by
  unfold Each at hother
  unfold Imports.merge
  generalize other.toList = entries at hother ⊢
  induction entries generalizing imports with
  | nil => exact h
  | cons entry entries ih =>
      obtain ⟨hentry, hentries⟩ := List.forall_mem_cons.1 hother
      exact ih (h.mergeOne hentry (hnew _ _ _ hentry)) hentries

end Each

/-! ## Bounds on imports -/

/-- Only the given symbols are imported, each under its name or under its name with a number. -/
def Within (symbols : List String) (imports : Imports) : Prop :=
  ∀ entry ∈ imports.toList, entry.2.1 ∈ symbols ∧ ∃ number, entry.2.2 = numbered entry.2.1 number

theorem Within.empty (symbols : List String) : Within symbols {} := fun _ h => nomatch h

theorem within_iff_each : imports.Within symbols ↔ imports.Each fun _ symbol localName =>
    symbol ∈ symbols ∧ ∃ number, localName = numbered symbol number :=
  .rfl

theorem Within.require (h : imports.Within symbols) (hsymbol : symbol ∈ symbols) :
    (imports.require symbol module).2.Within symbols :=
  within_iff_each.2 <| (within_iff_each.1 h).require fun number => ⟨hsymbol, number, rfl⟩

/-- Merged imports stay within the same symbols. -/
theorem Within.merge (h : imports.Within symbols) (hother : other.Within symbols) :
    (imports.merge other).Within symbols :=
  within_iff_each.2 <| (within_iff_each.1 h).merge (within_iff_each.1 hother)
    fun _ _ _ hentry number => ⟨hentry.1, number, rfl⟩

end TickScript.Emission.Imports
