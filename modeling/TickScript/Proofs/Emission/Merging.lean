import Mathlib.Data.List.Flatten
import Mathlib.Order.Bounds.Defs
import TickScript.Proofs.Emission.Coherence

/-!
# Aliases after a merge

`Searched` is the search for a free alias without a bound, and `newName_searched` says that it ends.
Imports that were made from nothing list every symbol once, and no alias twice. A merge goes through
the other imports in their order (`mergeUpTo`) and gives each symbol the alias `mergedName`. It keeps
all aliases of the other imports exactly if they do not clash with those that are there
(`known_merge_iff`). `built_imports_inverse` puts together what the operations on imports keep.
-/

namespace TickScript.Emission.Imports

variable {imports other middle : Imports} {module symbol localName : String} {start number : Nat}

/-! ## The search for a free alias -/

/-- The search tries the numbered names of a symbol one after the other, until it comes by a free
one. -/
inductive Searched (imports : Imports) (symbol : String) : Nat → Nat → Prop where
  | found {number : Nat} : imports.taken.get? (numbered symbol number) = none →
      Searched imports symbol number number
  | next {start number : Nat} : (imports.taken.get? (numbered symbol start)).isSome = true →
      Searched imports symbol (start + 1) number → Searched imports symbol start number

/-- The search ends at the least free number. -/
theorem Searched.isLeast (h : imports.Searched symbol start number) :
    IsLeast {number | start ≤ number ∧ imports.taken.get? (numbered symbol number) = none}
      number := by
  induction h with
  | found hfree => exact ⟨⟨Nat.le_refl _, hfree⟩, fun _ hother => hother.1⟩
  | @next start number htaken _ ih =>
      refine ⟨⟨Nat.le_of_succ_le ih.1.1, ih.1.2⟩, fun smaller hsmaller => ih.2 ⟨?_, hsmaller.2⟩⟩
      refine Nat.lt_of_le_of_ne hsmaller.1 ?_
      rintro rfl
      rw [hsmaller.2] at htaken
      cases htaken

/-- A search that has found a free name within its budget is a search without a budget. -/
theorem freeName_searched {budget : Nat}
    (h : imports.taken.get? (imports.freeName symbol budget start) = none) :
    ∃ number, number ≤ start + budget ∧ imports.Searched symbol start number ∧
      imports.freeName symbol budget start = numbered symbol number := by
  induction budget generalizing start with
  | zero => exact ⟨start, Nat.le_refl _, .found h, rfl⟩
  | succ budget ih =>
      unfold freeName at h ⊢
      split at h
      · next htaken =>
        obtain ⟨number, hbound, hsearched, hname⟩ := ih h
        refine ⟨number, by omega, .next htaken hsearched, ?_⟩
        rw [if_pos htaken, hname]
      · next hfree => exact ⟨start, by omega, .found h, if_neg hfree⟩

/-- The search for an alias ends, after no more names than there are aliases, with the alias that is
given to a new symbol. -/
theorem newName_searched (imports : Imports) (symbol : String) :
    ∃ number ≤ imports.size, imports.Searched symbol 0 number ∧
      imports.newName symbol = numbered symbol number := by
  obtain ⟨number, hbound, hsearched, hname⟩ := freeName_searched (newName_free imports symbol)
  exact ⟨number, by rwa [Nat.zero_add] at hbound, hsearched, hname⟩

/-- A new symbol keeps its name if that is free. -/
theorem newName_of_free (h : imports.taken.get? symbol = none) :
    imports.newName symbol = symbol := by
  obtain ⟨number, -, hsearched, hname⟩ := imports.newName_searched symbol
  have hzero : number ≤ 0 := hsearched.isLeast.2 ⟨Nat.le_refl 0, h⟩
  rw [hname, Nat.le_zero.1 hzero]
  rfl

/-- A new symbol whose name is not free gets the least number that gives a free name. -/
theorem newName_of_taken (h : imports.taken.get? symbol ≠ none) :
    ∃ number, imports.newName symbol = symbol ++ "_" ++ Nat.repr number ∧
      IsLeast {number | 1 ≤ number ∧
        imports.taken.get? (symbol ++ "_" ++ Nat.repr number) = none} number := by
  obtain ⟨number, -, hsearched, hname⟩ := imports.newName_searched symbol
  obtain ⟨⟨-, hfree⟩, hleast⟩ := hsearched.isLeast
  cases number with
  | zero => exact absurd hfree h
  | succ number =>
      refine ⟨number + 1, hname, ⟨Nat.succ_le_succ (Nat.zero_le _), hfree⟩,
        fun smaller hsmaller => ?_⟩
      obtain ⟨hpos, hsmaller⟩ := hsmaller
      cases smaller with
      | zero => exact absurd hpos (Nat.not_succ_le_zero 0)
      | succ smaller => exact hleast ⟨Nat.zero_le _, hsmaller⟩

/-- To ask for a symbol once more gives the same alias and changes nothing. -/
theorem require_require (imports : Imports) (symbol module : String) :
    (imports.require symbol module).2.require symbol module = imports.require symbol module := by
  have hname := localName?_require imports symbol module
  generalize imports.require symbol module = asked at hname ⊢
  unfold require
  rw [hname]

theorem known_require (imports : Imports) (symbol module : String) :
    imports.Known (imports.require symbol module).2 := fun _ _ _ => localName?_require_of_some

/-! ## The list of imports -/

/-- Every symbol is listed once. -/
theorem toList_symbols_nodup (imports : Imports) :
    (imports.toList.map fun entry => (entry.1, entry.2.1)).Nodup := by
  rw [toList, List.map_flatMap, List.nodup_flatMap]
  constructor
  · rintro ⟨module, symbols⟩ -
    have hkeys : symbols.keys.Nodup := symbols.keys_nodup
    refine List.Nodup.of_map Prod.snd ?_
    rwa [List.map_map, List.map_map]
  · have hmodules : imports.modules.keys.Nodup := imports.modules.keys_nodup
    refine (List.pairwise_map.1 hmodules).imp fun {first second} hne => ?_
    refine List.disjoint_left.2 fun names hfirst hsecond => ?_
    beta_reduce at hfirst hsecond
    rw [List.map_map, List.mem_map] at hfirst hsecond
    obtain ⟨_, -, rfl⟩ := hfirst
    obtain ⟨_, -, heq⟩ := hsecond
    exact hne (congrArg Prod.fst heq).symm

/-- The aliases of coherent imports differ from each other. -/
theorem Coherent.aliases_nodup (h : imports.Coherent) :
    (imports.toList.map fun entry => entry.2.2).Nodup := by
  refine (List.Nodup.of_map _ imports.toList_symbols_nodup).map_on ?_
  rintro ⟨module, symbol, localName⟩ hfirst ⟨module', symbol', localName'⟩ hsecond heq
  obtain rfl : localName = localName' := heq
  have hname := (h.taken_iff _ _ _).2 (mem_toList_iff.1 hfirst)
  rw [(h.taken_iff _ _ _).2 (mem_toList_iff.1 hsecond)] at hname
  cases hname
  rfl

/-- There are as many aliases as imported symbols. -/
theorem Coherent.size_eq (h : imports.Coherent) : imports.size = imports.toList.length := by
  have hkeys : imports.taken.keys.Nodup := imports.taken.keys_nodup
  have hsame (localName : String) :
      localName ∈ imports.taken.keys ↔ localName ∈ imports.toList.map fun entry => entry.2.2 := by
    rw [← Keyed.contains_iff_mem_keys, Keyed.contains, Option.isSome_iff_exists, List.mem_map]
    constructor
    · rintro ⟨⟨module, symbol⟩, htaken⟩
      exact ⟨(module, symbol, localName), mem_toList_iff.2 ((h.taken_iff _ _ _).1 htaken), rfl⟩
    · rintro ⟨⟨module, symbol, _⟩, hentry, rfl⟩
      exact ⟨(module, symbol), (h.taken_iff _ _ _).2 (mem_toList_iff.1 hentry)⟩
  have hlength := ((List.perm_ext_iff_of_nodup hkeys h.aliases_nodup).2 hsame).length_eq
  rwa [Keyed.keys, List.length_map, List.length_map] at hlength

/-! ## Merging -/

/-- The alias of a symbol that is merged: the one that it has if it is known, its alias in the
others if that is free, and a new one otherwise. -/
def mergedName (imports : Imports) (module symbol localName : String) : String :=
  match imports.localName? module symbol with
  | some given => given
  | none => if imports.taken.contains localName then imports.newName symbol else localName

theorem Known.trans (hfirst : imports.Known middle) (hlater : middle.Known other) :
    imports.Known other := fun _ _ _ hname => hlater _ _ _ (hfirst _ _ _ hname)

theorem localName?_mergeOne (imports : Imports) (module symbol localName : String) :
    (imports.mergeOne module symbol localName).localName? module symbol =
      some (imports.mergedName module symbol localName) := by
  unfold mergeOne mergedName
  cases hname : imports.localName? module symbol with
  | some given => exact hname
  | none =>
      dsimp only [Option.isSome_none]
      rw [if_neg Bool.false_ne_true]
      split
      · rw [localName?_require, require, hname]
      · simp [localName?_insert]

theorem known_mergeOne (imports : Imports) (module symbol localName : String) :
    imports.Known (imports.mergeOne module symbol localName) := by
  unfold mergeOne
  split
  · exact fun _ _ _ hname => hname
  · next hnew =>
    split
    · exact imports.known_require symbol module
    · intro module' symbol' given hgiven
      rw [localName?_insert, if_neg, hgiven]
      rintro ⟨rfl, rfl⟩
      exact hnew (by rw [hgiven]; rfl)

/-- Merges keep every alias. -/
theorem known_mergeUpTo (imports : Imports) (entries : List (String × String × String)) :
    imports.Known (imports.mergeUpTo entries) := by
  induction entries generalizing imports with
  | nil => exact fun _ _ _ hname => hname
  | cons entry entries ih => exact (imports.known_mergeOne _ _ _).trans (ih _)

/-- A symbol keeps the alias that it gets when its turn comes. -/
theorem localName?_merge {before after : List (String × String × String)}
    (h : other.toList = before ++ (module, symbol, localName) :: after) :
    (imports.merge other).localName? module symbol =
      some ((imports.mergeUpTo before).mergedName module symbol localName) := by
  have hmerge : imports.merge other =
      ((imports.mergeUpTo before).mergeOne module symbol localName).mergeUpTo after := by
    rw [merge, h, List.foldl_append]
    rfl
  rw [hmerge]
  exact known_mergeUpTo _ after _ _ _ (localName?_mergeOne _ _ _ _)

/-- What is merged under an alias has no effect on other symbols. -/
theorem localName?_mergeOne_of_ne {module' symbol' : String}
    (h : ¬(module' = module ∧ symbol' = symbol)) :
    (imports.mergeOne module symbol localName).localName? module' symbol' =
      imports.localName? module' symbol' := by
  have hinsert (given : String) : (imports.insert module symbol given).localName? module' symbol' =
      imports.localName? module' symbol' := by
    rw [localName?_insert, if_neg h]
  unfold mergeOne
  split
  · rfl
  · split
    · rw [require]
      split
      · rfl
      · exact hinsert _
    · exact hinsert _

/-- A symbol that is known after some imports have been merged was known before, or is one of
theirs. -/
theorem localName?_mergeUpTo {entries : List (String × String × String)}
    (h : (imports.mergeUpTo entries).localName? module symbol = some localName) :
    imports.localName? module symbol = some localName ∨
      ∃ entry ∈ entries, module = entry.1 ∧ symbol = entry.2.1 := by
  induction entries generalizing imports with
  | nil => exact .inl h
  | cons entry entries ih =>
      rcases ih h with hone | ⟨later, hlater, hnames⟩
      · by_cases hnames : module = entry.1 ∧ symbol = entry.2.1
        · exact .inr ⟨entry, List.mem_cons_self, hnames⟩
        · exact .inl ((localName?_mergeOne_of_ne hnames).symm.trans hone)
      · exact .inr ⟨later, List.mem_cons_of_mem _ hlater, hnames⟩

/-! ## Merges without a clash -/

/-- In imports and others taken together, no alias stands for two symbols and no symbol has two
aliases. -/
def Compatible (imports other : Imports) : Prop :=
  ∀ module symbol localName module' symbol' localName',
    imports.localName? module symbol = some localName →
      other.localName? module' symbol' = some localName' →
        (localName = localName' ↔ module = module' ∧ symbol = symbol')

instance (imports other : Imports) : Decidable (imports.Compatible other) :=
  decidable_of_iff (∀ entry ∈ imports.toList, ∀ entry' ∈ other.toList,
    (entry.2.2 = entry'.2.2 ↔ entry.1 = entry'.1 ∧ entry.2.1 = entry'.2.1))
    ⟨fun h module symbol localName module' symbol' localName' hname hname' =>
      h (module, symbol, localName) (mem_toList_iff.2 hname) (module', symbol', localName')
        (mem_toList_iff.2 hname'),
    fun h _ hentry _ hentry' =>
      h _ _ _ _ _ _ (mem_toList_iff.1 hentry) (mem_toList_iff.1 hentry')⟩

theorem Coherent.compatible (h : imports.Coherent) : imports.Compatible imports := by
  intro module symbol localName module' symbol' localName' hname hname'
  constructor
  · rintro rfl
    have htaken := (h.taken_iff _ _ _).2 hname
    rw [(h.taken_iff _ _ _).2 hname'] at htaken
    cases htaken
    exact ⟨rfl, rfl⟩
  · rintro ⟨rfl, rfl⟩
    exact Option.some.inj (hname.symm.trans hname')

/-- Imports do not clash if all their aliases are known to the same coherent imports. -/
theorem Compatible.of_known (h : middle.Coherent) (himports : imports.Known middle)
    (hother : other.Known middle) : imports.Compatible other :=
  fun _ _ _ _ _ _ hname hname' => h.compatible _ _ _ _ _ _ (himports _ _ _ hname) (hother _ _ _ hname')

/-- Without a clash, a symbol that is merged gets the alias that it has in the other imports. -/
theorem Compatible.mergedName_eq (hcompatible : imports.Compatible other) (h : imports.Coherent)
    (hname : other.localName? module symbol = some localName) :
    imports.mergedName module symbol localName = localName := by
  unfold mergedName
  split
  · next given hgiven => exact (hcompatible _ _ _ _ _ _ hgiven hname).2 ⟨rfl, rfl⟩
  · next hnew =>
    refine if_neg fun htaken => ?_
    -- The alias would stand for the symbol already, which is new.
    obtain ⟨⟨module', symbol'⟩, horigin⟩ := Option.isSome_iff_exists.1 htaken
    have hgiven := (h.taken_iff _ _ _).1 horigin
    obtain ⟨rfl, rfl⟩ := (hcompatible _ _ _ _ _ _ hgiven hname).1 rfl
    rw [hnew] at hgiven
    cases hgiven

/-- While other imports are merged, no clash arises. -/
theorem Compatible.mergeUpTo (hcompatible : imports.Compatible other) (h : imports.Coherent)
    (hother : other.Coherent) {entries : List (String × String × String)}
    (hentries : ∀ entry ∈ entries, entry ∈ other.toList) :
    (imports.mergeUpTo entries).Compatible other := by
  induction entries generalizing imports with
  | nil => exact hcompatible
  | cons entry entries ih =>
      obtain ⟨hentry, hentries⟩ := List.forall_mem_cons.1 hentries
      have hname := mem_toList_iff.1 hentry
      refine ih (fun module symbol localName module' symbol' localName' hone hname' => ?_)
        (h.mergeOne _ _ _) hentries
      by_cases hnames : module = entry.1 ∧ symbol = entry.2.1
      · obtain ⟨rfl, rfl⟩ := hnames
        rw [localName?_mergeOne, hcompatible.mergedName_eq h hname] at hone
        cases hone
        exact hother.compatible _ _ _ _ _ _ hname hname'
      · rw [localName?_mergeOne_of_ne hnames] at hone
        exact hcompatible _ _ _ _ _ _ hone hname'

/-- A merge keeps all aliases of the other imports exactly if there is no clash. -/
theorem known_merge_iff (h : imports.Coherent) (hother : other.Coherent) :
    other.Known (imports.merge other) ↔ imports.Compatible other := by
  constructor
  · exact .of_known (h.mergeUpTo _) (imports.known_mergeUpTo _)
  · intro hcompatible module symbol localName hname
    obtain ⟨before, after, hlist⟩ := List.append_of_mem
      (mem_toList_iff.2 (show other.localName? (module, symbol, localName).1 _ = _ from hname))
    have hbefore : ∀ entry ∈ before, entry ∈ other.toList := fun entry hentry =>
      hlist ▸ List.mem_append_left _ hentry
    rw [localName?_merge hlist,
      (hcompatible.mergeUpTo h hother hbefore).mergedName_eq (h.mergeUpTo _) hname]

/-- A merge gives the other imports themselves exactly if they know all aliases that are there. -/
theorem merge_eq_iff (h : imports.Coherent) (hother : other.Coherent) :
    imports.merge other = other ↔ imports.Known other := by
  constructor
  · intro heq
    have hkept := imports.known_mergeUpTo other.toList
    rwa [show imports.mergeUpTo other.toList = other from heq] at hkept
  · intro hknown
    have hkept := (known_merge_iff h hother).2 (.of_known hother hknown fun _ _ _ hname => hname)
    refine (h.merge other).ext hother fun module symbol => Option.ext fun localName =>
      ⟨fun hname => ?_, hkept module symbol localName⟩
    rcases localName?_mergeUpTo hname with hold | ⟨entry, hentry, rfl, rfl⟩
    · exact hknown _ _ _ hold
    · have hentry := mem_toList_iff.1 hentry
      rwa [hkept _ _ _ hentry, ← hentry] at hname

/-- Let imports be made from nothing by asking for symbols and by merging such imports. Then their
two tables are inverse to each other, every symbol is listed once, no two symbols have the same
alias, and there are as many aliases as symbols. No alias ever changes. The search for a new alias
ends: it gives a new symbol its name if that is free, or else its name with the least number, from
one on, that makes it free; and to ask once more changes nothing. A merge goes through the other
imports in their order and imports every symbol of them. One that is known when its turn comes keeps
the alias that it has; any other one has its alias in the other imports if that is free then, or
else a new one. -/
theorem built_imports_inverse (h : imports.Built) :
    (∀ localName module symbol, imports.taken.get? localName = some (module, symbol) ↔
      imports.localName? module symbol = some localName) ∧
    (∀ module symbol localName, (module, symbol, localName) ∈ imports.toList ↔
      imports.localName? module symbol = some localName) ∧
    (imports.toList.map fun entry => (entry.1, entry.2.1)).Nodup ∧
    (imports.toList.map fun entry => entry.2.2).Nodup ∧
    imports.size = imports.toList.length ∧
    (∀ symbol module,
      let asked := imports.require symbol module
      imports.Known asked.2 ∧ asked.2.localName? module symbol = some asked.1 ∧
      asked.2.require symbol module = asked ∧
      (∃ number ≤ imports.size, imports.Searched symbol 0 number) ∧
      (imports.localName? module symbol = none →
        (imports.taken.get? symbol = none → asked.1 = symbol) ∧
        (imports.taken.get? symbol ≠ none →
          ∃ number, asked.1 = symbol ++ "_" ++ Nat.repr number ∧
            IsLeast {number | 1 ≤ number ∧
              imports.taken.get? (symbol ++ "_" ++ Nat.repr number) = none} number))) ∧
    ∀ other : Imports, other.Built → imports.Known (imports.merge other) ∧
      ∀ module symbol localName, other.localName? module symbol = some localName →
        ∃ before after, other.toList = before ++ (module, symbol, localName) :: after ∧
          let middle := imports.mergeUpTo before
          let merged := (imports.merge other).localName? module symbol
          (∀ given, middle.localName? module symbol = some given → merged = some given) ∧
          (middle.localName? module symbol = none →
            (middle.taken.get? localName = none → merged = some localName) ∧
            (middle.taken.get? localName ≠ none → merged = some (middle.newName symbol))) := by
  refine ⟨h.coherent.taken_iff, fun _ _ _ => mem_toList_iff, imports.toList_symbols_nodup,
    h.coherent.aliases_nodup, h.coherent.size_eq, fun symbol module => ?_, fun other _ => ?_⟩
  · obtain ⟨number, hbound, hsearched, -⟩ := imports.newName_searched symbol
    refine ⟨imports.known_require symbol module, localName?_require _ _ _, require_require _ _ _,
      ⟨number, hbound, hsearched⟩, fun hnew => ?_⟩
    have halias : (imports.require symbol module).1 = imports.newName symbol := by
      rw [require, hnew]
    rw [halias]
    exact ⟨newName_of_free, newName_of_taken⟩
  · refine ⟨imports.known_mergeUpTo other.toList, fun module symbol localName hname => ?_⟩
    obtain ⟨before, after, hlist⟩ := List.append_of_mem
      (mem_toList_iff.2 (show other.localName? (module, symbol, localName).1 _ = _ from hname))
    have hmerged := @localName?_merge imports other _ _ _ _ _ hlist
    refine ⟨before, after, hlist, fun given hgiven => ?_,
      fun hnew => ⟨fun hfree => ?_, fun htaken => ?_⟩⟩
    · rw [hmerged, mergedName, hgiven]
    · rw [hmerged, mergedName, hnew, Keyed.contains, hfree]
      rfl
    · rw [hmerged, mergedName, hnew, Keyed.contains, Option.isSome_iff_ne_none.2 htaken]
      rfl

/-- Imports of two symbols, the second of which is called like a numbered name of the first. -/
def numberedSymbols : Imports :=
  (((require {} "hop" "./a").2.require "hop_1" "./b").2.require "hop_3" "./b").2

/-- Imports of two symbols of one name, and of a third one. -/
def twoHops : Imports :=
  (((require {} "hop" "./c").2.require "hop" "./a").2.require "skip" "./c").2

theorem numberedSymbols_built : numberedSymbols.Built :=
  .require _ _ (.require _ _ (.require _ _ .empty))

theorem twoHops_built : twoHops.Built := .require _ _ (.require _ _ (.require _ _ .empty))

/-- One more symbol of the name gets the number two, since the first one is the name of a symbol. Of
the symbols of the other imports one is known, one gets the next free number, and one keeps its
alias. -/
theorem numberedSymbols_inverse :
    numberedSymbols.Built ∧ twoHops.Built ∧
    numberedSymbols.taken.get? "hop_3" = some ("./b", "hop_3") ∧
    numberedSymbols.size = numberedSymbols.toList.length ∧
    (numberedSymbols.require "hop" "./d").1 = "hop_2" ∧
    (numberedSymbols.merge twoHops).localName? "./a" "hop" = some "hop" ∧
    (numberedSymbols.merge twoHops).lines = ["import \x7b hop \x7d from \"./a\";",
      "import \x7b hop_1, hop_3 \x7d from \"./b\";",
      "import \x7b hop as hop_2, skip \x7d from \"./c\";"] := by
  obtain ⟨htaken, -, -, -, hsize, -, hmerges⟩ := built_imports_inverse numberedSymbols_built
  obtain ⟨hkept, -⟩ := hmerges twoHops twoHops_built
  exact ⟨numberedSymbols_built, twoHops_built, (htaken _ _ _).2 (by decide +kernel), hsize,
    by decide +kernel, hkept _ _ _ (by decide +kernel), by decide +kernel⟩

/-- Imports that know a symbol under its name. -/
def oneHop : Imports := (require {} "hop" "./a").2

/-- A symbol that was known keeps its alias in a merge, also where its alias in the other imports is
free. -/
theorem known_symbol_keeps_alias : ¬ ∀ imports other : Imports, imports.Built → other.Built →
    ∀ module symbol localName before after,
      other.toList = before ++ (module, symbol, localName) :: after →
        (imports.mergeUpTo before).taken.get? localName = none →
          (imports.merge other).localName? module symbol = some localName := by
  intro h
  have hlist : twoHops.toList = [] ++ ("./a", "hop", "hop_1") ::
      [("./c", "hop", "hop"), ("./c", "skip", "skip")] := by decide +kernel
  have hmoved := h oneHop twoHops (.require _ _ .empty) twoHops_built _ _ _ _ _ hlist
    (by decide +kernel)
  have hkept : (oneHop.merge twoHops).localName? "./a" "hop" = some "hop" := by decide +kernel
  rw [hkept] at hmoved
  exact absurd hmoved (by decide)

end TickScript.Emission.Imports
