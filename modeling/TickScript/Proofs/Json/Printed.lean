import TickScript.Proofs.Json.Scanned

/-!
# Values that are read as they were written

The text of a value has a line for each item and each member. Whatever follows it, the reader takes
just this text and makes the draft of the value of it (`reads_of_isWhole`), if all numbers of the value
are written as integers. The reader counts its steps, and three for each character are enough.
-/

namespace TickScript.Json

open TickScript.Text (escapeChar)

/-! ## Layout -/

theorem skipSpace_cons {c : Char} (h : isSpace c = false) (rest : List Char) :
    skipSpace (c :: rest) = c :: rest := by
  simp [skipSpace, h]

namespace Value

/-- The beginning of a line at a nesting depth. -/
def line (depth : Nat) : List Char := '\n' :: (margin depth).toList

/-- The texts of a container's contents behind the first one. -/
def further (depth : Nat) (contents : List String) : List Char :=
  contents.flatMap fun content => ',' :: (line depth ++ content.toList)

theorem skipSpace_line (depth : Nat) (rest : List Char) :
    skipSpace (line depth ++ rest) = skipSpace rest := by
  refine List.dropWhile_append_of_pos fun c hc => ?_
  rcases List.mem_cons.1 hc with rfl | hc
  · rfl
  · rw [margin, String.toList_ofList] at hc
    rw [(List.mem_replicate.1 hc).2]
    rfl

theorem follows_line (depth : Nat) (rest : List Char) : Follows (line depth ++ rest) := by
  simp [Follows, line]

theorem further_cons (depth : Nat) (content : String) (contents : List String) :
    further depth (content :: contents) =
      ',' :: (line depth ++ (content.toList ++ further depth contents)) := by
  simp [further]

theorem follows_further (depth : Nat) (contents : List String) {ending : List Char}
    (h : Follows ending) : Follows (further depth contents ++ ending) := by
  cases contents with
  | nil => exact h
  | cons content contents => simp [Follows, further_cons]

/-- Joined texts are the first one and the others, each behind a separator. -/
theorem toList_intercalate_cons (separator first : String) (texts : List String) :
    (separator.intercalate (first :: texts)).toList =
      first.toList ++ texts.flatMap fun text => separator.toList ++ text.toList := by
  rw [String.toList_intercalate]
  induction texts generalizing first with
  | nil => simp
  | cons second texts ih =>
      rw [List.map_cons, List.map_cons, List.intercalate_cons_cons, ← List.map_cons, ih]
      simp

/-- A container that is not empty has a line for each of its contents. -/
theorem toList_enclose (opening closing : String) (depth : Nat) (content : String)
    (contents : List String) :
    (enclose opening closing depth (content :: contents)).toList =
      opening.toList ++ (line (depth + 1) ++ (content.toList ++
        (further (depth + 1) contents ++ (line depth ++ closing.toList)))) := by
  simp only [enclose, List.isEmpty_cons, Bool.false_eq_true, if_false, List.map_cons,
    String.toList_append, toList_intercalate_cons, line, further, List.flatMap_map]
  simp

end Value

/-! ## Drafts of values -/

namespace Draft

mutual

/-- The draft that a value is read from. -/
def ofValue : Value → Draft
  | .null => .null
  | .bool value => .bool value
  | .number value => .number (.ok value)
  | .text value => .text (.ofText value)
  | .array items => .array (ofItems items) .closed
  | .object members => .object (ofMembers members) .closed

/-- The drafts of the items of an array. -/
def ofItems : List Value → List Draft
  | [] => []
  | item :: items => ofValue item :: ofItems items

/-- The drafts of the members of an object. -/
def ofMembers : List (String × Value) → List (Scan × Draft)
  | [] => []
  | (key, value) :: members => (.ofText key, ofValue value) :: ofMembers members

end

end Draft

/-- The text of a value, at any depth and whatever follows it, is read as the draft of the value. Three
steps for each of its characters are enough. -/
def Value.Reads (value : Value) : Prop :=
  ∀ (depth budget : Nat) (rest : List Char), Follows rest →
    3 * (value.prettyAt depth).toList.length ≤ budget →
      readValue budget ((value.prettyAt depth).toList ++ rest) = (.ofValue value, some rest)

/-- The text of a value begins with a character that is neither a space nor the end of a list. -/
def Value.Begins (value : Value) : Prop :=
  ∀ depth, ∃ c rest, (value.prettyAt depth).toList = c :: rest ∧ isSpace c = false ∧ c ≠ ']'

/-! ## Lists -/

section Items

variable {budget : Nat} {chars rest after : List Char} {seen : List Draft} {item : Draft}

theorem readItems_last (hitem : readValue budget chars = (item, some rest))
    (hrest : skipSpace rest = ']' :: after) :
    readItems (budget + 1) chars seen = (.array (item :: seen).reverse .closed, some after) := by
  simp only [readItems, hitem, hrest]

theorem readItems_more {c : Char} {tail : List Char}
    (hitem : readValue budget chars = (item, some rest)) (hrest : skipSpace rest = ',' :: after)
    (hafter : skipSpace after = c :: tail) (hc : c ≠ ']') :
    readItems (budget + 1) chars seen = readItems budget (c :: tail) (item :: seen) := by
  rw [readItems, hitem]
  simp only [hrest, hafter]
  split
  · next h => cases h
  · next h => exact absurd (List.cons.inj h).1 hc
  · rfl

end Items

/-- A value is read in front of the further contents of a container. -/
theorem Value.Reads.before_further {value : Value} (h : value.Reads) {depth budget : Nat}
    {contents : List String} {ending : List Char} (hending : Follows ending)
    (hbudget : 3 * ((value.prettyAt depth).toList.length + (further depth contents).length) ≤ budget) :
    readValue budget ((value.prettyAt depth).toList ++ (further depth contents ++ ending)) =
      (.ofValue value, some (further depth contents ++ ending)) :=
  h depth budget _ (follows_further depth contents hending) (by omega)

/-- The items of a list are read if each of them is. -/
theorem readItems_pretty {depth budget : Nat} {items : List Value} {item : Value}
    {ending rest : List Char} (hreads : ∀ value ∈ item :: items, value.Reads)
    (hbegins : ∀ value ∈ items, value.Begins) (hfollows : Follows ending)
    (hending : skipSpace ending = ']' :: rest) (seen : List Draft)
    (hbudget : 3 * ((item.prettyAt depth).toList.length +
      (Value.further depth (Value.prettyItems depth items)).length) ≤ budget) :
    readItems (budget + 1) ((item.prettyAt depth).toList ++
      (Value.further depth (Value.prettyItems depth items) ++ ending)) seen =
        (.array (seen.reverse ++ Draft.ofItems (item :: items)) .closed, some rest) := by
  -- That the items are read is known, so this is an induction on the list and not on the value.
  induction items generalizing item budget seen with
  | nil =>
      have hitem := (hreads item List.mem_cons_self).before_further hfollows hbudget
      rw [readItems_last hitem hending]
      simp [Draft.ofItems]
  | cons next items ih =>
      have hitem := (hreads item List.mem_cons_self).before_further hfollows hbudget
      obtain ⟨c, tail, htext, hspace, hend⟩ := hbegins next List.mem_cons_self depth
      simp only [Value.prettyItems, Value.further_cons, List.cons_append, List.append_assoc,
        List.length_append, List.length_cons] at hbudget hitem ⊢
      have hafter : skipSpace (Value.line depth ++ ((next.prettyAt depth).toList ++
          (Value.further depth (Value.prettyItems depth items) ++ ending))) = c :: (tail ++
            (Value.further depth (Value.prettyItems depth items) ++ ending)) := by
        rw [Value.skipSpace_line, htext, List.cons_append, skipSpace_cons hspace]
      obtain ⟨budget, rfl⟩ : ∃ less, budget = less + 1 := ⟨budget - 1, by omega⟩
      rw [readItems_more hitem (skipSpace_cons rfl _) hafter hend, ← List.cons_append, ← htext,
        ih (List.forall_mem_cons.1 hreads).2 (List.forall_mem_cons.1 hbegins).2 _ (by omega)]
      simp [Draft.ofItems]

/-! ## Objects -/

section Members

variable {budget : Nat} {chars rest content after final : List Char} {seen : List (Scan × Draft)}
  {key : Scan} {value : Draft}

theorem readMembers_last (hkey : scanChars {} [] chars = (key, some rest))
    (hrest : skipSpace rest = ':' :: content)
    (hvalue : readValue budget content = (value, some after))
    (hafter : skipSpace after = '\x7d' :: final) :
    readMembers (budget + 1) chars seen =
      (.object ((key, value) :: seen).reverse .closed, some final) := by
  simp only [readMembers, hkey, hrest, hvalue, hafter]

theorem readMembers_more {next : List Char} (hkey : scanChars {} [] chars = (key, some rest))
    (hrest : skipSpace rest = ':' :: content)
    (hvalue : readValue budget content = (value, some after))
    (hafter : skipSpace after = ',' :: final) (hnext : skipSpace final = '"' :: next) :
    readMembers (budget + 1) chars seen = readMembers budget next ((key, value) :: seen) := by
  simp only [readMembers, hkey, hrest, hvalue, hafter, hnext]

end Members

/-- The characters of a member of an object behind the quote that it begins with. -/
def Value.memberTail (depth : Nat) (key : String) (value : Value) : List Char :=
  key.toList.flatMap escapeChar ++ '"' :: ':' :: ' ' :: (value.prettyAt depth).toList

theorem Value.toList_member (depth : Nat) (key : String) (value : Value) :
    (Text.quote key ++ ": " ++ value.prettyAt depth).toList = '"' :: memberTail depth key value := by
  simp [Text.quote, memberTail]

theorem scanChars_memberTail (depth : Nat) (key : String) (value : Value) (rest : List Char) :
    scanChars {} [] (value.memberTail depth key ++ rest) =
      (.ofText key, some (':' :: ' ' :: ((value.prettyAt depth).toList ++ rest))) := by
  rw [Value.memberTail, List.append_assoc]
  exact (scanChars_quoted key.toList [] _).trans (by simp)

/-- The value of a member is read in front of the further members. -/
theorem Value.Reads.behind_key {value : Value} (h : value.Reads) {depth budget : Nat} {key : String}
    {contents : List String} {ending : List Char} (hending : Follows ending)
    (hbudget : 3 * ((value.memberTail depth key).length + (further depth contents).length) ≤ budget) :
    readValue budget (' ' :: ((value.prettyAt depth).toList ++ (further depth contents ++ ending))) =
      (.ofValue value, some (further depth contents ++ ending)) := by
  simp only [memberTail, List.length_append, List.length_cons] at hbudget
  obtain ⟨budget, rfl⟩ : ∃ less, budget = less + 1 := ⟨budget - 1, by omega⟩
  have hspace (rest : List Char) :
      readValue (budget + 1) (' ' :: rest) = readValue (budget + 1) rest := by
    have hskip : skipSpace (' ' :: rest) = skipSpace rest := rfl
    rw [readValue, readValue, hskip]
  rw [hspace]
  exact h.before_further hending (by omega)

/-- The members of an object are read if the value of each of them is. -/
theorem readMembers_pretty {depth budget : Nat} {members : List (String × Value)} {key : String}
    {value : Value} {ending rest : List Char}
    (hreads : ∀ member ∈ (key, value) :: members, member.2.Reads) (hfollows : Follows ending)
    (hending : skipSpace ending = '\x7d' :: rest) (seen : List (Scan × Draft))
    (hbudget : 3 * ((value.memberTail depth key).length +
      (Value.further depth (Value.prettyMembers depth members)).length) ≤ budget) :
    readMembers (budget + 1) (value.memberTail depth key ++
      (Value.further depth (Value.prettyMembers depth members) ++ ending)) seen =
        (.object (seen.reverse ++ Draft.ofMembers ((key, value) :: members)) .closed, some rest) := by
  induction members generalizing key value budget seen with
  | nil =>
      have hvalue := (hreads _ List.mem_cons_self).behind_key hfollows hbudget
      rw [readMembers_last (scanChars_memberTail depth key value _) (skipSpace_cons rfl _) hvalue
        hending]
      simp [Draft.ofMembers]
  | cons next members ih =>
      have hvalue := (hreads _ List.mem_cons_self).behind_key hfollows hbudget
      have hkey := scanChars_memberTail depth key value
        (Value.further depth (Value.prettyMembers depth (next :: members)) ++ ending)
      simp only [Value.prettyMembers, Value.further_cons, Value.toList_member, List.cons_append,
        List.append_assoc, List.length_append, List.length_cons] at hbudget hvalue hkey ⊢
      have hnext : skipSpace (Value.line depth ++ ('"' :: (next.2.memberTail depth next.1 ++
          (Value.further depth (Value.prettyMembers depth members) ++ ending)))) =
          '"' :: (next.2.memberTail depth next.1 ++
            (Value.further depth (Value.prettyMembers depth members) ++ ending)) := by
        rw [Value.skipSpace_line, skipSpace_cons rfl]
      obtain ⟨budget, rfl⟩ : ∃ less, budget = less + 1 := ⟨budget - 1, by omega⟩
      rw [readMembers_more hkey (skipSpace_cons rfl _) hvalue (skipSpace_cons rfl _) hnext,
        ih (List.forall_mem_cons.1 hreads).2 _ (by omega)]
      simp [Draft.ofMembers]

/-! ## Numbers -/

/-- The text of a number begins with a digit or a sign. -/
theorem Number.render_begins {number : Number} (h : number.isWhole = true) :
    ∃ c rest, number.render.toList = c :: rest ∧ (c.isDigit || c = '-') = true := by
  cases number with
  | float value =>
      obtain rfl : value = Binary64.zero.neg := by simpa [isWhole] using h
      exact ⟨'-', ['0', '.', '0'], by decide +kernel, rfl⟩
  | integer value =>
      rw [render, String.toList_append, Nat.toList_repr]
      by_cases hsign : value < 0
      · exact ⟨'-', Nat.toDigits 10 value.natAbs, by simp [hsign], rfl⟩
      · obtain ⟨c, rest, hdigits⟩ := List.exists_cons_of_ne_nil (@Nat.toDigits_ne_nil value.natAbs 10)
        refine ⟨c, rest, by simp [hsign, hdigits], ?_⟩
        have hc : c.isDigit = true :=
          Nat.isDigit_of_mem_toDigits (by decide) (by decide) (hdigits ▸ List.mem_cons_self)
        simp [hc]

theorem isSpace_of_begins {c : Char} (h : (c.isDigit || c = '-') = true) : isSpace c = false := by
  by_contra hspace
  simp only [isSpace, Bool.not_eq_false, Bool.or_eq_true, decide_eq_true_eq] at hspace
  rcases hspace with ((rfl | rfl) | rfl) | rfl <;> exact absurd h (by decide)

/-- A text that begins with a digit or a sign is read as a number. -/
theorem readValue_number {c : Char} (h : (c.isDigit || c = '-') = true) (budget : Nat)
    (rest : List Char) : readValue (budget + 1) (c :: rest) = scanNumber (c :: rest) := by
  have hspace : isSpace c = false := isSpace_of_begins h
  rw [readValue, skipSpace_cons hspace]
  split
  · next heq => cases heq
  case h_8 =>
    next heq =>
    obtain ⟨rfl, rfl⟩ := List.cons.inj heq
    exact if_pos h
  all_goals
    next heq =>
    obtain ⟨rfl, -⟩ := List.cons.inj heq
    exact absurd h (by decide)

/-! ## Values -/

mutual

/-- All numbers of a value are whole. -/
def Value.isWhole : Value → Bool
  | .number value => value.isWhole
  | .array items => wholeItems items
  | .object members => wholeMembers members
  | .null | .bool _ | .text _ => true

/-- All numbers in the items of an array are whole. -/
def Value.wholeItems : List Value → Bool
  | [] => true
  | item :: items => isWhole item && wholeItems items

/-- All numbers in the members of an object are whole. -/
def Value.wholeMembers : List (String × Value) → Bool
  | [] => true
  | (_, value) :: members => isWhole value && wholeMembers members

end

theorem Value.wholeItems_iff {items : List Value} :
    wholeItems items = true ↔ ∀ item ∈ items, item.isWhole = true := by
  induction items with
  | nil => simp [wholeItems]
  | cons item items ih => simp [wholeItems, ih]

section Containers

variable (depth : Nat)

theorem Value.toList_array_nil : ((Value.array []).prettyAt depth).toList = ['[', ']'] := by
  simp [prettyAt, prettyItems, enclose]

theorem Value.toList_array_cons (item : Value) (items : List Value) :
    ((Value.array (item :: items)).prettyAt depth).toList = '[' :: (line (depth + 1) ++
      ((item.prettyAt (depth + 1)).toList ++
        (further (depth + 1) (prettyItems (depth + 1) items) ++ (line depth ++ [']'])))) := by
  rw [prettyAt, prettyItems, toList_enclose]
  rfl

theorem Value.toList_object_nil :
    ((Value.object []).prettyAt depth).toList = ['\x7b', '\x7d'] := by
  simp [prettyAt, prettyMembers, enclose]

theorem Value.toList_object_cons (member : String × Value) (members : List (String × Value)) :
    ((Value.object (member :: members)).prettyAt depth).toList = '\x7b' :: (line (depth + 1) ++
      ('"' :: (member.2.memberTail (depth + 1) member.1 ++
        (further (depth + 1) (prettyMembers (depth + 1) members) ++ (line depth ++ ['\x7d']))))) := by
  rw [prettyAt, prettyMembers, toList_enclose, toList_member]
  rfl

end Containers

/-- The text of a value whose numbers are whole begins as it should, at every depth. -/
theorem Value.begins {value : Value} (h : value.isWhole = true) : value.Begins := by
  intro depth
  cases value with
  | null => exact ⟨'n', ['u', 'l', 'l'], by simp [prettyAt], rfl, by decide⟩
  | bool value =>
      cases value with
      | true => exact ⟨'t', ['r', 'u', 'e'], by simp [prettyAt], rfl, by decide⟩
      | false => exact ⟨'f', ['a', 'l', 's', 'e'], by simp [prettyAt], rfl, by decide⟩
  | number value =>
      obtain ⟨c, rest, htext, hc⟩ := Number.render_begins h
      exact ⟨c, rest, htext, isSpace_of_begins hc, by rintro rfl; exact absurd hc (by decide)⟩
  | text value =>
      have htext : ((Value.text value).prettyAt depth).toList =
          '"' :: (value.toList.flatMap escapeChar ++ ['"']) := by
        simp [prettyAt, Text.quote]
      exact ⟨'"', _, htext, rfl, by decide⟩
  | array items =>
      cases items with
      | nil => exact ⟨'[', _, toList_array_nil depth, rfl, by decide⟩
      | cons item items => exact ⟨'[', _, toList_array_cons depth item items, rfl, by decide⟩
  | object members =>
      cases members with
      | nil => exact ⟨'\x7b', _, toList_object_nil depth, rfl, by decide⟩
      | cons member members =>
          exact ⟨'\x7b', _, toList_object_cons depth member members, rfl, by decide⟩

theorem readFirstItem_of_item {budget : Nat} {chars rest : List Char} {c : Char}
    (h : skipSpace chars = c :: rest) (hc : c ≠ ']') :
    readFirstItem (budget + 1) chars = readItems budget (c :: rest) [] := by
  rw [readFirstItem, h]
  split
  · next heq => cases heq
  · next heq => exact absurd (List.cons.inj heq).1 hc
  · rfl

theorem readFirstMember_of_member {budget : Nat} {chars rest : List Char}
    (h : skipSpace chars = '"' :: rest) :
    readFirstMember (budget + 1) chars = readMembers budget rest [] := by
  simp only [readFirstMember, h]

/-- A list is read if its items are. -/
theorem reads_array {items : List Value} (hreads : ∀ item ∈ items, item.Reads)
    (hbegins : ∀ item ∈ items, item.Begins) : (Value.array items).Reads := by
  intro depth budget rest hrest hbudget
  cases items with
  | nil =>
      rw [Value.toList_array_nil] at hbudget ⊢
      obtain ⟨budget, rfl⟩ := Nat.exists_eq_add_of_le' hbudget
      rfl
  | cons item items =>
      obtain ⟨c, tail, htext, hspace, hend⟩ := hbegins item List.mem_cons_self (depth + 1)
      rw [Value.toList_array_cons] at hbudget ⊢
      simp only [List.length_append, List.length_cons] at hbudget
      obtain ⟨budget, rfl⟩ : ∃ less, budget = less + 3 := ⟨budget - 3, by omega⟩
      simp only [List.cons_append, List.append_assoc, List.nil_append]
      have hfirst : skipSpace (Value.line (depth + 1) ++ ((item.prettyAt (depth + 1)).toList ++
          (Value.further (depth + 1) (Value.prettyItems (depth + 1) items) ++
            (Value.line depth ++ ']' :: rest)))) = c :: (tail ++
          (Value.further (depth + 1) (Value.prettyItems (depth + 1) items) ++
            (Value.line depth ++ ']' :: rest))) := by
        rw [Value.skipSpace_line, htext, List.cons_append, skipSpace_cons hspace]
      have hending : skipSpace (Value.line depth ++ ']' :: rest) = ']' :: rest := by
        rw [Value.skipSpace_line, skipSpace_cons rfl]
      calc readValue (budget + 3) ('[' :: _)
          = readFirstItem (budget + 2) _ := rfl
        _ = readItems (budget + 1) _ [] := readFirstItem_of_item hfirst hend
        _ = _ := by
            rw [← List.cons_append, ← htext]
            exact readItems_pretty hreads (List.forall_mem_cons.1 hbegins).2
              (Value.follows_line depth _) hending [] (by omega)

/-- An object is read if the values of its members are. -/
theorem reads_object {members : List (String × Value)}
    (hreads : ∀ member ∈ members, member.2.Reads) : (Value.object members).Reads := by
  intro depth budget rest hrest hbudget
  cases members with
  | nil =>
      rw [Value.toList_object_nil] at hbudget ⊢
      obtain ⟨budget, rfl⟩ := Nat.exists_eq_add_of_le' hbudget
      rfl
  | cons member members =>
      rw [Value.toList_object_cons] at hbudget ⊢
      simp only [List.length_append, List.length_cons] at hbudget
      obtain ⟨budget, rfl⟩ : ∃ less, budget = less + 3 := ⟨budget - 3, by omega⟩
      simp only [List.cons_append, List.append_assoc, List.nil_append]
      have hfirst : skipSpace (Value.line (depth + 1) ++
          ('"' :: (member.2.memberTail (depth + 1) member.1 ++
            (Value.further (depth + 1) (Value.prettyMembers (depth + 1) members) ++
              (Value.line depth ++ '\x7d' :: rest))))) =
          '"' :: (member.2.memberTail (depth + 1) member.1 ++
            (Value.further (depth + 1) (Value.prettyMembers (depth + 1) members) ++
              (Value.line depth ++ '\x7d' :: rest))) := by
        rw [Value.skipSpace_line, skipSpace_cons rfl]
      have hending : skipSpace (Value.line depth ++ '\x7d' :: rest) = '\x7d' :: rest := by
        rw [Value.skipSpace_line, skipSpace_cons rfl]
      calc readValue (budget + 3) ('\x7b' :: _)
          = readFirstMember (budget + 2) _ := rfl
        _ = readMembers (budget + 1) _ [] := readFirstMember_of_member hfirst
        _ = _ := readMembers_pretty hreads (Value.follows_line depth _) hending [] (by omega)

/-- A scalar is read if its text is, whatever the budget. -/
theorem reads_scalar {value : Value} {chars : List Char}
    (htext : ∀ depth, (value.prettyAt depth).toList = chars) (hchars : chars ≠ [])
    (hread : ∀ budget rest, Follows rest →
      readValue (budget + 1) (chars ++ rest) = (.ofValue value, some rest)) : value.Reads := by
  intro depth budget rest hrest hbudget
  have hlength := List.length_pos_iff.2 hchars
  rw [htext] at hbudget ⊢
  obtain ⟨budget, rfl⟩ : ∃ less, budget = less + 1 := ⟨budget - 1, by omega⟩
  exact hread budget rest hrest

mutual

/-- The text of a value whose numbers are whole is read as the draft of the value. -/
theorem reads_of_isWhole : ∀ {value : Value}, value.isWhole = true → value.Reads
  | .null, _ => @reads_scalar _ ['n', 'u', 'l', 'l'] (fun depth => by simp [Value.prettyAt])
      (by simp) fun _ _ _ => rfl
  | .bool true, _ => @reads_scalar _ ['t', 'r', 'u', 'e'] (fun depth => by simp [Value.prettyAt])
      (by simp) fun _ _ _ => rfl
  | .bool false, _ => @reads_scalar _ ['f', 'a', 'l', 's', 'e']
      (fun depth => by simp [Value.prettyAt]) (by simp) fun _ _ _ => rfl
  | .number number, h => by
      obtain ⟨c, tail, htext, hc⟩ := Number.render_begins h
      refine reads_scalar (fun _ => htext) (List.cons_ne_nil _ _) fun budget rest hrest => ?_
      have hscan := scanNumber_render h hrest
      rw [htext] at hscan
      rw [List.cons_append, readValue_number hc]
      exact hscan
  | .text text, _ => by
      refine @reads_scalar _ ('"' :: (text.toList.flatMap escapeChar ++ ['"']))
        (fun depth => by simp [Value.prettyAt, Text.quote]) (List.cons_ne_nil _ _) fun budget rest _ => ?_
      have hscan := scanChars_quoted text.toList [] rest
      have hread : readValue (budget + 1) ('"' :: (text.toList.flatMap escapeChar ++ '"' :: rest)) =
          (.text (scanChars {} [] (text.toList.flatMap escapeChar ++ '"' :: rest)).1,
            (scanChars {} [] (text.toList.flatMap escapeChar ++ '"' :: rest)).2) := rfl
      rw [hscan] at hread
      simpa [Draft.ofValue] using hread
  | .array items, h => reads_array (reads_of_wholeItems h) fun item hitem =>
      Value.begins (Value.wholeItems_iff.1 h item hitem)
  | .object members, h => reads_object (reads_of_wholeMembers h)

theorem reads_of_wholeItems : ∀ {items : List Value}, Value.wholeItems items = true →
    ∀ item ∈ items, item.Reads
  | [], _ => by simp
  | item :: items, h => by
      rw [Value.wholeItems, Bool.and_eq_true] at h
      exact List.forall_mem_cons.2 ⟨reads_of_isWhole h.1, reads_of_wholeItems h.2⟩

theorem reads_of_wholeMembers : ∀ {members : List (String × Value)},
    Value.wholeMembers members = true → ∀ member ∈ members, member.2.Reads
  | [], _ => by simp
  | (_, value) :: members, h => by
      rw [Value.wholeMembers, Bool.and_eq_true] at h
      exact List.forall_mem_cons.2 ⟨reads_of_isWhole h.1, reads_of_wholeMembers h.2⟩

end

/-- The text of a value whose numbers are whole is read as its draft, to the end. -/
theorem read_pretty {value : Value} (h : value.isWhole = true) :
    Draft.read value.pretty = (.ofValue value, some []) := by
  have hread := reads_of_isWhole h 0 (3 * value.pretty.toList.length + 1) [] (by simp [Follows])
    (Nat.le_succ _)
  rwa [List.append_nil] at hread

end TickScript.Json
