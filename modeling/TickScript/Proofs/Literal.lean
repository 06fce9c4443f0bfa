import TickScript.Literal
import TickScript.Proofs.Number
import TickScript.Proofs.Text.Delimited

/-!
# Literals that read as data

With string constants for its texts, a literal can be read off the expression for it. The first
character tells what sort of literal it is, and the literal ends before a comma, a closing bracket or
the blank before a closing brace. `spell_append_inj` goes through literals, the items of lists and
the entries of maps with whatever follows them, and `quoted_literal_unambiguous` is about the
whole.
-/

namespace TickScript.Literal

open TickScript.Text

mutual

/-- The numbers inside of a literal. -/
def numbers : Literal → List Binary64
  | .number value => [value]
  | .list items => itemNumbers items
  | .map entries => entryNumbers entries
  | .undefined | .null | .bool _ | .text _ => []

/-- The numbers inside of list items. -/
def itemNumbers : List Literal → List Binary64
  | [] => []
  | item :: items => numbers item ++ itemNumbers items

/-- The numbers inside of map entries. -/
def entryNumbers : List (String × Literal) → List Binary64
  | [] => []
  | (_, value) :: entries => numbers value ++ entryNumbers entries

end

mutual

/-- The literal, with zeros without signs in place of all zeros. -/
def unsignedZeros : Literal → Literal
  | .number value => .number value.unsignedZero
  | .list items => .list (unsignedItems items)
  | .map entries => .map (unsignedEntries entries)
  | .undefined => .undefined
  | .null => .null
  | .bool value => .bool value
  | .text value => .text value

/-- List items, with zeros without signs. -/
def unsignedItems : List Literal → List Literal
  | [] => []
  | item :: items => unsignedZeros item :: unsignedItems items

/-- Map entries, with zeros without signs. -/
def unsignedEntries : List (String × Literal) → List (String × Literal)
  | [] => []
  | (key, value) :: entries => (key, unsignedZeros value) :: unsignedEntries entries

end

/-- All numbers are integers that are shown by their digits. -/
def AllWhole (numbers : List Binary64) : Prop := ∀ number ∈ numbers, number.isShownWhole = true

instance (numbers : List Binary64) : Decidable (AllWhole numbers) :=
  inferInstanceAs (Decidable (∀ number ∈ numbers, number.isShownWhole = true))

/-! ## Spelling -/

/-- The characters of a literal with string constants for its texts. -/
def spell (literal : Literal) : List Char := literal.quoteTexts.render.toList

/-- The characters behind the first item of a list. -/
def spellItems (items : List Literal) : List Char :=
  (renderItems (quoteItems items)).flatMap (fun item => ',' :: ' ' :: item.toList) ++ [']']

/-- The characters of an entry. -/
def spellEntry (key : String) (value : Literal) (rest : List Char) : List Char :=
  (propertyKey key).toList ++ ':' :: ' ' :: (value.spell ++ rest)

/-- The characters behind the first entry of a map. -/
def spellEntries (entries : List (String × Literal)) : List Char :=
  (renderEntries (quoteEntries entries)).flatMap (fun entry => ',' :: ' ' :: entry.toList) ++
    [' ', '\x7d']

theorem toList_intercalate (text : String) (texts : List String) :
    (", ".intercalate (text :: texts)).toList =
      text.toList ++ texts.flatMap fun text => ',' :: ' ' :: text.toList := by
  induction texts generalizing text with
  | nil => simp
  | cons next texts ih => simp [String.intercalate_cons_cons, ih]

theorem spell_number (value : Binary64) : spell (.number value) = value.scriptText.toList := rfl

theorem spell_text (value : String) : spell (.text value) = (quote value).toList := rfl

theorem spell_nil : spell (.list []) = ['[', ']'] := by decide

theorem spell_list (item : Literal) (items : List Literal) :
    spell (.list (item :: items)) = '[' :: (spell item ++ spellItems items) := by
  simp only [spell, quoteTexts, render, quoteItems, renderItems, String.toList_append,
    toList_intercalate, spellItems]
  simp

theorem spellItems_cons (item : Literal) (items : List Literal) :
    spellItems (item :: items) = ',' :: ' ' :: (spell item ++ spellItems items) := by
  simp [spell, quoteItems, renderItems, spellItems]

theorem spell_empty : spell (.map []) = ['\x7b', '\x7d'] := by decide

theorem spell_map (key : String) (value : Literal) (entries : List (String × Literal)) :
    spell (.map ((key, value) :: entries)) =
      '\x7b' :: ' ' :: spellEntry key value (spellEntries entries) := by
  simp only [spell, quoteTexts, render, renderBraces, quoteEntries, renderEntries, List.isEmpty_cons,
    Bool.false_eq_true, if_false, String.toList_append, toList_intercalate, spellEntry, spellEntries]
  simp

theorem spellEntries_cons (key : String) (value : Literal) (entries : List (String × Literal)) :
    spellEntries ((key, value) :: entries) =
      ',' :: ' ' :: spellEntry key value (spellEntries entries) := by
  simp [spell, quoteEntries, renderEntries, spellEntry, spellEntries]

/-! ## First and last characters -/

/-- What follows a literal is nothing, a comma, a closing bracket or a blank. -/
def Ends (rest : List Char) : Prop := ∀ c ∈ rest.head?, c = ',' ∨ c = ']' ∨ c = ' '

theorem ends_spellItems (items : List Literal) (rest : List Char) :
    Ends (spellItems items ++ rest) := by
  cases items with
  | nil => simp [Ends, spellItems, quoteItems, renderItems]
  | cons item items => simp [Ends, spellItems_cons]

theorem ends_spellEntries (entries : List (String × Literal)) (rest : List Char) :
    Ends (spellEntries entries ++ rest) := by
  match entries with
  | [] => simp [Ends, spellEntries, quoteEntries, renderEntries]
  | (key, value) :: entries => simp [Ends, spellEntries_cons]

/-- The shapes of literals. -/
inductive Shape where
  | undefined
  | null
  | bool
  | number
  | text
  | list
  | map

/-- The shape of a literal. -/
def shape : Literal → Shape
  | .undefined => .undefined
  | .null => .null
  | .bool _ => .bool
  | .number _ => .number
  | .text _ => .text
  | .list _ => .list
  | .map _ => .map

/-- The shape of the literals that begin with a character. -/
def shapeOf? (c : Char) : Option Shape :=
  if c = 'u' then some .undefined
  else if c = 'n' then some .null
  else if c = 't' ∨ c = 'f' then some .bool
  else if c = '"' then some .text
  else if c = '[' then some .list
  else if c = '\x7b' then some .map
  else if Binary64.isWholePart c then some .number
  else none

theorem shapeOf?_wholePart {c : Char} (h : Binary64.isWholePart c = true) :
    shapeOf? c = some .number := by
  have hne {d : Char} (hd : Binary64.isWholePart d = false) : c ≠ d := by
    rintro rfl
    rw [h] at hd
    cases hd
  unfold shapeOf?
  rw [if_neg (hne (by decide)), if_neg (hne (by decide)),
    if_neg (not_or.2 ⟨hne (by decide), hne (by decide)⟩), if_neg (hne (by decide)),
    if_neg (hne (by decide)), if_neg (hne (by decide)), if_pos h]

/-- The first character tells the shape of a literal. -/
theorem spell_eq_cons (literal : Literal) (h : AllWhole literal.numbers) :
    ∃ c chars, literal.spell = c :: chars ∧ shapeOf? c = some literal.shape := by
  cases literal with
  | undefined => exact ⟨_, _, rfl, rfl⟩
  | null => exact ⟨_, _, rfl, rfl⟩
  | bool value => cases value <;> exact ⟨_, _, rfl, rfl⟩
  | text value => exact ⟨_, _, toList_quote value, rfl⟩
  | list items =>
      cases items with
      | nil => exact ⟨_, _, spell_nil, rfl⟩
      | cons item items => exact ⟨_, _, spell_list item items, rfl⟩
  | map entries =>
      match entries with
      | [] => exact ⟨_, _, spell_empty, rfl⟩
      | (key, value) :: entries => exact ⟨_, _, spell_map key value entries, rfl⟩
  | number value =>
      obtain ⟨whole, -, htext⟩ :=
        Binary64.scriptText_of_isShownWhole (h value List.mem_cons_self)
      have hspell : spell (.number value) = (Binary64.wholeText whole).toList := by
        rw [spell_number, htext]
      have hparts := Binary64.isWholePart_of_mem_wholeText whole
      cases hchars : (Binary64.wholeText whole).toList with
      | nil => simp [Binary64.wholeText] at hchars
      | cons c chars =>
          rw [hchars] at hparts
          exact ⟨c, chars, hspell.trans hchars, shapeOf?_wholePart (hparts c List.mem_cons_self)⟩

/-- Literals that are spelled alike are of the same shape. -/
theorem shape_eq_of_spell {literal other : Literal} {rest rest' : List Char}
    (hliteral : AllWhole literal.numbers) (hother : AllWhole other.numbers)
    (h : literal.spell ++ rest = other.spell ++ rest') : literal.shape = other.shape := by
  obtain ⟨c, chars, hspell, hshape⟩ := spell_eq_cons literal hliteral
  obtain ⟨c', chars', hspell', hshape'⟩ := spell_eq_cons other hother
  rw [hspell, hspell', List.cons_append, List.cons_append, List.cons.injEq] at h
  rw [h.1, hshape'] at hshape
  exact (Option.some.inj hshape).symm

/-- No literal begins with the bracket that closes a list. -/
theorem spell_append_ne (literal : Literal) (h : AllWhole literal.numbers) (rest rest' : List Char) :
    literal.spell ++ rest ≠ ']' :: rest' := by
  intro hsame
  obtain ⟨c, chars, hspell, hshape⟩ := spell_eq_cons literal h
  rw [hspell, List.cons_append, List.cons.injEq] at hsame
  rw [hsame.1] at hshape
  cases hshape

/-- Lists that are spelled alike have items that are spelled alike. -/
theorem spellItems_of_spell {items others : List Literal} {rest rest' : List Char}
    (hitems : AllWhole (itemNumbers items)) (hothers : AllWhole (itemNumbers others))
    (h : spell (.list items) ++ rest = spell (.list others) ++ rest') :
    spellItems items ++ rest = spellItems others ++ rest' := by
  cases items with
  | nil =>
      cases others with
      | nil => rw [List.append_cancel_left h]
      | cons other others =>
          obtain ⟨hother, -⟩ := List.forall_mem_append.1 hothers
          rw [spell_nil, spell_list] at h
          simp only [List.cons_append, List.cons_inj_right, List.append_assoc] at h
          exact absurd h.symm (spell_append_ne other hother _ _)
  | cons item items =>
      rw [spell_list] at h
      cases others with
      | nil =>
          obtain ⟨hitem, -⟩ := List.forall_mem_append.1 hitems
          rw [spell_nil] at h
          simp only [List.cons_append, List.cons_inj_right, List.append_assoc] at h
          exact absurd h (spell_append_ne item hitem _ _)
      | cons other others =>
          rw [spell_list] at h
          simp only [List.cons_append, List.cons_inj_right] at h
          simp only [spellItems_cons, List.cons_append, h]

/-- Maps that are spelled alike have entries that are spelled alike. -/
theorem spellEntries_of_spell {entries others : List (String × Literal)} {rest rest' : List Char}
    (h : spell (.map entries) ++ rest = spell (.map others) ++ rest') :
    spellEntries entries ++ rest = spellEntries others ++ rest' := by
  match entries, others with
  | [], [] => rw [List.append_cancel_left h]
  | [], (key, value) :: others =>
      rw [spell_empty, spell_map] at h
      cases h
  | (key, value) :: entries, [] =>
      rw [spell_empty, spell_map] at h
      cases h
  | (key, value) :: entries, (key', value') :: others =>
      rw [spell_map, spell_map] at h
      simp only [List.cons_append, List.cons_inj_right] at h
      simp only [spellEntries_cons, List.cons_append, h]

/-! ## Reading literals off -/

theorem number_append_inj {value value' : Binary64} {rest rest' : List Char}
    (hvalue : value.isShownWhole = true) (hvalue' : value'.isShownWhole = true) (hrest : Ends rest)
    (hrest' : Ends rest')
    (h : value.scriptText.toList ++ rest = value'.scriptText.toList ++ rest') :
    value.unsignedZero = value'.unsignedZero ∧ rest = rest' := by
  have hend {rest : List Char} (hrest : Ends rest) :
      ∀ c ∈ rest.head?, Binary64.isWholePart c = false := by
    intro c hc
    rcases hrest c hc with rfl | rfl | rfl <;> decide
  have hparts {value : Binary64} (hvalue : value.isShownWhole = true) :
      ∀ c ∈ value.scriptText.toList, Binary64.isWholePart c = true := by
    obtain ⟨whole, -, htext⟩ := Binary64.scriptText_of_isShownWhole hvalue
    rw [htext]
    exact Binary64.isWholePart_of_mem_wholeText whole
  obtain ⟨hsame, hrests⟩ :=
    append_inj_of_test (hparts hvalue) (hparts hvalue') (hend hrest) (hend hrest') h
  exact ⟨Binary64.scriptText_inj hvalue hvalue' (String.toList_inj.1 hsame), hrests⟩

mutual

/-- A literal and what follows it can be read off its spelling. -/
theorem spell_append_inj : ∀ (literal other : Literal) {rest rest' : List Char},
    AllWhole literal.numbers → AllWhole other.numbers → Ends rest → Ends rest' →
    literal.spell ++ rest = other.spell ++ rest' →
      literal.unsignedZeros = other.unsignedZeros ∧ rest = rest'
  | .undefined, other => by
      intro hliteral hother _ _ h
      cases other with
      | undefined => exact ⟨rfl, List.append_cancel_left h⟩
      | _ => cases shape_eq_of_spell hliteral hother h
  | .null, other => by
      intro hliteral hother _ _ h
      cases other with
      | null => exact ⟨rfl, List.append_cancel_left h⟩
      | _ => cases shape_eq_of_spell hliteral hother h
  | .bool value, other => by
      intro hliteral hother _ _ h
      cases other with
      | bool value' =>
          cases value <;> cases value'
          · exact ⟨rfl, List.append_cancel_left h⟩
          · cases h
          · cases h
          · exact ⟨rfl, List.append_cancel_left h⟩
      | _ => cases shape_eq_of_spell hliteral hother h
  | .number value, other => by
      intro hliteral hother hrest hrest' h
      cases other with
      | number value' =>
          rw [spell_number, spell_number] at h
          obtain ⟨hsame, hrests⟩ := number_append_inj (hliteral value List.mem_cons_self)
            (hother value' List.mem_cons_self) hrest hrest' h
          exact ⟨congrArg Literal.number hsame, hrests⟩
      | _ => cases shape_eq_of_spell hliteral hother h
  | .text value, other => by
      intro hliteral hother _ _ h
      cases other with
      | text value' =>
          rw [spell_text, spell_text] at h
          obtain ⟨hsame, hrests⟩ := quote_append_inj h
          exact ⟨congrArg Literal.text hsame, hrests⟩
      | _ => cases shape_eq_of_spell hliteral hother h
  | .list items, other => by
      intro hliteral hother _ _ h
      cases other with
      | list others =>
          obtain ⟨hsame, hrests⟩ := spellItems_append_inj items others hliteral hother
            (spellItems_of_spell hliteral hother h)
          exact ⟨congrArg Literal.list hsame, hrests⟩
      | _ => cases shape_eq_of_spell hliteral hother h
  | .map entries, other => by
      intro hliteral hother _ _ h
      cases other with
      | map others =>
          obtain ⟨hsame, hrests⟩ := spellEntries_append_inj entries others hliteral hother
            (spellEntries_of_spell h)
          exact ⟨congrArg Literal.map hsame, hrests⟩
      | _ => cases shape_eq_of_spell hliteral hother h

/-- So can the items of a list. -/
theorem spellItems_append_inj : ∀ (items others : List Literal) {rest rest' : List Char},
    AllWhole (itemNumbers items) → AllWhole (itemNumbers others) →
    spellItems items ++ rest = spellItems others ++ rest' →
      unsignedItems items = unsignedItems others ∧ rest = rest'
  | [], [] => fun _ _ h => ⟨rfl, List.append_cancel_left h⟩
  | [], other :: others => by
      intro _ _ h
      rw [spellItems_cons] at h
      cases h
  | item :: items, [] => by
      intro _ _ h
      rw [spellItems_cons] at h
      cases h
  | item :: items, other :: others => by
      intro hwhole hwhole' h
      obtain ⟨hitem, hitems⟩ := List.forall_mem_append.1 hwhole
      obtain ⟨hother, hothers⟩ := List.forall_mem_append.1 hwhole'
      simp only [spellItems_cons, List.cons_append, List.cons_inj_right, List.append_assoc] at h
      obtain ⟨hfirst, hrest⟩ := spell_append_inj item other hitem hother
        (ends_spellItems items _) (ends_spellItems others _) h
      obtain ⟨hmore, hrests⟩ := spellItems_append_inj items others hitems hothers hrest
      exact ⟨by rw [unsignedItems, unsignedItems, hfirst, hmore], hrests⟩

/-- So can the entries of a map. -/
theorem spellEntries_append_inj : ∀ (entries others : List (String × Literal))
    {rest rest' : List Char}, AllWhole (entryNumbers entries) → AllWhole (entryNumbers others) →
    spellEntries entries ++ rest = spellEntries others ++ rest' →
      unsignedEntries entries = unsignedEntries others ∧ rest = rest'
  | [], [] => fun _ _ h => ⟨rfl, List.append_cancel_left h⟩
  | [], (key, value) :: others => by
      intro _ _ h
      rw [spellEntries_cons] at h
      cases h
  | (key, value) :: entries, [] => by
      intro _ _ h
      rw [spellEntries_cons] at h
      cases h
  | (key, value) :: entries, (key', value') :: others => by
      intro hwhole hwhole' h
      obtain ⟨hvalue, hentries⟩ := List.forall_mem_append.1 hwhole
      obtain ⟨hvalue', hothers⟩ := List.forall_mem_append.1 hwhole'
      simp only [spellEntries_cons, spellEntry, List.cons_append, List.cons_inj_right,
        List.append_assoc] at h
      obtain ⟨rfl, hrest⟩ := propertyKey_append_inj h
      obtain ⟨hfirst, hrest⟩ := spell_append_inj value value' hvalue hvalue'
        (ends_spellEntries entries _) (ends_spellEntries others _) (List.tail_eq_of_cons_eq hrest)
      obtain ⟨hmore, hrests⟩ := spellEntries_append_inj entries others hentries hothers hrest
      exact ⟨by rw [unsignedEntries, unsignedEntries, hfirst, hmore], hrests⟩

end

mutual

/-- The signs of zeros are not shown. -/
theorem spell_unsignedZeros : ∀ literal : Literal,
    literal.unsignedZeros.quoteTexts.render = literal.quoteTexts.render
  | .undefined => rfl
  | .null => rfl
  | .bool _ => rfl
  | .text _ => rfl
  | .number value => by
      simp only [unsignedZeros, quoteTexts, render, value.scriptText_unsignedZero]
  | .list items => by
      simp only [unsignedZeros, quoteTexts, render, renderItems_unsignedItems items]
  | .map entries => by
      simp only [unsignedZeros, quoteTexts, render, renderEntries_unsignedEntries entries]

theorem renderItems_unsignedItems : ∀ items : List Literal,
    renderItems (quoteItems (unsignedItems items)) = renderItems (quoteItems items)
  | [] => rfl
  | item :: items => by
      simp only [unsignedItems, quoteItems, renderItems, spell_unsignedZeros item,
        renderItems_unsignedItems items]

theorem renderEntries_unsignedEntries : ∀ entries : List (String × Literal),
    renderEntries (quoteEntries (unsignedEntries entries)) = renderEntries (quoteEntries entries)
  | [] => rfl
  | (key, value) :: entries => by
      simp only [unsignedEntries, quoteEntries, renderEntries, spell_unsignedZeros value,
        renderEntries_unsignedEntries entries]

end

/-- With string constants for their texts, two literals whose numbers are integers below `10 ^ 15` are
written alike exactly if they are the same, but for the signs of zeros: no text or key inside of one
reads as something else. -/
theorem quoted_literal_unambiguous (literal other : Literal) (hliteral : AllWhole literal.numbers)
    (hother : AllWhole other.numbers) :
    literal.quoteTexts.render = other.quoteTexts.render ↔
      literal.unsignedZeros = other.unsignedZeros := by
  constructor
  · intro h
    have hspell : literal.spell ++ [] = other.spell ++ [] := by rw [spell, spell, h]
    have hends : Ends [] := fun _ h => nomatch h
    exact (spell_append_inj literal other hliteral hother hends hends hspell).1
  · intro h
    rw [← spell_unsignedZeros literal, ← spell_unsignedZeros other, h]

/-- A map with the same key twice, and with a text that looks like the end of a list. -/
def imitation (first : Literal) : Literal :=
  .map [("a", .list [first, .number (.ofInt (-10))]), ("a", .text "1], b: [2"),
    ("b c", .number Binary64.zero.neg)]

/-- A text that looks like a keyword is not written as the keyword is. -/
theorem imitation_told_apart :
    AllWhole (imitation (.text "null")).numbers ∧ AllWhole (imitation .null).numbers ∧
      (imitation (.text "null")).quoteTexts.render =
        "\x7b a: [\"null\", -10], a: \"1], b: [2\", \"b c\": 0 \x7d" ∧
      (imitation (.text "null")).quoteTexts.render ≠ (imitation .null).quoteTexts.render := by
  have htext : AllWhole (imitation (.text "null")).numbers := by decide +kernel
  have hnull : AllWhole (imitation .null).numbers := by decide +kernel
  refine ⟨htext, hnull, by decide +kernel, fun h => ?_⟩
  have hsame := (quoted_literal_unambiguous _ _ htext hnull).1 h
  simp [imitation, unsignedZeros, unsignedEntries, unsignedItems] at hsame

end TickScript.Literal
