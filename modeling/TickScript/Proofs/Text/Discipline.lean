import TickScript.Literal
import TickScript.Proofs.Number
import TickScript.Proofs.Text.Brackets
import TickScript.Proofs.Text.Lines

/-!
# Texts that fit

A text is put together from constants and other texts. Two things are asked of it: that it closes the
brackets that it opens and no others, and that it is of one line. Both are read off from left to right,
and hold of the whole if they hold of the constants together and of each text put between them. So
`Fits` is stated for a `Discipline`, which is one of the two, and proved for both at once.
-/

namespace TickScript.Text

/-- What is asked of texts. -/
inductive Discipline where
  /-- To close the brackets that they open and no others. -/
  | brackets
  /-- To be of one line. -/
  | lines

instance {holds : Discipline → Prop} [DecidablePred holds] :
    Decidable (∀ discipline, holds discipline) :=
  decidable_of_iff (holds .brackets ∧ holds .lines)
    ⟨fun h discipline => by cases discipline with | brackets => exact h.1 | lines => exact h.2,
      fun h => ⟨h _, h _⟩⟩

namespace Discipline

/-- The brackets that are awaited after one more character. If it is lines that matter, brackets are
not looked at. -/
def step : Discipline → List Char → Char → Option (List Char)
  | .brackets => Text.step
  | .lines => fun awaited c => if c = '\n' then none else some awaited

/-- The brackets that are awaited after more characters. -/
def scan (discipline : Discipline) (awaited chars : List Char) : Option (List Char) :=
  chars.foldlM discipline.step awaited

/-- A text leads from some awaited brackets to others. -/
def Turns (discipline : Discipline) (before after : List Char) (text : String) : Prop :=
  discipline.scan before text.toList = some after

instance (discipline : Discipline) (before after : List Char) (text : String) :
    Decidable (discipline.Turns before after text) :=
  inferInstanceAs (Decidable (_ = _))

/-- A text can stand between others. -/
def Fits (discipline : Discipline) (text : String) : Prop := discipline.Turns [] [] text

instance (discipline : Discipline) (text : String) : Decidable (discipline.Fits text) :=
  inferInstanceAs (Decidable (discipline.Turns _ _ _))

/-- A text can stand between others in quotes, also cut into segments. -/
def Admits : Discipline → String → Prop
  | .brackets, text => isClean text = true
  | .lines, _ => True

/-- The texts that get into a script as they are fit, and all texts that get there can be quoted. -/
structure Suits (discipline : Discipline) (verbatim texts : List String) : Prop where
  fits : ∀ text ∈ verbatim, discipline.Fits text
  admits : ∀ text ∈ texts, discipline.Admits text

/-- What is awaited between two brackets, given the closing one. -/
def inside : Discipline → Char → List Char
  | .brackets, closer => [closer]
  | .lines, _ => []

end Discipline

/-- A text can stand between others, whatever is asked of them. -/
def Harmless (text : String) : Prop := ∀ discipline : Discipline, discipline.Fits text

instance (text : String) : Decidable (Harmless text) :=
  inferInstanceAs (Decidable (∀ discipline : Discipline, discipline.Fits text))

variable {discipline : Discipline} {awaited before middle after outer chars : List Char}
  {text other : String} {c : Char}

namespace Discipline

/-! ## Reading -/

theorem scan_text_append (awaited : List Char) (text other : String) :
    discipline.scan awaited (text ++ other).toList =
      (discipline.scan awaited text.toList).bind fun awaited =>
        discipline.scan awaited other.toList := by
  rw [String.toList_append]
  exact List.foldlM_append

theorem scan_lines (awaited chars : List Char) :
    lines.scan awaited chars = if '\n' ∈ chars then none else some awaited := by
  induction chars with
  | nil => rfl
  | cons c chars ih =>
      change (if c = '\n' then none else some awaited).bind (lines.scan · chars) = _
      by_cases hc : c = '\n'
      · simp [hc]
      · simp [hc, Ne.symm hc, ih]

/-- What is awaited outside of a text makes no difference to it. -/
theorem scan_frame (h : discipline.scan awaited chars = some after) :
    discipline.scan (awaited ++ outer) chars = some (after ++ outer) := by
  cases discipline with
  | brackets => exact Text.scan_frame h
  | lines =>
      rw [scan_lines] at h ⊢
      split at h
      · cases h
      · next hfeed =>
        cases h
        exact if_neg hfeed

theorem Turns.frame (h : discipline.Turns before after text) (outer : List Char) :
    discipline.Turns (before ++ outer) (after ++ outer) text :=
  scan_frame h

theorem Turns.append (h : discipline.Turns before middle text)
    (hother : discipline.Turns middle after other) : discipline.Turns before after (text ++ other) := by
  unfold Turns
  rw [scan_text_append, h]
  exact hother

theorem Turns.oneLine (h : lines.Turns before after text) : OneLine text := by
  rw [Turns, scan_lines] at h
  split at h
  · cases h
  · assumption

theorem fits_iff : discipline.Fits text ↔ discipline.scan [] text.toList = some [] := .rfl

theorem turns_iff : discipline.Turns before after text ↔
    discipline.scan before text.toList = some after := .rfl

theorem fits_lines_iff : lines.Fits text ↔ OneLine text := by
  rw [fits_iff, scan_lines]
  simp [OneLine]

theorem fits_of_isClean (h : isClean text = true) : brackets.Fits text :=
  scan_of_isPlain (isClean_iff.1 h) []

theorem suits_brackets {verbatim texts : List String} (hverbatim : verbatim ⊆ texts)
    (h : ∀ text ∈ texts, isClean text = true) : brackets.Suits verbatim texts :=
  ⟨fun text htext => fits_of_isClean (h text (hverbatim htext)), h⟩

theorem suits_lines {verbatim texts : List String} (h : ∀ text ∈ verbatim, OneLine text) :
    lines.Suits verbatim texts :=
  ⟨fun text htext => fits_lines_iff.2 (h text htext), fun _ _ => trivial⟩

theorem Suits.mono {verbatim texts fewer others : List String}
    (h : discipline.Suits verbatim texts) (hfewer : fewer ⊆ verbatim) (hothers : others ⊆ texts) :
    discipline.Suits fewer others :=
  ⟨fun text htext => h.fits text (hfewer htext), fun text htext => h.admits text (hothers htext)⟩

/-- A text that fits can stand wherever a bracket may stand. -/
theorem Fits.scan (h : discipline.Fits text) (awaited : List Char) :
    discipline.scan awaited text.toList = some awaited :=
  scan_frame h

theorem Fits.append (h : discipline.Fits text) (hother : discipline.Fits other) :
    discipline.Fits (text ++ other) :=
  Turns.append h hother

/-- What consists of characters that pass a test fits if no bracket and no line feed passes it. -/
theorem harmless_of_test {test : Char → Bool} (h : ∀ c ∈ text.toList, test c = true)
    (hmarks : ('\n' :: Text.brackets).any test = false) : Harmless text := by
  obtain ⟨hfeed, hbrackets⟩ := Bool.or_eq_false_iff.1 hmarks
  intro discipline
  cases discipline with
  | brackets => exact scan_of_isPlain (fun c hc => isPlain_of_test (h c hc) hbrackets) []
  | lines =>
      refine fits_lines_iff.2 fun hmem => ?_
      rw [h _ hmem] at hfeed
      cases hfeed

theorem harmless_of_isNumeral (h : isNumeral text = true) : Harmless text :=
  harmless_of_test (isNumeral_iff.1 h) (by decide)

theorem harmless_of_isIdentifier (h : isIdentifier text = true) : Harmless text :=
  harmless_of_test (isNamePart_of_mem_identifier h) (by decide)

theorem fits_repr (number : Nat) : discipline.Fits (Nat.repr number) :=
  harmless_of_isNumeral (isNumeral_repr number) discipline

theorem fits_taskIdentifier (name : String) : discipline.Fits (taskIdentifier name) := by
  refine harmless_of_test (fun c hc => ?_ : ∀ c ∈ _, isNamePart c = true) (by decide) discipline
  rw [taskIdentifier, String.toList_append, toList_sanitize] at hc
  rcases List.mem_append.1 hc with hprefix | hname
  · exact List.all_eq_true.1 (by decide : "task_".toList.all isNamePart = true) c hprefix
  · obtain ⟨d, -, rfl⟩ := List.mem_map.1 hname
    split
    · next hd => simp [isNamePart, hd]
    · decide

/-! ## Parts of expressions -/

theorem Fits.quote (h : discipline.Fits text) : discipline.Fits (quote text) := by
  cases discipline with
  | brackets => exact (scan_quote [] text).trans h
  | lines => exact fits_lines_iff.2 (oneLine_quote text)

theorem Admits.quote (h : discipline.Admits text) : discipline.Fits (quote text) := by
  cases discipline with
  | brackets => exact Fits.quote (fits_of_isClean h)
  | lines => exact fits_lines_iff.2 (oneLine_quote text)

theorem Fits.propertyKey (h : discipline.Fits text) : discipline.Fits (propertyKey text) := by
  unfold Text.propertyKey
  split
  · exact h
  · exact h.quote

theorem Admits.propertyKey (h : discipline.Admits text) : discipline.Fits (propertyKey text) := by
  unfold Text.propertyKey
  split
  · next htext => exact harmless_of_isIdentifier htext discipline
  · exact h.quote

theorem Fits.atom (h : discipline.Fits text) : discipline.Fits (atom text) := by
  unfold Text.atom
  split
  · exact h
  · simp only [fits_iff, scan_text_append, h.scan]
    cases discipline <;> decide

theorem Admits.of_mem_splitPath {path : String} (h : discipline.Admits path)
    (hmem : text ∈ splitPath path) : discipline.Admits text := by
  cases discipline with
  | brackets => exact isClean_of_mem_splitPath h hmem
  | lines => trivial

theorem Admits.memberAccess (h : discipline.Admits text) : discipline.Fits (memberAccess text) := by
  unfold Text.memberAccess
  split
  · next htext =>
    exact Fits.append ((by decide : Harmless ".") discipline)
      (harmless_of_isIdentifier htext discipline)
  · simp only [fits_iff, scan_text_append, h.quote.scan]
    cases discipline <;> decide

theorem fits_memberPath {base path : String} (hbase : discipline.Fits base)
    (hpath : discipline.Admits path) : discipline.Fits (memberPath base path) := by
  have hsegments : ∀ segment ∈ splitPath path, discipline.Admits segment := fun _ h =>
    hpath.of_mem_splitPath h
  unfold memberPath
  generalize splitPath path = segments at hsegments
  induction segments generalizing base with
  | nil => exact hbase
  | cons segment segments ih =>
      obtain ⟨hsegment, hsegments⟩ := List.forall_mem_cons.1 hsegments
      exact ih (hbase.append hsegment.memberAccess) hsegments

/-- Texts that fit with texts that fit between them. -/
theorem fits_intercalate {separator : String} {texts : List String}
    (hseparator : discipline.Fits separator) (htexts : ∀ text ∈ texts, discipline.Fits text) :
    discipline.Fits (separator.intercalate texts) := by
  match texts with
  | [] => exact String.intercalate_nil ▸ (by decide : Harmless "") discipline
  | [text] => exact String.intercalate_singleton ▸ htexts text List.mem_cons_self
  | text :: next :: texts =>
      obtain ⟨htext, htexts⟩ := List.forall_mem_cons.1 htexts
      rw [String.intercalate_cons_cons]
      exact (htext.append hseparator).append (fits_intercalate hseparator htexts)

/-- Texts that fit with commas between them. -/
theorem fits_commas {texts : List String} (h : ∀ text ∈ texts, discipline.Fits text) :
    discipline.Fits (", ".intercalate texts) :=
  fits_intercalate ((by decide : Harmless ", ") discipline) h

theorem fits_listing {items : List String} (h : ∀ item ∈ items, discipline.Fits item) :
    discipline.Fits (listing items) := by
  simp only [fits_iff, listing, scan_text_append, (fits_commas h).scan]
  cases discipline <;> decide

end Discipline

end TickScript.Text

namespace TickScript.Literal

open TickScript.Text

/-! ## Literals -/

mutual

/-- The texts inside of a literal, the keys of maps included. -/
def texts : Literal → List String
  | .text value => [value]
  | .list items => itemTexts items
  | .map entries => entryTexts entries
  | .undefined | .null | .bool _ | .number _ => []

/-- The texts inside of list items. -/
def itemTexts : List Literal → List String
  | [] => []
  | item :: items => texts item ++ itemTexts items

/-- The texts inside of map entries. -/
def entryTexts : List (String × Literal) → List String
  | [] => []
  | (key, value) :: entries => key :: (texts value ++ entryTexts entries)

end

mutual

/-- The texts inside of a literal. The keys of maps are not among them. -/
def strings : Literal → List String
  | .text value => [value]
  | .list items => itemStrings items
  | .map entries => entryStrings entries
  | .undefined | .null | .bool _ | .number _ => []

/-- The texts inside of list items. -/
def itemStrings : List Literal → List String
  | [] => []
  | item :: items => strings item ++ itemStrings items

/-- The texts inside of the values of map entries. -/
def entryStrings : List (String × Literal) → List String
  | [] => []
  | (_, value) :: entries => strings value ++ entryStrings entries

end

/-- The texts inside of a literal fit, and so do the keys of maps in the way that they are written. -/
inductive Tidy (discipline : Discipline) : Literal → Prop where
  | undefined : Tidy discipline .undefined
  | null : Tidy discipline .null
  | bool (value : Bool) : Tidy discipline (.bool value)
  | number (value : Binary64) : Tidy discipline (.number value)
  | text {value : String} : discipline.Fits value → Tidy discipline (.text value)
  | list {items : List Literal} : (∀ item ∈ items, Tidy discipline item) →
      Tidy discipline (.list items)
  | map {entries : List (String × Literal)} :
      (∀ entry ∈ entries, discipline.Fits (propertyKey entry.1)) →
        (∀ entry ∈ entries, Tidy discipline entry.2) → Tidy discipline (.map entries)

variable {discipline : Discipline}

theorem tidy_map_iff {entries : List (String × Literal)} : (Literal.map entries).Tidy discipline ↔
    ∀ entry ∈ entries, discipline.Fits (propertyKey entry.1) ∧ entry.2.Tidy discipline := by
  constructor
  · rintro (_ | _ | _ | _ | _ | _ | ⟨hkeys, hvalues⟩) entry hentry
    exact ⟨hkeys entry hentry, hvalues entry hentry⟩
  · exact fun h => .map (fun entry hentry => (h entry hentry).1) fun entry hentry =>
      (h entry hentry).2

mutual

theorem strings_subset_texts : ∀ literal : Literal, literal.strings ⊆ literal.texts
  | .text value => List.Subset.refl [value]
  | .list items => itemStrings_subset items
  | .map entries => entryStrings_subset entries
  | .undefined | .null | .bool _ | .number _ => List.nil_subset _

theorem itemStrings_subset : ∀ items : List Literal, itemStrings items ⊆ itemTexts items
  | [] => List.nil_subset _
  | item :: items => List.append_subset.2
      ⟨List.subset_append_of_subset_left _ (strings_subset_texts item),
        List.subset_append_of_subset_right _ (itemStrings_subset items)⟩

theorem entryStrings_subset : ∀ entries : List (String × Literal),
    entryStrings entries ⊆ entryTexts entries
  | [] => List.nil_subset _
  | (_, value) :: entries => List.subset_cons_of_subset _ <| List.append_subset.2
      ⟨List.subset_append_of_subset_left _ (strings_subset_texts value),
        List.subset_append_of_subset_right _ (entryStrings_subset entries)⟩

end

mutual

/-- A literal is tidy if its texts suit. -/
theorem tidy_of_suits : ∀ {literal : Literal}, discipline.Suits literal.strings literal.texts →
    literal.Tidy discipline
  | .undefined, _ => .undefined
  | .null, _ => .null
  | .bool value, _ => .bool value
  | .number value, _ => .number value
  | .text value, h => .text (h.fits value List.mem_cons_self)
  | .list _, h => .list (tidy_items h)
  | .map _, h => tidy_map_iff.2 (tidy_entries h)

theorem tidy_items : ∀ {items : List Literal},
    discipline.Suits (itemStrings items) (itemTexts items) → ∀ item ∈ items, item.Tidy discipline
  | [], _ => List.forall_mem_nil _
  | _ :: _, h => List.forall_mem_cons.2
      ⟨tidy_of_suits (h.mono (List.subset_append_left _ _) (List.subset_append_left _ _)),
        tidy_items (h.mono (List.subset_append_right _ _) (List.subset_append_right _ _))⟩

theorem tidy_entries : ∀ {entries : List (String × Literal)},
    discipline.Suits (entryStrings entries) (entryTexts entries) →
      ∀ entry ∈ entries, discipline.Fits (propertyKey entry.1) ∧ entry.2.Tidy discipline
  | [], _ => List.forall_mem_nil _
  | (key, _) :: _, h =>
      have hkey := (h.admits key List.mem_cons_self).propertyKey
      have hrest := h.mono (List.Subset.refl _) (List.subset_cons_self _ _)
      List.forall_mem_cons.2
        ⟨⟨hkey, tidy_of_suits
            (hrest.mono (List.subset_append_left _ _) (List.subset_append_left _ _))⟩,
          tidy_entries (hrest.mono (List.subset_append_right _ _) (List.subset_append_right _ _))⟩

end

theorem renderItems_eq (items : List Literal) : renderItems items = items.map render := by
  induction items with
  | nil => rfl
  | cons item items ih => rw [renderItems, ih, List.map_cons]

theorem renderEntries_eq (entries : List (String × Literal)) :
    renderEntries entries =
      entries.map fun entry => propertyKey entry.1 ++ ": " ++ entry.2.render := by
  induction entries with
  | nil => rfl
  | cons entry entries ih => rw [renderEntries, ih, List.map_cons]

theorem fits_renderBraces {entries : List String} (h : ∀ entry ∈ entries, discipline.Fits entry) :
    discipline.Fits (renderBraces entries) := by
  unfold renderBraces
  split
  · exact (by decide : Harmless "\x7b\x7d") discipline
  · simp only [Discipline.fits_iff, Discipline.scan_text_append, (Discipline.fits_commas h).scan]
    cases discipline <;> decide

/-- The expression for an entry, with a value that fits. -/
theorem fits_entries {entries : List (String × Literal)}
    (hkeys : ∀ entry ∈ entries, discipline.Fits (propertyKey entry.1))
    (hvalues : ∀ entry ∈ entries, discipline.Fits entry.2.render) :
    discipline.Fits (renderBraces (renderEntries entries)) := by
  rw [renderEntries_eq]
  refine fits_renderBraces (List.forall_mem_map.2 fun entry hentry => ?_)
  simp only [Discipline.fits_iff, Discipline.scan_text_append, (hkeys entry hentry).scan,
    (hvalues entry hentry).scan]
  cases discipline <;> decide

/-- The expression for a tidy literal fits. -/
theorem Tidy.fits_render {literal : Literal} (h : literal.Tidy discipline) :
    discipline.Fits literal.render := by
  induction h with
  | undefined | null => cases discipline <;> decide
  | bool value => cases value <;> cases discipline <;> decide
  | number value => exact Discipline.harmless_of_isNumeral value.isNumeral_scriptText discipline
  | text hvalue => exact hvalue
  | list _ ih => exact Discipline.fits_listing (renderItems_eq _ ▸ List.forall_mem_map.2 ih)
  | map hkeys _ ih => exact fits_entries hkeys ih

theorem quoteItems_eq (items : List Literal) : quoteItems items = items.map quoteTexts := by
  induction items with
  | nil => rfl
  | cons item items ih => rw [quoteItems, ih, List.map_cons]

theorem quoteEntries_eq (entries : List (String × Literal)) :
    quoteEntries entries = entries.map fun entry => (entry.1, entry.2.quoteTexts) := by
  induction entries with
  | nil => rfl
  | cons entry entries ih => rw [quoteEntries, ih, List.map_cons]

/-- A tidy literal stays tidy with string constants in place of its texts. -/
theorem Tidy.quoteTexts {literal : Literal} (h : literal.Tidy discipline) :
    literal.quoteTexts.Tidy discipline := by
  induction h with
  | undefined => exact .undefined
  | null => exact .null
  | bool value => exact .bool value
  | number value => exact .number value
  | text hvalue => exact .text hvalue.quote
  | list _ ih => exact .list (quoteItems_eq _ ▸ List.forall_mem_map.2 ih)
  | map hkeys _ ih =>
      exact .map (quoteEntries_eq _ ▸ List.forall_mem_map.2 hkeys)
        (quoteEntries_eq _ ▸ List.forall_mem_map.2 ih)

theorem fits_settingsObject {entries : List (String × Literal)}
    (h : ∀ entry ∈ entries, discipline.Fits (propertyKey entry.1) ∧ entry.2.Tidy discipline) :
    discipline.Fits (settingsObject entries) :=
  fits_entries (fun entry hentry => (h entry (List.mem_filter.1 hentry).1).1) fun entry hentry =>
    (h entry (List.mem_filter.1 hentry).1).2.fits_render

end TickScript.Literal
