import Mathlib.Data.List.DropRight
import TickScript.Proofs.Text.Delimited
import TickScript.Text.Path

/-!
# Segments of paths

`IsSegment` says what the segments of a path look like, and `splitPath_intercalate` that every list
of such texts is the list of segments of a path. The accesses to the segments stand one behind the
other without separators. Still, each of them ends where the next one begins, so that the segments can
be read off the whole text (`flatMap_injective_of_delimited`).
-/

namespace TickScript.Text

variable {chars piece : List Char} {mark c : Char} {text segment path : String}

/-! ## Trimming -/

theorem trimChars_eq (chars : List Char) :
    trimChars chars = (chars.dropWhile isBlank).rdropWhile isBlank := rfl

/-- A second trimming changes nothing. -/
theorem trimChars_trimChars (chars : List Char) :
    trimChars (trimChars chars) = trimChars chars := by
  have hfront : (trimChars chars).dropWhile isBlank = trimChars chars := by
    rw [List.dropWhile_eq_self_iff]
    intro hpos hblank
    -- What is left after both steps begins with what is left after the first one.
    have hprefix : trimChars chars <+: chars.dropWhile isBlank :=
      trimChars_eq chars ▸ List.rdropWhile_prefix _ _
    have hlength := Nat.lt_of_lt_of_le hpos hprefix.length_le
    have hhead : (trimChars chars)[0] = (chars.dropWhile isBlank)[0] := hprefix.getElem hpos
    have hfirst := List.dropWhile_get_zero_not isBlank chars hlength
    rw [List.get_eq_getElem, ← hhead] at hfirst
    exact hfirst hblank
  rw [trimChars_eq (trimChars chars), hfront, trimChars_eq]
  exact List.rdropWhile_idempotent _ _

theorem trim_trim (text : String) : trim (trim text) = trim text := by
  unfold trim
  rw [String.toList_ofList, trimChars_trimChars]

/-- Characters are left as they are exactly if there is no blank at either end. -/
theorem trimChars_eq_self_iff : trimChars chars = chars ↔
    (∀ c ∈ chars.head?, isBlank c = false) ∧ ∀ c ∈ chars.getLast?, isBlank c = false := by
  have hhead : chars.dropWhile isBlank = chars ↔ ∀ c ∈ chars.head?, isBlank c = false := by
    cases chars with
    | nil => simp
    | cons c chars => simp [List.dropWhile_eq_self_iff]
  have hlast : chars.rdropWhile isBlank = chars ↔ ∀ c ∈ chars.getLast?, isBlank c = false := by
    rw [List.rdropWhile_eq_self_iff]
    cases chars with
    | nil => simp
    | cons c chars => simp [List.getLast?_eq_some_getLast]
  rw [← hhead, ← hlast]
  constructor
  · intro h
    have hprefix : trimChars chars <+: chars.dropWhile isBlank :=
      trimChars_eq chars ▸ List.rdropWhile_prefix _ _
    rw [h] at hprefix
    have hfront : chars.dropWhile isBlank = chars :=
      (List.dropWhile_suffix isBlank).eq_of_length_le hprefix.length_le
    rw [trimChars_eq, hfront] at h
    exact ⟨hfront, h⟩
  · rintro ⟨hfront, hback⟩
    rw [trimChars_eq, hfront, hback]

/-! ## Cutting at marks -/

theorem mem_of_mem_splitAtMarks (hpiece : piece ∈ splitAtMarks mark chars) (hc : c ∈ piece) :
    c ∈ chars := by
  induction chars generalizing piece with
  | nil => simp_all [splitAtMarks]
  | cons d chars ih =>
      rw [splitAtMarks] at hpiece
      split at hpiece
      · rcases List.mem_cons.1 hpiece with rfl | hpiece
        · cases hc
        · exact List.mem_cons_of_mem _ (ih hpiece hc)
      · split at hpiece
        · simp_all
        · next first pieces hsplit =>
          rcases List.mem_cons.1 hpiece with rfl | hpiece
          · rcases List.mem_cons.1 hc with rfl | hc
            · exact List.mem_cons_self
            · exact List.mem_cons_of_mem _ (ih (hsplit ▸ List.mem_cons_self) hc)
          · exact List.mem_cons_of_mem _ (ih (hsplit ▸ List.mem_cons_of_mem _ hpiece) hc)

/-- No piece has a mark in it. -/
theorem mark_not_mem_of_mem_splitAtMarks (hpiece : piece ∈ splitAtMarks mark chars) :
    mark ∉ piece := by
  induction chars generalizing piece with
  | nil => simp_all [splitAtMarks]
  | cons d chars ih =>
      rw [splitAtMarks] at hpiece
      split at hpiece
      · rcases List.mem_cons.1 hpiece with rfl | hpiece
        · exact List.not_mem_nil
        · exact ih hpiece
      · next hne =>
        split at hpiece
        · obtain rfl := List.mem_singleton.1 hpiece
          simp [Ne.symm hne]
        · next first pieces hsplit =>
          rcases List.mem_cons.1 hpiece with rfl | hpiece
          · have hfirst := ih (hsplit ▸ List.mem_cons_self)
            simp [hfirst, Ne.symm hne]
          · exact ih (hsplit ▸ List.mem_cons_of_mem _ hpiece)

theorem splitAtMarks_of_not_mem (h : mark ∉ chars) : splitAtMarks mark chars = [chars] := by
  induction chars with
  | nil => rfl
  | cons c chars ih =>
      obtain ⟨hc, hchars⟩ := not_or.1 (mt List.mem_cons.2 h)
      rw [splitAtMarks, if_neg (Ne.symm hc), ih hchars]

/-- The first piece ends at the first mark. -/
theorem splitAtMarks_append (h : mark ∉ piece) (rest : List Char) :
    splitAtMarks mark (piece ++ mark :: rest) = piece :: splitAtMarks mark rest := by
  induction piece with
  | nil => exact if_pos rfl
  | cons c piece ih =>
      obtain ⟨hc, hpiece⟩ := not_or.1 (mt List.mem_cons.2 h)
      rw [List.cons_append, splitAtMarks, if_neg (Ne.symm hc), ih hpiece]

/-! ## Segments -/

/-- A text can be a segment of a path. -/
structure IsSegment (text : String) : Prop where
  nonempty : text ≠ ""
  first : ∀ c ∈ text.toList.head?, isBlank c = false
  last : ∀ c ∈ text.toList.getLast?, isBlank c = false
  dotless : '.' ∉ text.toList

theorem mem_of_mem_trimChars (h : c ∈ trimChars chars) : c ∈ chars := by
  rw [trimChars, List.mem_reverse] at h
  have hreversed := (List.dropWhile_suffix isBlank).subset h
  rw [List.mem_reverse] at hreversed
  exact (List.dropWhile_suffix isBlank).subset hreversed

/-- Segments are trimmed pieces between dots. -/
theorem mem_splitPath_iff : segment ∈ splitPath path ↔
    segment ≠ "" ∧ ∃ piece ∈ splitAtMarks '.' path.toList, segment.toList = trimChars piece := by
  unfold splitPath
  simp only [List.mem_filterMap, List.mem_map]
  constructor
  · rintro ⟨_, ⟨piece, hpiece, rfl⟩, hsome⟩
    split at hsome
    · cases hsome
    · next hne =>
      cases hsome
      rw [String.toList_ofList]
      refine ⟨fun hempty => hne ?_, piece, hpiece, rfl⟩
      rw [← String.toList_inj, String.toList_ofList] at hempty
      exact List.isEmpty_iff.2 hempty
  · rintro ⟨hne, piece, hpiece, hsegment⟩
    refine ⟨_, ⟨piece, hpiece, rfl⟩, ?_⟩
    rw [← hsegment, if_neg, String.ofList_toList]
    rw [List.isEmpty_iff, ← String.toList_empty, String.toList_inj]
    exact hne

theorem isSegment_of_mem_splitPath (h : segment ∈ splitPath path) : IsSegment segment := by
  obtain ⟨hne, piece, hpiece, hsegment⟩ := mem_splitPath_iff.1 h
  have htrimmed : trimChars segment.toList = segment.toList := by
    rw [hsegment, trimChars_trimChars]
  obtain ⟨hfirst, hlast⟩ := trimChars_eq_self_iff.1 htrimmed
  refine ⟨hne, hfirst, hlast, fun hdot => ?_⟩
  rw [hsegment] at hdot
  exact mark_not_mem_of_mem_splitAtMarks hpiece (mem_of_mem_trimChars hdot)

/-- A segment is neither trimmed nor dropped. -/
theorem IsSegment.kept (h : IsSegment segment) :
    (if (trimChars segment.toList).isEmpty then none
      else some (String.ofList (trimChars segment.toList))) = some segment := by
  have hne : ¬ segment.toList.isEmpty = true := by
    rw [List.isEmpty_iff, ← String.toList_empty, String.toList_inj]
    exact h.nonempty
  rw [trimChars_eq_self_iff.2 ⟨h.first, h.last⟩, if_neg hne, String.ofList_toList]

/-- A segment is the only one of a path that has nothing else. -/
theorem splitPath_segment (h : IsSegment segment) : splitPath segment = [segment] := by
  unfold splitPath
  rw [splitAtMarks_of_not_mem h.dotless, List.map_singleton, List.filterMap_cons]
  simp only [h.kept, List.filterMap_nil]

/-- A segment before a dot is the first one of a path. -/
theorem splitPath_cons (h : IsSegment segment) (rest : String) :
    splitPath (segment ++ "." ++ rest) = segment :: splitPath rest := by
  have hcut : (segment ++ "." ++ rest).toList = segment.toList ++ '.' :: rest.toList := by simp
  unfold splitPath
  rw [hcut, splitAtMarks_append h.dotless, List.map_cons, List.filterMap_cons]
  simp only [h.kept]

/-- Segments with dots between them are the segments of a path. -/
theorem splitPath_intercalate {segments : List String} (h : ∀ segment ∈ segments, IsSegment segment) :
    splitPath (".".intercalate segments) = segments := by
  match segments with
  | [] => exact String.intercalate_nil ▸ (by decide : splitPath "" = [])
  | [segment] =>
      rw [String.intercalate_singleton]
      exact splitPath_segment (h segment List.mem_cons_self)
  | segment :: next :: segments =>
      obtain ⟨hsegment, hsegments⟩ := List.forall_mem_cons.1 h
      rw [String.intercalate_cons_cons, splitPath_cons hsegment, splitPath_intercalate hsegments]

/-! ## Accesses -/

/-- Items can be read off their texts, if each text ends where a text or nothing follows. -/
theorem flatMap_injective_of_delimited {α : Type} {spell : α → List Char}
    {Follows : List Char → Prop} (hend : Follows [])
    (hnext : ∀ item rest, Follows (spell item ++ rest)) (hne : ∀ item, spell item ≠ [])
    (hspell : ∀ item other rest rest', Follows rest → Follows rest' →
      spell item ++ rest = spell other ++ rest' → item = other ∧ rest = rest') :
    Function.Injective (List.flatMap spell) := by
  have hfollows (items : List α) : Follows (items.flatMap spell) := by
    cases items with
    | nil => exact hend
    | cons item items => exact hnext item _
  intro items
  induction items with
  | nil =>
      intro others h
      cases others with
      | nil => rfl
      | cons other others => simp [hne other] at h
  | cons item items ih =>
      intro others h
      cases others with
      | nil => simp [hne item] at h
      | cons other others =>
          obtain ⟨rfl, hrest⟩ := hspell item other _ _ (hfollows items) (hfollows others) h
          rw [ih hrest]

/-- What follows the access to a segment does not belong to a name. -/
def EndsName (rest : List Char) : Prop := ∀ c ∈ rest.head?, isNamePart c = false

theorem toList_memberAccess (segment : String) : (memberAccess segment).toList =
    if isIdentifier segment then '.' :: segment.toList
    else '[' :: ((quote segment).toList ++ [']']) := by
  unfold memberAccess
  split <;> simp

/-- The access to a segment ends before the next one, and no other segment has it. -/
theorem memberAccess_append_inj {other : String} {rest rest' : List Char} (hrest : EndsName rest)
    (hrest' : EndsName rest')
    (h : (memberAccess segment).toList ++ rest = (memberAccess other).toList ++ rest') :
    segment = other ∧ rest = rest' := by
  rw [toList_memberAccess, toList_memberAccess] at h
  split at h
  · next hsegment =>
    split at h
    · next hother =>
      exact identifier_append_inj hsegment hother hrest hrest' (List.tail_eq_of_cons_eq h)
    · exact absurd (List.head_eq_of_cons_eq h) (by decide)
  · split at h
    · exact absurd (List.head_eq_of_cons_eq h) (by decide)
    · rw [List.cons_append, List.cons_append, List.cons_inj_right, List.append_assoc,
        List.append_assoc] at h
      obtain ⟨hsame, hrests⟩ := quote_append_inj h
      exact ⟨hsame, List.tail_eq_of_cons_eq hrests⟩

theorem memberAccesses_injective :
    Function.Injective (List.flatMap fun segment => (memberAccess segment).toList) := by
  have hnext (segment : String) (rest : List Char) :
      EndsName ((memberAccess segment).toList ++ rest) := by
    rw [toList_memberAccess]
    split <;> simp [EndsName, isNamePart]
  have hne (segment : String) : (memberAccess segment).toList ≠ [] := by
    rw [toList_memberAccess]
    split <;> simp
  exact flatMap_injective_of_delimited (by simp [EndsName]) hnext hne
    fun _ _ _ _ hrest hrest' h => memberAccess_append_inj hrest hrest' h

/-- Texts that are put behind a base one after the other. -/
theorem toList_foldl_append {α : Type} (spell : α → String) (base : String) (items : List α) :
    (items.foldl (fun text item => text ++ spell item) base).toList =
      base.toList ++ items.flatMap fun item => (spell item).toList := by
  induction items generalizing base with
  | nil => simp
  | cons item items ih => simp [ih]

/-- Two paths give the same access exactly if they have the same segments. -/
theorem memberPath_eq_iff (base : String) {path other : String} :
    memberPath base path = memberPath base other ↔ splitPath path = splitPath other := by
  unfold memberPath
  rw [← String.toList_inj, toList_foldl_append, toList_foldl_append, List.append_cancel_left_eq]
  exact memberAccesses_injective.eq_iff

/-- A key in brackets, behind a mark. -/
def bracketed (mark : List Char) (key : String) : List Char := mark ++ '[' :: (key.toList ++ [']'])

/-- String constants in brackets, each behind the same mark, can be told apart. -/
theorem bracketed_injective (mark : List Char) :
    Function.Injective (List.flatMap fun segment => bracketed mark (quote segment)) := by
  refine @flatMap_injective_of_delimited _ _ (fun _ => True) trivial (fun _ _ => trivial)
    (fun _ => by simp [bracketed]) fun segment other rest rest' _ _ h => ?_
  simp only [bracketed, List.append_assoc, List.cons_append, List.append_cancel_left_eq,
    List.cons.injEq, true_and] at h
  obtain ⟨hsame, hrests⟩ := quote_append_inj h
  exact ⟨hsame, List.tail_eq_of_cons_eq hrests⟩

end TickScript.Text
