import TickScript.Proofs.Json.Scanned
import TickScript.Proofs.Text.Identifier

/-!
# Where texts end

A string constant ends at its closing quote, and a name or a number at the first character that cannot
belong to it. So a text that begins with one of them, and goes on behind it, can be cut in one way
only. `quote_append_inj` and `propertyKey_append_inj` say this of constants and of the keys of
objects.
-/

namespace TickScript.Text

variable {text other : String} {rest rest' : List Char}

/-- What consists of characters that pass a test ends where one does not pass it. -/
theorem append_inj_of_test {test : Char → Bool} {front front' : List Char}
    (hfront : ∀ c ∈ front, test c = true) (hfront' : ∀ c ∈ front', test c = true)
    (hrest : ∀ c ∈ rest.head?, test c = false) (hrest' : ∀ c ∈ rest'.head?, test c = false)
    (h : front ++ rest = front' ++ rest') : front = front' ∧ rest = rest' := by
  have hend {chars : List Char} (hchars : ∀ c ∈ chars.head?, test c = false) :
      chars.takeWhile test = [] := by
    cases chars with
    | nil => rfl
    | cons c chars => simp [hchars c rfl]
  have hsame : front = front' := by
    have htaken := congrArg (List.takeWhile test) h
    rwa [List.takeWhile_append_of_pos hfront, List.takeWhile_append_of_pos hfront', hend hrest,
      hend hrest', List.append_nil, List.append_nil] at htaken
  subst hsame
  exact ⟨rfl, List.append_cancel_left h⟩

theorem toList_quote (text : String) :
    (quote text).toList = '"' :: (text.toList.flatMap escapeChar ++ ['"']) :=
  String.toList_ofList

/-- A string constant ends at its closing quote, and no other text has it. -/
theorem quote_append_inj (h : (quote text).toList ++ rest = (quote other).toList ++ rest') :
    text = other ∧ rest = rest' := by
  rw [toList_quote, toList_quote, List.cons_append, List.cons_append, List.cons_inj_right,
    List.append_assoc, List.append_assoc] at h
  have hscan := congrArg (Json.scanChars {} []) h
  rw [List.singleton_append, List.singleton_append, Json.scanChars_quoted, Json.scanChars_quoted]
    at hscan
  simpa [Json.Scan.ofText] using hscan

/-- An identifier ends where a character stands that cannot belong to a name. -/
theorem identifier_append_inj (htext : isIdentifier text = true) (hother : isIdentifier other = true)
    (hrest : ∀ c ∈ rest.head?, isNamePart c = false)
    (hrest' : ∀ c ∈ rest'.head?, isNamePart c = false)
    (h : text.toList ++ rest = other.toList ++ rest') : text = other ∧ rest = rest' := by
  obtain ⟨hsame, hrests⟩ := append_inj_of_test (isNamePart_of_mem_identifier htext)
    (isNamePart_of_mem_identifier hother) hrest hrest' h
  exact ⟨String.toList_inj.1 hsame, hrests⟩

/-- An identifier does not begin as a string constant does. -/
theorem identifier_append_ne_quote (htext : isIdentifier text = true) :
    text.toList ++ rest ≠ (quote other).toList ++ rest' := by
  intro h
  unfold isIdentifier at htext
  rw [toList_quote] at h
  cases hchars : text.toList with
  | nil => simp [hchars] at htext
  | cons c chars =>
      rw [hchars, List.cons_append, List.cons_append, List.cons.injEq] at h
      rw [hchars, h.1] at htext
      exact absurd htext (by simp [isNameStart])

/-- The key of an object ends before the colon behind it, and no other key is written like it. -/
theorem propertyKey_append_inj
    (h : (propertyKey text).toList ++ ':' :: rest = (propertyKey other).toList ++ ':' :: rest') :
    text = other ∧ rest = rest' := by
  have hcolon (chars : List Char) : ∀ c ∈ (':' :: chars).head?, isNamePart c = false := by
    simp [isNamePart]
  unfold propertyKey at h
  split at h
  · next htext =>
    split at h
    · next hother =>
      obtain ⟨hsame, hrests⟩ := identifier_append_inj htext hother (hcolon _) (hcolon _) h
      exact ⟨hsame, List.tail_eq_of_cons_eq hrests⟩
    · exact absurd h (identifier_append_ne_quote htext)
  · split at h
    · next hother => exact absurd h.symm (identifier_append_ne_quote hother)
    · obtain ⟨hsame, hrests⟩ := quote_append_inj h
      exact ⟨hsame, List.tail_eq_of_cons_eq hrests⟩

end TickScript.Text
