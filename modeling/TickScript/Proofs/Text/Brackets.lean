import Mathlib.Data.List.Basic
import TickScript.Proofs.Text.Paths

/-!
# Brackets

A text is read with the closing brackets that are still awaited, the innermost first. An opening
bracket adds its own, and a closing one has to be the first of them. What is awaited outside of a text
makes no difference to it, and string constants are read as the texts that they stand for.
-/

namespace TickScript.Text

/-- The bracket that closes what a bracket opens. -/
def closer? : Char → Option Char
  | '(' => some ')'
  | '[' => some ']'
  | '\x7b' => some '\x7d'
  | _ => none

/-- Whether a character is a closing bracket. -/
def isCloser (c : Char) : Bool := c == ')' || c == ']' || c == '\x7d'

/-- The brackets that are awaited after one more character, unless it closes what is not open. -/
def step (awaited : List Char) (c : Char) : Option (List Char) :=
  match closer? c with
  | some closer => some (closer :: awaited)
  | none =>
    if isCloser c then
      match awaited with
      | expected :: outer => if c = expected then some outer else none
      | [] => none
    else some awaited

/-- The brackets that are awaited after more characters. -/
def scan (awaited chars : List Char) : Option (List Char) := chars.foldlM step awaited

/-- The brackets. -/
def brackets : List Char := ['(', ')', '[', ']', '\x7b', '\x7d']

/-- A character is no bracket. -/
def isPlain (c : Char) : Bool := !brackets.contains c

/-- A text is without brackets. -/
def isClean (text : String) : Bool := text.toList.all isPlain

variable {awaited after outer chars : List Char} {text : String} {c : Char}

/-! ## Reading -/

/-- A closing bracket can only stand where it is the innermost that is awaited. -/
theorem step_closer_iff (hc : isCloser c = true) :
    step awaited c = some after ↔ awaited = c :: after := by
  have hopener : closer? c = none := by
    unfold closer?
    split <;> first | rfl | cases hc
  unfold step
  rw [hopener]
  dsimp only
  rw [if_pos hc]
  cases awaited with
  | nil => simp
  | cons expected outer =>
      by_cases hexpected : c = expected
      · simp [hexpected]
      · simp [hexpected, Ne.symm hexpected]

/-- What one more character does: it opens a bracket, or closes the innermost, or does neither. -/
theorem step_cases (h : step awaited c = some after) :
    (∃ closer, closer? c = some closer ∧ after = closer :: awaited) ∨
      (isCloser c = true ∧ awaited = c :: after) ∨
        ((∀ awaited, step awaited c = some awaited) ∧ after = awaited) := by
  cases hopener : closer? c with
  | some closer =>
      simp only [step, hopener, Option.some.injEq] at h
      exact .inl ⟨closer, rfl, h.symm⟩
  | none =>
      by_cases hc : isCloser c = true
      · exact .inr (.inl ⟨hc, (step_closer_iff hc).1 h⟩)
      · simp only [step, hopener, if_neg hc, Option.some.injEq] at h
        exact .inr (.inr ⟨fun awaited => by simp [step, hopener, hc], h.symm⟩)

theorem scan_nil (awaited : List Char) : scan awaited [] = some awaited := rfl

theorem scan_cons (awaited : List Char) (c : Char) (chars : List Char) :
    scan awaited (c :: chars) = (step awaited c).bind fun awaited => scan awaited chars := rfl

theorem scan_append (awaited chars more : List Char) :
    scan awaited (chars ++ more) = (scan awaited chars).bind fun awaited => scan awaited more :=
  List.foldlM_append

/-- What is awaited outside of a text makes no difference to it. -/
theorem step_frame (h : step awaited c = some after) :
    step (awaited ++ outer) c = some (after ++ outer) := by
  rcases step_cases h with ⟨closer, hcloser, rfl⟩ | ⟨hc, rfl⟩ | ⟨hplain, rfl⟩
  · simp [step, hcloser]
  · exact (step_closer_iff hc).2 rfl
  · exact hplain _

theorem scan_frame (h : scan awaited chars = some after) :
    scan (awaited ++ outer) chars = some (after ++ outer) := by
  induction chars generalizing awaited with
  | nil =>
      cases h
      rfl
  | cons c chars ih =>
      obtain ⟨middle, hstep, hrest⟩ := Option.bind_eq_some_iff.1 h
      exact Option.bind_eq_some_iff.2 ⟨middle ++ outer, step_frame hstep, ih hrest⟩

theorem isCloser_of_closer? {closer : Char} (h : closer? c = some closer) : isCloser closer = true := by
  unfold closer? at h
  split at h <;> cases h <;> decide

/-- Only closing brackets are awaited. -/
theorem closers_of_scan (h : scan awaited chars = some after)
    (hclosers : ∀ c ∈ awaited, isCloser c = true) : ∀ c ∈ after, isCloser c = true := by
  induction chars generalizing awaited with
  | nil =>
      cases h
      exact hclosers
  | cons c chars ih =>
      obtain ⟨middle, hstep, hrest⟩ := Option.bind_eq_some_iff.1 h
      refine ih hrest ?_
      rcases step_cases hstep with ⟨closer, hcloser, rfl⟩ | ⟨-, rfl⟩ | ⟨-, rfl⟩
      · exact List.forall_mem_cons.2 ⟨isCloser_of_closer? hcloser, hclosers⟩
      · exact (List.forall_mem_cons.1 hclosers).2
      · exact hclosers

/-- What is awaited can be closed in order. -/
theorem scan_awaited (h : ∀ c ∈ awaited, isCloser c = true) : scan awaited awaited = some [] := by
  induction awaited with
  | nil => rfl
  | cons c awaited ih =>
      obtain ⟨hc, hawaited⟩ := List.forall_mem_cons.1 h
      exact Option.bind_eq_some_iff.2 ⟨awaited, (step_closer_iff hc).2 rfl, ih hawaited⟩

/-- The innermost bracket that is awaited closes an earlier one, and what stands in between is
nested. -/
theorem opener_of_scan {expected : Char} (h : scan [] chars = some (expected :: awaited)) :
    ∃ earlier opener inner, chars = earlier ++ opener :: inner ∧ closer? opener = some expected ∧
      scan [] earlier = some awaited ∧ scan [] inner = some [] := by
  -- The last character is the bracket itself, or stands inside, or closes what is opened inside.
  induction hlength : chars.length using Nat.strongRecOn generalizing chars expected awaited with
  | ind length ih =>
  subst hlength
  rcases List.eq_nil_or_concat' chars with rfl | ⟨front, last, rfl⟩
  · cases h
  rw [scan_append] at h
  obtain ⟨middle, hfront, hlast⟩ := Option.bind_eq_some_iff.1 h
  have hshorter : front.length < (front ++ [last]).length := by simp
  obtain ⟨after, hstep, hafter⟩ := Option.bind_eq_some_iff.1 hlast
  cases hafter
  rcases step_cases hstep with ⟨closer, hcloser, heq⟩ | ⟨hc, rfl⟩ | ⟨hplain, rfl⟩
  · cases heq
    exact ⟨front, last, [], rfl, hcloser, hfront, rfl⟩
  · obtain ⟨earlier, opener, inner, rfl, hopener, hearlier, hinner⟩ := ih _ hshorter hfront rfl
    have hcut : earlier.length < (earlier ++ opener :: inner ++ [last]).length := by
      simp
    obtain ⟨outside, outer, between, rfl, houter, houtside, hbetween⟩ := ih _ hcut hearlier rfl
    refine ⟨outside, outer, between ++ opener :: inner ++ [last], by simp, houter, houtside, ?_⟩
    have hopen : step [] opener = some [last] := by rw [step, hopener]
    have hclose : step [last] last = some [] := (step_closer_iff hc).2 rfl
    have hinside : scan [last] inner = some [last] := scan_frame hinner
    simp only [scan_append, scan_cons, scan_nil, hbetween, hopen, hinside, hclose, Option.bind_some]
  · obtain ⟨earlier, opener, inner, rfl, hopener, hearlier, hinner⟩ := ih _ hshorter hfront rfl
    refine ⟨earlier, opener, inner ++ [last], by simp, hopener, hearlier, ?_⟩
    simp only [scan_append, scan_cons, scan_nil, hinner, hplain [], Option.bind_some]

/-! ## Texts without brackets -/

/-- A character is no bracket if it passes a test that no bracket passes. -/
theorem isPlain_of_test {test : Char → Bool} (h : test c = true)
    (hbrackets : brackets.any test = false) : isPlain c = true := by
  rw [isPlain, Bool.not_eq_true', ← Bool.not_eq_true, List.contains_iff_mem]
  intro hmem
  exact List.any_eq_false.1 hbrackets c hmem h

theorem step_of_isPlain (h : isPlain c = true) (awaited : List Char) :
    step awaited c = some awaited := by
  have hmem : c ∉ brackets := by
    rwa [isPlain, Bool.not_eq_true', ← Bool.not_eq_true, List.contains_iff_mem] at h
  have hopener : closer? c = none := by
    unfold closer?
    split <;> first | rfl | exact (hmem (by decide)).elim
  have hcloser : isCloser c = false := by
    simp only [brackets, List.mem_cons, not_or] at hmem
    simp [isCloser, hmem]
  simp [step, hopener, hcloser]

theorem scan_of_isPlain (h : ∀ c ∈ chars, isPlain c = true) (awaited : List Char) :
    scan awaited chars = some awaited := by
  induction chars with
  | nil => rfl
  | cons c chars ih =>
      obtain ⟨hc, hchars⟩ := List.forall_mem_cons.1 h
      exact Option.bind_eq_some_iff.2 ⟨awaited, step_of_isPlain hc awaited, ih hchars⟩

theorem isClean_iff : isClean text = true ↔ ∀ c ∈ text.toList, isPlain c = true :=
  List.all_eq_true

theorem isClean_ofList (h : ∀ c ∈ chars, isPlain c = true) : isClean (String.ofList chars) = true :=
  isClean_iff.2 (by rwa [String.toList_ofList])

/-! ## String constants and paths -/

/-- Escapes have no brackets, and brackets are not escaped. -/
theorem scan_escapeChar (awaited : List Char) (c : Char) :
    scan awaited (escapeChar c) = step awaited c := by
  have hcontrol (chars : List Char) (hchars : chars.all isPlain = true)
      (hc : isPlain c = true) : scan awaited chars = step awaited c := by
    rw [scan_of_isPlain (List.all_eq_true.1 hchars), step_of_isPlain hc]
  have hlow (h : c.toNat < 32) : isPlain c = true :=
    @isPlain_of_test c (fun c => c.toNat < 32) (decide_eq_true h) (by decide)
  have hdigit : ∀ n < 16, isPlain (hexDigit n) = true := by decide
  unfold escapeChar
  split
  · next h => exact hcontrol _ (by decide) (h ▸ by decide)
  split
  · next h => exact hcontrol _ (by decide) (h ▸ by decide)
  split
  · next h => exact hcontrol _ (by decide) (h ▸ by decide)
  split
  · next h => exact hcontrol _ (by decide) (h ▸ by decide)
  split
  · next h => exact hcontrol _ (by decide) (h ▸ by decide)
  split
  · next h => exact hcontrol _ (by decide) (hlow (by omega))
  split
  · next h => exact hcontrol _ (by decide) (hlow (by omega))
  split
  · next h =>
    refine hcontrol _ (List.all_eq_true.2 ?_) (hlow h)
    simp only [List.forall_mem_cons, List.not_mem_nil, false_implies, implies_true, and_true]
    exact ⟨by decide, by decide, by decide, by decide, hdigit _ (by omega), hdigit _ (by omega)⟩
  · exact Option.bind_fun_some _

theorem scan_quote (awaited : List Char) (text : String) :
    scan awaited (quote text).toList = scan awaited text.toList := by
  have hescaped (chars : List Char) (awaited : List Char) :
      scan awaited (chars.flatMap escapeChar) = scan awaited chars := by
    induction chars generalizing awaited with
    | nil => rfl
    | cons c chars ih =>
        rw [List.flatMap_cons, scan_append, scan_escapeChar]
        exact Option.bind_congr fun middle _ => ih middle
  have hmark (awaited : List Char) : scan awaited ['"'] = some awaited :=
    scan_of_isPlain (List.all_eq_true.1 (by decide)) awaited
  have hquote : (quote text).toList = ['"'] ++ text.toList.flatMap escapeChar ++ ['"'] :=
    String.toList_ofList
  rw [hquote, scan_append, scan_append, hmark, Option.bind_some, hescaped]
  simp only [hmark, Option.bind_fun_some]

/-- The segments of a path without brackets have none. -/
theorem isClean_of_mem_splitPath {path segment : String} (hpath : isClean path = true)
    (h : segment ∈ splitPath path) : isClean segment = true := by
  obtain ⟨chars, hchars, hsome⟩ := List.mem_filterMap.1 h
  obtain ⟨piece, hpiece, rfl⟩ := List.mem_map.1 hchars
  split at hsome
  · cases hsome
  · cases hsome
    exact isClean_ofList fun c hc =>
      isClean_iff.1 hpath c (mem_of_mem_splitAtMarks hpiece (mem_of_mem_trimChars hc))

end TickScript.Text
