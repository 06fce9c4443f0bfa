import Mathlib.Data.List.Basic
import TickScript.Text.Identifier

/-!
# Expressions of scripts

Sums, differences, remainders and comparisons of integers, as a script has them in its text. `read?`
reads a list of tokens by the ranks of the operators, with what waits for a right operand on a
stack. An expression is written with the parentheses that it needs, and the main statement of this
module, `parse?_text`, says that it is read as it was before. `truth?` is what a text says about the
values of its names, where integers are exact and a remainder has the sign of the dividend.
-/

namespace TickScript.Script

open TickScript.Text

/-- An operator between two operands. -/
inductive Operator where
  | plus
  | minus
  | remainder
  | same
  deriving DecidableEq

/-- How strongly an operator binds. -/
def Operator.rank : Operator → Nat
  | .same => 1
  | .plus | .minus => 2
  | .remainder => 3

/-- The text of an operator. -/
def Operator.text : Operator → String
  | .plus => "+"
  | .minus => "-"
  | .remainder => "%"
  | .same => "==="

/-- An expression of integers and names. -/
inductive Expr where
  | number (value : Nat)
  | name (text : String)
  | operation (operator : Operator) (left right : Expr)
  deriving DecidableEq

/-- A part of a text that is read as a whole. -/
inductive Token where
  | number (value : Nat)
  | name (text : String)
  | operator (operator : Operator)
  | opening
  | closing
  deriving DecidableEq

/-! ## Reading texts -/

/-- A character of a numeral or of a name with its members. -/
def isWordPart (c : Char) : Bool := isNamePart c || c == '.'

/-- The token of a word, if there is one. -/
def wordTokens (word : List Char) : List Token :=
  if word.isEmpty then []
  else if word.all Char.isDigit then [.number (Nat.ofDigitChars 10 word 0)]
  else [.name (String.ofList word)]

/-- The token of a single character. -/
def mark? : Char → Option Token
  | '+' => some (.operator .plus)
  | '-' => some (.operator .minus)
  | '%' => some (.operator .remainder)
  | '(' => some .opening
  | ')' => some .closing
  | _ => none

/-- The tokens of a text, of which a word has been read so far. -/
def scan? (word : List Char) : List Char → Option (List Token)
  | [] => some (wordTokens word)
  | '=' :: '=' :: '=' :: rest =>
    (scan? [] rest).map fun tokens => wordTokens word ++ .operator .same :: tokens
  | c :: rest =>
    if isWordPart c then scan? (word ++ [c]) rest
    else if c = ' ' then (scan? [] rest).map (wordTokens word ++ ·)
    else do
      let mark ← mark? c
      let tokens ← scan? [] rest
      return wordTokens word ++ mark :: tokens

/-! ## Reading tokens -/

/-- What waits until an operand to its right has been read. -/
inductive Pending where
  | group
  | operation (operator : Operator) (left : Expr)

/-- Complete the operations that bind as strongly as a rank, the latest first. -/
def complete (rank : Nat) : List Pending → Expr → List Pending × Expr
  | .operation operator left :: stack, right =>
    if rank ≤ operator.rank then complete rank stack (.operation operator left right)
    else (.operation operator left :: stack, right)
  | stack, right => (stack, right)

mutual

/-- Read on where an operand is due. -/
def readOperand? (stack : List Pending) : List Token → Option Expr
  | .number value :: tokens => readOperator? stack (.number value) tokens
  | .name text :: tokens => readOperator? stack (.name text) tokens
  | .opening :: tokens => readOperand? (.group :: stack) tokens
  | _ => none

/-- Read on behind an operand. -/
def readOperator? (stack : List Pending) (operand : Expr) : List Token → Option Expr
  | [] =>
    match complete 0 stack operand with
    | ([], whole) => some whole
    | _ => none
  | .operator operator :: tokens =>
    let (stack, left) := complete operator.rank stack operand
    readOperand? (.operation operator left :: stack) tokens
  | .closing :: tokens =>
    match complete 0 stack operand with
    | (.group :: stack, group) => readOperator? stack group tokens
    | _ => none
  | _ => none

end

/-- The expression of a list of tokens. -/
def read? (tokens : List Token) : Option Expr := readOperand? [] tokens

/-- The expression of a text. -/
def parse? (text : String) : Option Expr := (scan? [] text.toList).bind read?

/-! ## Values -/

/-- What an expression stands for. -/
inductive Outcome where
  | integer (value : Int)
  | truth (value : Bool)
  deriving DecidableEq

/-- The result of an operator. There is no remainder by zero, and truth values are only compared. -/
def Operator.apply? : Operator → Outcome → Outcome → Option Outcome
  | .plus, .integer left, .integer right => some (.integer (left + right))
  | .minus, .integer left, .integer right => some (.integer (left - right))
  | .remainder, .integer left, .integer right =>
    if right = 0 then none else some (.integer (left.tmod right))
  | .same, left, right => some (.truth (left = right))
  | _, _, _ => none

/-- What an expression stands for, given the integers that names stand for. -/
def Expr.outcome? (names : String → Option Int) : Expr → Option Outcome
  | .number value => some (.integer value)
  | .name text => (names text).map .integer
  | .operation operator left right => do
    let left ← left.outcome? names
    let right ← right.outcome? names
    operator.apply? left right

/-- Whether a text is true, if it is an expression that is true or false. -/
def truth? (names : String → Option Int) (text : String) : Option Bool := do
  match ← (← parse? text).outcome? names with
  | .truth value => some value
  | .integer _ => none

/-! ## Writing -/

/-- The tokens of an expression where operators of a lower rank need parentheses. -/
def Expr.tokens (rank : Nat) : Expr → List Token
  | .number value => [.number value]
  | .name text => [.name text]
  | .operation operator left right =>
    let inner := left.tokens operator.rank ++ .operator operator :: right.tokens (operator.rank + 1)
    if rank ≤ operator.rank then inner else .opening :: inner ++ [.closing]

/-- The text of an expression where operators of a lower rank need parentheses. -/
def Expr.text (rank : Nat) : Expr → String
  | .number value => Nat.repr value
  | .name text => text
  | .operation operator left right =>
    let inner :=
      left.text operator.rank ++ " " ++ operator.text ++ " " ++ right.text (operator.rank + 1)
    if rank ≤ operator.rank then inner else "(" ++ inner ++ ")"

/-- A text that is read as a name. -/
def isName (text : String) : Bool := text.toList.all isWordPart && !text.toList.all Char.isDigit

/-- All names of an expression are read as names. -/
def Expr.isNamed : Expr → Bool
  | .number _ => true
  | .name text => isName text
  | .operation _ left right => left.isNamed && right.isNamed

/-! ## Tokens are read as they were written -/

/-- The operation that waits for a right operand, if there is one, binds less than a rank. -/
def Below (rank : Nat) : List Pending → Prop
  | .operation operator _ :: _ => operator.rank < rank
  | _ => True

/-- The operator that follows, if there is one, binds no more than a rank. -/
def Follows (rank : Nat) : List Token → Prop
  | .operator operator :: _ => operator.rank ≤ rank
  | _ => True

variable {stack : List Pending} {rest : List Token} {rank : Nat}

theorem complete_of_below (h : Below rank stack) (operand : Expr) :
    complete rank stack operand = (stack, operand) := by
  match stack with
  | [] | .group :: _ => rfl
  | .operation operator left :: stack => exact if_neg (Nat.not_le.2 h)

/-- An operation is complete when nothing follows that binds its right operand more strongly. -/
theorem readOperator?_operation {operator : Operator} (h : Follows operator.rank rest)
    (left right : Expr) : readOperator? (.operation operator left :: stack) right rest =
      readOperator? stack (.operation operator left right) rest := by
  match rest with
  | [] | .closing :: _ =>
      simp only [readOperator?, complete, Nat.zero_le, if_true]
  | .operator next :: rest =>
      have hrank : next.rank ≤ operator.rank := h
      simp only [readOperator?, complete, hrank, if_true]
  | .number _ :: _ | .name _ :: _ | .opening :: _ => rfl

/-- The tokens of an expression are read as an operand. -/
theorem readOperand?_tokens (expr : Expr) (hstack : Below rank stack) (hrest : Follows rank rest) :
    readOperand? stack (expr.tokens rank ++ rest) = readOperator? stack expr rest := by
  induction expr generalizing rank stack rest with
  | number | name => rfl
  | operation operator left right ihleft ihright =>
      -- Without parentheses the operation must bind more than what waits, and no less than what
      -- follows.
      have hinner {stack : List Pending} {rest : List Token} (hstack : Below operator.rank stack)
          (hrest : Follows operator.rank rest) :
          readOperand? stack (left.tokens operator.rank ++ .operator operator ::
            right.tokens (operator.rank + 1) ++ rest) =
          readOperator? stack (.operation operator left right) rest := by
        have hlater : Follows (operator.rank + 1) rest := by
          unfold Follows at hrest ⊢
          split at hrest <;> first | exact Nat.le_succ_of_le hrest | trivial
        rw [List.append_assoc, List.cons_append, ihleft hstack (Nat.le_refl _), readOperator?]
        rw [complete_of_below hstack]
        dsimp only
        rw [ihright (Nat.lt_succ_self _) hlater, readOperator?_operation hrest]
      unfold Expr.tokens
      dsimp only
      split
      · next hrank =>
        refine hinner ?_ ?_
        · unfold Below at hstack ⊢
          split at hstack <;> first | exact Nat.lt_of_lt_of_le hstack hrank | trivial
        · unfold Follows at hrest ⊢
          split at hrest <;> first | exact Nat.le_trans hrest hrank | trivial
      · rw [List.append_assoc, List.cons_append, readOperand?, List.singleton_append,
          @hinner (.group :: stack) (.closing :: rest) trivial trivial, readOperator?]
        rfl

theorem read?_tokens (expr : Expr) : read? (expr.tokens 0) = some expr := by
  have hread := @readOperand?_tokens [] [] 0 expr trivial trivial
  rw [List.append_nil] at hread
  exact hread

/-! ## Texts are read as they were written -/

variable {chars word : List Char}

/-- A word goes on as long as its characters do. -/
theorem scan?_word (h : ∀ c ∈ chars, isWordPart c = true) (word rest : List Char) :
    scan? word (chars ++ rest) = scan? (word ++ chars) rest := by
  induction chars generalizing word with
  | nil => rw [List.nil_append, List.append_nil]
  | cons c chars ih =>
      obtain ⟨hc, hchars⟩ := List.forall_mem_cons.1 h
      rw [List.cons_append, scan?, if_pos hc, ih hchars, List.append_assoc, List.singleton_append]
      rintro _ rfl -
      exact absurd hc (by decide)

/-- A word ends where a character stands that cannot belong to it. -/
theorem scan?_end {rest : List Char} (h : ∀ c ∈ rest.head?, isWordPart c = false)
    (word : List Char) : scan? word rest = (scan? [] rest).map (wordTokens word ++ ·) := by
  unfold scan?
  split
  · rw [show wordTokens [] = [] from rfl, Option.map_some, List.append_nil]
  · rw [Option.map_map]
    rfl
  · next c rest _ =>
    have hc : ¬ isWordPart c = true := Bool.eq_false_iff.1 (h c rfl)
    rw [if_neg hc, if_neg hc]
    split
    · rw [Option.map_map]
      rfl
    · cases mark? c <;> cases scan? [] rest <;> rfl

/-- A blank is skipped. -/
theorem scan?_blank (rest : List Char) : scan? [] (' ' :: rest) = scan? [] rest := by
  rw [scan?, if_neg (by decide), if_pos rfl]
  · exact Option.map_id_fun' ▸ rfl
  · rintro _ h
    exact absurd h (by decide)

/-- A number is read as its digits. -/
theorem wordTokens_repr (value : Nat) : wordTokens (Nat.repr value).toList = [.number value] := by
  have hdigits : (Nat.toDigits 10 value).all Char.isDigit = true :=
    List.all_eq_true.2 fun c hc => Nat.isDigit_of_mem_toDigits (by decide) (by decide) hc
  rw [Nat.toList_repr, wordTokens, if_neg (by simp), if_pos hdigits, Nat.ofDigitChars_ten_toDigits]

theorem wordTokens_name {text : String} (h : isName text = true) :
    wordTokens text.toList = [.name text] := by
  rw [isName, Bool.and_eq_true, Bool.not_eq_true'] at h
  have hsome : text.toList.isEmpty = false := by
    cases hchars : text.toList with
    | nil => simp [hchars] at h
    | cons => rfl
  rw [wordTokens, hsome, h.2, String.ofList_toList]
  rfl

/-- A word at the beginning of a text is read up to its end. -/
theorem scan?_word_append {text : String} {token : Token} {rest : List Char}
    (hword : ∀ c ∈ text.toList, isWordPart c = true) (htoken : wordTokens text.toList = [token])
    (hrest : ∀ c ∈ rest.head?, isWordPart c = false) :
    scan? [] (text.toList ++ rest) = (scan? [] rest).map ([token] ++ ·) := by
  rw [scan?_word hword, List.nil_append, scan?_end hrest, htoken]

/-- A character that stands for a token is read as the token. -/
theorem scan?_mark {c : Char} {mark : Token} (hword : isWordPart c = false) (hblank : c ≠ ' ')
    (hmark : mark? c = some mark) (rest : List Char) :
    scan? [] (c :: rest) = (scan? [] rest).map (mark :: ·) := by
  rw [scan?, if_neg (Bool.eq_false_iff.1 hword), if_neg hblank, hmark]
  · cases scan? [] rest <;> rfl
  · rintro _ rfl -
    cases hmark

/-- An operator between blanks is read as it is. -/
theorem scan?_operator (operator : Operator) (rest : List Char) :
    scan? [] (' ' :: (operator.text.toList ++ ' ' :: rest)) =
      (scan? [] rest).map (.operator operator :: ·) := by
  rw [scan?_blank, ← scan?_blank rest]
  cases operator with
  | plus | minus | remainder => exact scan?_mark (by decide) (by decide) rfl _
  | same => rfl

/-- The text of an expression has its tokens. -/
theorem scan?_text (expr : Expr) (h : expr.isNamed = true) (rank : Nat) {rest : List Char}
    (hrest : ∀ c ∈ rest.head?, isWordPart c = false) :
    scan? [] ((expr.text rank).toList ++ rest) = (scan? [] rest).map (expr.tokens rank ++ ·) := by
  induction expr generalizing rank rest with
  | number value =>
      refine scan?_word_append (fun c hc => ?_) (wordTokens_repr value) hrest
      have hdigit : c.isDigit = true :=
        Nat.isDigit_of_mem_toDigits (by decide) (by decide) (Nat.toList_repr ▸ hc)
      simp [isWordPart, isNamePart, Char.isAlphanum, hdigit]
  | name text =>
      have hword : ∀ c ∈ text.toList, isWordPart c = true :=
        List.all_eq_true.1 (Bool.and_eq_true_iff.1 h).1
      exact scan?_word_append hword (wordTokens_name h) hrest
  | operation operator left right ihleft ihright =>
      obtain ⟨hleft, hright⟩ := Bool.and_eq_true_iff.1 h
      have hinner {rest : List Char} (hrest : ∀ c ∈ rest.head?, isWordPart c = false) :
          scan? [] ((left.text operator.rank ++ " " ++ operator.text ++ " " ++
            right.text (operator.rank + 1)).toList ++ rest) =
          (scan? [] rest).map ((left.tokens operator.rank ++ .operator operator ::
            right.tokens (operator.rank + 1)) ++ ·) := by
        have hlist : (left.text operator.rank ++ " " ++ operator.text ++ " " ++
            right.text (operator.rank + 1)).toList ++ rest =
            (left.text operator.rank).toList ++ ' ' :: (operator.text.toList ++
              ' ' :: ((right.text (operator.rank + 1)).toList ++ rest)) := by simp
        rw [hlist, ihleft hleft _ (by simp [isWordPart, isNamePart]), scan?_operator,
          ihright hright _ hrest, Option.map_map, Option.map_map]
        refine congrArg (Option.map · _) (funext fun tokens => ?_)
        simp
      unfold Expr.text Expr.tokens
      dsimp only
      split
      · exact hinner hrest
      · have hopening := @scan?_mark '(' .opening (by decide) (by decide) rfl
        have hclosing := @scan?_mark ')' .closing (by decide) (by decide) rfl
        have hlist (inner : String) : ("(" ++ inner ++ ")").toList ++ rest =
            '(' :: (inner.toList ++ ')' :: rest) := by simp
        rw [hlist, hopening, hinner (by simp [isWordPart, isNamePart]), hclosing, Option.map_map,
          Option.map_map]
        refine congrArg (Option.map · _) (funext fun tokens => ?_)
        simp

/-- The text of an expression is read as the expression. -/
theorem parse?_text (expr : Expr) (h : expr.isNamed = true) : parse? (expr.text 0) = some expr := by
  have hscan := @scan?_text expr h 0 [] nofun
  rw [List.append_nil] at hscan
  rw [parse?, hscan]
  exact (congrArg read? (List.append_nil _)).trans (read?_tokens expr)

end TickScript.Script
