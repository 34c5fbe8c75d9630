import RelationalAlgebra.Error

/-!
# Reading tokens from text

A cursor is a place in a text. `Cursor.next` skips blanks and reads the token that follows: the
longest word, number or operator, or a string up to its closing quote. An invalid character leaves
the cursor in front of it, so the same failure comes again; an unclosed string leaves the cursor at
the end of the text.
-/
namespace RelationalAlgebra

/-- A place in a text: how many characters lie before it and which lie behind it. -/
structure Cursor where
  position : Nat
  rest : List Char
  deriving DecidableEq, Repr

namespace Cursor

def start (text : String) : Cursor := ⟨0, text.toList⟩

/-- The place `n` characters further on. -/
def advance (c : Cursor) (n : Nat) : Cursor := ⟨c.position + n, c.rest.drop n⟩

/-- The characters that may stand between tokens. -/
def isBlank (c : Char) : Bool := c = ' ' || c = '\t' || c = '\r' || c = '\n'

/-- The first character of a number; a number has no leading zero. -/
def startsNumber (c : Char) : Bool := c.isDigit && c ≠ '0'

def startsWord (c : Char) : Bool := c.isAlpha || c = '_'

def continuesWord (c : Char) : Bool := c.isAlphanum || c = '_'

/-- The operator or bracket at the start of a text, and the number of its characters. -/
def symbol? : List Char → Option (Kind × Nat)
  | '(' :: _ => some (.openParen, 1)
  | ')' :: _ => some (.closeParen, 1)
  | '[' :: _ => some (.openBracket, 1)
  | ']' :: _ => some (.closeBracket, 1)
  | '.' :: _ => some (.dot, 1)
  | ',' :: _ => some (.comma, 1)
  | '⨝' :: _ => some (.join, 1)
  | 'σ' :: _ => some (.select, 1)
  | 'Π' :: _ => some (.project, 1)
  | 'π' :: _ => some (.project, 1)
  | 'ρ' :: _ => some (.rename, 1)
  | '∪' :: _ => some (.union, 1)
  | '∩' :: _ => some (.intersection, 1)
  | '−' :: _ => some (.difference, 1)
  | '×' :: _ => some (.product, 1)
  | '∧' :: _ => some (.and, 1)
  | '∨' :: _ => some (.or, 1)
  | '¬' :: _ => some (.not, 1)
  | '-' :: _ => some (.minus, 1)
  | '!' :: '=' :: _ => some (.notEqual, 2)
  | '!' :: _ => some (.not, 1)
  | '>' :: '=' :: _ => some (.greaterEqual, 2)
  | '>' :: _ => some (.greater, 1)
  | '≥' :: _ => some (.greaterEqual, 1)
  | '=' :: _ => some (.equal, 1)
  | '≠' :: _ => some (.notEqual, 1)
  | '<' :: '=' :: _ => some (.lessEqual, 2)
  | '<' :: _ => some (.less, 1)
  | '≤' :: _ => some (.lessEqual, 1)
  | _ => none

def skipBlanks (c : Cursor) : Cursor := c.advance (c.rest.takeWhile isBlank).length

/-- Takes the characters of one class as a token. -/
def takeRun (c : Cursor) (kind : Kind) (member : Char → Bool) : Token × Cursor :=
  let run := c.rest.takeWhile member
  (.lit kind (String.ofList run), c.advance run.length)

/-- Reads the token at a place that no blank follows. -/
def readToken (c : Cursor) : Except LexError Token × Cursor :=
  match c.rest with
  | [] => (.ok .eof, c)
  | '"' :: body =>
    if '"' ∈ body then
      let content := body.takeWhile (· ≠ '"')
      (.ok (.lit .string (String.ofList content)), c.advance (content.length + 2))
    else (.error (.unclosedString c.position), c.advance (body.length + 1))
  | first :: rest =>
    if startsNumber first then (c.takeRun .number Char.isDigit).map .ok id
    else if startsWord first then (c.takeRun .word continuesWord).map .ok id
    else match symbol? (first :: rest) with
      | some (kind, width) => (.ok (.bare kind), c.advance width)
      | none => (.error (.invalidCharacter first c.position), c)

/-- Reads the next token. At the end of the text this is the token `eof`, however often asked. -/
def next (c : Cursor) : Except LexError Token × Cursor := c.skipBlanks.readToken

/-! ### Progress -/

@[simp]
theorem advance_rest (c : Cursor) (n : Nat) : (c.advance n).rest = c.rest.drop n := rfl

theorem length_rest_advance_le (c : Cursor) (n : Nat) :
    (c.advance n).rest.length ≤ c.rest.length := by
  simp

theorem length_rest_advance_lt (c : Cursor) {n : Nat} (hn : 0 < n) (h : c.rest ≠ []) :
    (c.advance n).rest.length < c.rest.length := by
  have : 0 < c.rest.length := List.length_pos_iff.2 h
  simp only [advance_rest, List.length_drop]
  omega

theorem symbol?_kind_ne_eof {cs : List Char} {k : Kind} {n : Nat} (h : symbol? cs = some (k, n)) :
    k ≠ .eof := by
  revert h
  fun_cases symbol? cs <;> intro h <;> cases h <;> decide

theorem symbol?_width_pos {cs : List Char} {k : Kind} {n : Nat} (h : symbol? cs = some (k, n)) :
    0 < n := by
  revert h
  fun_cases symbol? cs <;> intro h <;> cases h <;> decide

/-- A token other than `eof` takes at least one character. -/
theorem length_rest_readToken_lt {c d : Cursor} {t : Token} (h : c.readToken = (.ok t, d))
    (ht : t.kind ≠ .eof) : d.rest.length < c.rest.length := by
  unfold readToken at h
  split at h
  · cases h
    exact absurd rfl ht
  · rename_i body hrest
    split at h
    · cases h
      exact length_rest_advance_lt c (by omega) (by simp [hrest])
    · cases h
  · rename_i first rest _ hrest
    have hne : c.rest ≠ [] := by simp [hrest]
    split at h
    · rename_i hfirst
      cases h
      refine length_rest_advance_lt c ?_ hne
      simp only [startsNumber, Bool.and_eq_true] at hfirst
      simp [hrest, hfirst.1]
    · split at h
      · rename_i hfirst
        cases h
        refine length_rest_advance_lt c ?_ hne
        have : continuesWord first = true := by
          simp only [startsWord, continuesWord, Char.isAlphanum, Bool.or_eq_true] at hfirst ⊢
          rcases hfirst with h | h
          · exact .inl (.inl h)
          · exact .inr h
        simp [hrest, this]
      · split at h
        · rename_i hs
          cases h
          exact length_rest_advance_lt c (symbol?_width_pos hs) hne
        · cases h

theorem length_rest_next_lt {c d : Cursor} {t : Token} (h : c.next = (.ok t, d))
    (ht : t.kind ≠ .eof) : d.rest.length < c.rest.length :=
  Nat.lt_of_lt_of_le (length_rest_readToken_lt h ht) (length_rest_advance_le _ _)

end Cursor

end RelationalAlgebra
