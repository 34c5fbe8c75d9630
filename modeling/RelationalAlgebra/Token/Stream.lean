import RelationalAlgebra.Token.Cursor

/-!
# Token streams

The stream of a text holds all that reading it token by token ever answers: the tokens up to the
end or the first failure, and which of the two comes then. Reading past an invalid character fails
in the same way again; reading past an unclosed string finds the end of the text.
-/
namespace RelationalAlgebra

/-- What is read after a failure: the failure once more, or the end of the text. -/
def LexError.repeated : LexError → Option LexError
  | invalidCharacter c position => some (invalidCharacter c position)
  | unclosedString _ => none

/-- The tokens to come, and the failure behind them if they do not reach the end of the text. -/
structure TokenStream where
  tokens : List Token
  failure : Option LexError
  deriving DecidableEq, Repr

namespace TokenStream

/-- The next token; `eof` at the end of the text, however often asked. -/
def next : TokenStream → Except LexError Token × TokenStream
  | ⟨token :: tokens, failure⟩ => (.ok token, ⟨tokens, failure⟩)
  | ⟨[], none⟩ => (.ok .eof, ⟨[], none⟩)
  | ⟨[], some e⟩ => (.error e, ⟨[], e.repeated⟩)

def cons (token : Token) (s : TokenStream) : TokenStream := ⟨token :: s.tokens, s.failure⟩

/-- What a cursor reads from its place on. -/
def ofCursor (c : Cursor) : TokenStream :=
  match h : c.next with
  | (.error e, _) => ⟨[], some e⟩
  | (.ok token, rest) =>
    if heof : token.kind = .eof then ⟨[], none⟩
    else
      have := Cursor.length_rest_next_lt h heof
      cons token (ofCursor rest)
termination_by c.rest.length

theorem ofCursor_eq (c : Cursor) : ofCursor c =
    match c.next with
    | (.error e, _) => ⟨[], some e⟩
    | (.ok t, d) => if t.kind = .eof then ⟨[], none⟩ else cons t (ofCursor d) := by
  rw [ofCursor]
  split <;> simp_all

def ofText (text : String) : TokenStream := ofCursor (.start text)

end TokenStream

/-- All tokens of a text with the final `eof`, or the first failure. -/
def tokenize (text : String) : Except LexError (List Token) :=
  let stream := TokenStream.ofText text
  match stream.failure with
  | none => .ok (stream.tokens ++ [.eof])
  | some e => .error e

theorem tokenize_eq_ok_iff (text : String) (tokens : List Token) :
    tokenize text = .ok tokens ↔ (TokenStream.ofText text).failure = none ∧
      tokens = (TokenStream.ofText text).tokens ++ [.eof] := by
  simp only [tokenize]
  cases hf : (TokenStream.ofText text).failure <;> simp [eq_comm]

theorem failure_of_tokenize_eq_error {text : String} {failure : LexError}
    (h : tokenize text = .error failure) : (TokenStream.ofText text).failure = some failure := by
  unfold tokenize at h
  cases hf : (TokenStream.ofText text).failure <;> simp_all

end RelationalAlgebra
