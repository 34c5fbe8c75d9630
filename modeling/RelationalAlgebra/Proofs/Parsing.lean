import RelationalAlgebra.Proofs.Parsing.Completeness
import RelationalAlgebra.Proofs.Tokens

/-!
# Parsing decides the grammar

A text is parsed exactly when its tokens spell an expression, and the tree is the one that every
derivation denotes. Since the parser has one answer for each sequence of tokens, the grammar is
unambiguous.
-/
namespace RelationalAlgebra

open Grammar

/-! ### Streams and parsers -/

theorem Parser.exists_faces {w : List Token} (h : ∀ t ∈ w, t.kind ≠ .eof) :
    ∃ p : Parser, p.Faces none w := by
  cases w with
  | nil => exact ⟨_, rfl, rfl⟩
  | cons t ts => exact ⟨_, h, rfl⟩

/-- The parser of a stream faces all of its tokens, unless the stream fails at once. -/
theorem Parser.ofStream_cases {s : TokenStream} (h : ∀ t ∈ s.tokens, t.kind ≠ .eof) :
    (∃ p, Parser.ofStream s = .ok p ∧ p.Faces s.failure s.tokens) ∨
      ∃ e, Parser.ofStream s = .error e ∧ s.failure = some e := by
  obtain ⟨tokens, failure⟩ := s
  cases tokens with
  | nil =>
    cases failure with
    | none => exact .inl ⟨_, rfl, rfl, rfl⟩
    | some e => exact .inr ⟨e, rfl, rfl⟩
  | cons t ts => exact .inl ⟨_, rfl, h, rfl⟩

theorem Level.eof_not_mem (l : Level) : Kind.eof ∉ l.continuations ∧ Kind.eof ∉ l.operators := by
  cases l <;> decide

/-- A phrase up to the end of the text is read whole. -/
theorem Grammar.Derives.stops {l : Level} {w : List Token} {e : Expression} (h : Derives l w e)
    {p : Parser} (hp : p.Faces none w) : (Parser.level l p).Stops e none [] := by
  have hp' : p.Faces none (w ++ []) := by rwa [List.append_nil]
  exact Parser.GoesOn.stops (Parser.goesOn_of_derives h) hp' (fun _ => rfl) l.eof_not_mem.1
    l.eof_not_mem.2

theorem Parser.expression_eq_ok_iff {p : Parser} {f : Option LexError} {ts : List Token}
    (hp : p.Faces f ts) (e : Expression) :
    p.expression.1 = .ok e ↔ f = none ∧ Derives .union ts e := by
  constructor
  · intro h
    unfold expression at h
    cases ho : (level .union p).outcome with
    | mk result q =>
      rw [ho] at h
      cases result with
      | error x => cases h
      | ok e' =>
        obtain ⟨w, us, rfl, hw, hq⟩ := reads_level .union p f ts e' q hp ho
        by_cases hk : q.kind = .eof
        · obtain ⟨rfl, rfl⟩ := hq.eq_nil_of_kind hk
          obtain ⟨_, rfl⟩ := hq
          cases h
          exact ⟨rfl, by rwa [List.append_nil]⟩
        · simp [accept, hk] at h
  · rintro ⟨rfl, h⟩
    obtain ⟨q, ho, _, rfl⟩ := h.stops hp
    unfold expression
    rw [ho]
    rfl

namespace TokenStream

def parse (s : TokenStream) : Except Error Expression :=
  match Parser.ofStream s with
  | .error e => .error (.lex e)
  | .ok p => p.expression.1

theorem parse_of_ofStream {s : TokenStream} {p : Parser} (h : Parser.ofStream s = .ok p) :
    s.parse = p.expression.1 := by
  rw [parse, h]

end TokenStream

namespace Expression

theorem parse_eq (text : String) : parse text = (TokenStream.ofText text).parse := by
  simp only [parse, read, TokenStream.parse]
  cases Parser.ofStream (TokenStream.ofText text) <;> rfl

theorem parse_eq_ok_iff (text : String) (e : Expression) :
    parse text = .ok e ↔
      (TokenStream.ofText text).failure = none ∧
        Derives .union (TokenStream.ofText text).tokens e := by
  rw [parse_eq]
  rcases Parser.ofStream_cases (TokenStream.kind_ne_eof text) with
    ⟨p, hp, hfaces⟩ | ⟨x, hx, hfailure⟩
  · rw [TokenStream.parse_of_ofStream hp]
    exact Parser.expression_eq_ok_iff hfaces e
  · rw [TokenStream.parse, hx, hfailure]
    simp

end Expression

/-! ### Unambiguity -/

namespace Grammar

theorem Number.kind_ne_eof {w : List Token} {e : Expression} (h : Number w e) :
    ∀ t ∈ w, t.kind ≠ .eof := by
  cases h with
  | plain hd => simp [hd]
  | negative hs hd => simp [hs, hd]

theorem Attribute.kind_ne_eof {w : List Token} {e : Expression} (h : Attribute w e) :
    ∀ t ∈ w, t.kind ≠ .eof := by
  cases h with
  | bare hn => simp [hn]
  | qualified hq hd hn => simp [hq, hd, hn]

theorem Attributes.kind_ne_eof {w : List Token} {es : List Expression} (h : Attributes w es) :
    ∀ t ∈ w, t.kind ≠ .eof := by
  induction h with
  | one h => exact h.kind_ne_eof
  | more _ hc next ih =>
    simp only [List.forall_mem_append, List.forall_mem_cons, hc]
    exact ⟨ih, by decide, next.kind_ne_eof⟩

theorem Comparable.kind_ne_eof {w : List Token} {e : Expression} (h : Comparable w e) :
    ∀ t ∈ w, t.kind ≠ .eof := by
  cases h with
  | named h => exact h.kind_ne_eof
  | number h => exact h.kind_ne_eof
  | string h => simp [h]

theorem Comparison.kind_ne_eof {w : List Token} {e : Expression} (h : Comparison w e) :
    ∀ t ∈ w, t.kind ≠ .eof := by
  cases h with
  | compare left ho right =>
    simp only [List.forall_mem_append, List.forall_mem_cons]
    refine ⟨left.kind_ne_eof, ?_, right.kind_ne_eof⟩
    intro he
    rw [he] at ho
    exact absurd ho (by decide)

theorem Enclosed.kind_ne_eof {v w : List Token} (h : Enclosed v w)
    (hv : ∀ t ∈ v, t.kind ≠ .eof) : ∀ t ∈ w, t.kind ≠ .eof := by
  cases h with
  | intro ho hc => simpa [ho, hc, or_imp, forall_and] using hv

theorem Derives.kind_ne_eof {l : Level} {w : List Token} {e : Expression} (h : Derives l w e) :
    ∀ t ∈ w, t.kind ≠ .eof := by
  induction h with
  | first _ _ ih => exact ih
  | more hl _ ho _ left right =>
    simp only [List.forall_mem_append, List.forall_mem_cons]
    exact ⟨left, hl.ne_eof ho, right⟩
  | comparison h => exact h.kind_ne_eof
  | group _ hw ih => exact hw.kind_ne_eof ih
  | not ho _ hw ih =>
    simp only [List.forall_mem_cons, ho]
    exact ⟨by decide, hw.kind_ne_eof ih⟩
  | stored hn => simp [hn]
  | parenthesized _ hw ih => exact hw.kind_ne_eof ih
  | project ho attributes _ hw ih =>
    simp only [List.forall_mem_cons, List.forall_mem_append, ho]
    exact ⟨by decide, attributes.kind_ne_eof, hw.kind_ne_eof ih⟩
  | select ho _ _ hw predicate ih =>
    simp only [List.forall_mem_cons, List.forall_mem_append, ho]
    exact ⟨by decide, predicate, hw.kind_ne_eof ih⟩
  | rename ho name _ hw ih =>
    simp only [List.forall_mem_cons, List.forall_mem_append, ho]
    exact ⟨by decide, name.kind_ne_eof, hw.kind_ne_eof ih⟩
  | renameAll ho name hl attributes hr _ hw ih =>
    simp only [List.forall_mem_cons, List.forall_mem_append, ho, hl, hr]
    exact ⟨by decide, name.kind_ne_eof, by decide, attributes.kind_ne_eof, by decide,
      hw.kind_ne_eof ih⟩

theorem Derives.unique {l : Level} {w : List Token} {e e' : Expression} (h : Derives l w e)
    (h' : Derives l w e') : e = e' := by
  obtain ⟨p, hp⟩ := Parser.exists_faces h.kind_ne_eof
  obtain ⟨q, hq, _⟩ := h.stops hp
  obtain ⟨q', hq', _⟩ := h'.stops hp
  rw [hq] at hq'
  cases hq'
  rfl

end Grammar

/-! ### Whole texts -/

/-- A text that can be read into tokens is parsed into `e` exactly when its tokens spell `e`, any
other text is not parsed, and no tokens spell two trees. -/
theorem parse_iff_derives (text : String) :
    (∀ tokens, tokenize text = .ok tokens → ∃ w, tokens = w ++ [.eof] ∧
      ∀ e, Expression.parse text = .ok e ↔ Derives .union w e) ∧
    (∀ failure, tokenize text = .error failure → ∃ error, Expression.parse text = .error error) ∧
    ∀ l w e e', Derives l w e → Derives l w e' → e = e' := by
  refine ⟨?_, ?_, fun _ _ _ _ h h' => h.unique h'⟩
  · intro tokens h
    obtain ⟨hf, rfl⟩ := (tokenize_eq_ok_iff text tokens).1 h
    refine ⟨_, rfl, ?_⟩
    intro e
    rw [Expression.parse_eq_ok_iff]
    exact and_iff_right hf
  · intro failure h
    cases hp : Expression.parse text with
    | error x => exact ⟨x, rfl⟩
    | ok e =>
      have hnone := ((Expression.parse_eq_ok_iff text e).1 hp).1
      rw [failure_of_tokenize_eq_error h] at hnone
      cases hnone

/-- Union and intersection share a level, which is read from the left. -/
theorem parse_iff_derives_union_intersection :
    tokenize "r ∪ s ∩ t" = .ok [.lit .word "r", .bare .union, .lit .word "s", .bare .intersection,
      .lit .word "t", .eof] ∧
    Expression.parse "r ∪ s ∩ t" = .ok (.node (some (.bare .intersection))
      [.node (some (.bare .union)) [.leaf .relation "r", .leaf .relation "s"],
        .leaf .relation "t"]) := by
  have tokens : tokenize "r ∪ s ∩ t" = .ok ([.lit .word "r", .bare .union, .lit .word "s",
    .bare .intersection, .lit .word "t"] ++ [.eof]) := by decide +kernel
  refine ⟨tokens, ?_⟩
  obtain ⟨w, hw, parses⟩ := (parse_iff_derives "r ∪ s ∩ t").1 _ tokens
  cases List.append_cancel_right hw
  rw [parses]
  have stored (name : String) : Derives .difference [.lit .word name] (.leaf .relation name) :=
    .first .difference (.first .join (.first .product (.stored rfl)))
  have union : (Token.bare .union).kind ∈ [Kind.union, .intersection] := by decide
  have intersection : (Token.bare .intersection).kind ∈ [Kind.union, .intersection] := by decide
  exact .more .union (.more .union (.first .union (stored "r")) union (stored "s")) intersection
    (stored "t")

end RelationalAlgebra
