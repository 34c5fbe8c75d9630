import Mathlib.Data.List.TakeWhile
import RelationalAlgebra.Proofs.Spelling.Reading

/-!
# Reading on and on

A cursor can be asked for tokens without end, also behind the end of a text and behind failures. One
reading ends in one of four ways (`Cursor.Read`), and what holds of all readings follows from these:
the cursor moves forward within the text, further with each token, and behind the last token the
answers no longer change (`Cursor.readings_of_text`). So nothing is lost when a parser is given the
stream of a text in the place of a cursor (`TokenStream.next_ofCursor`).
-/
namespace RelationalAlgebra

namespace Cursor
variable {c d : Cursor} {t : Token} {m n : Nat}

/-! ### One reading -/

theorem advance_advance (c : Cursor) (m n : Nat) : (c.advance m).advance n = c.advance (m + n) := by
  simp [advance, Nat.add_assoc, List.drop_drop]

theorem rest_advance_length (c : Cursor) : (c.advance c.rest.length).rest = [] :=
  List.drop_length

theorem symbol?_width_le {cs : List Char} {k : Kind} (h : symbol? cs = some (k, n)) :
    n ≤ cs.length := by
  revert h
  fun_cases symbol? cs <;> intro h <;> cases h <;> simp

theorem length_takeWhile_le (member : Char → Bool) (cs : List Char) :
    (cs.takeWhile member).length ≤ cs.length :=
  (List.takeWhile_prefix member).length_le

theorem length_takeWhile_lt {cs : List Char} (h : '"' ∈ cs) :
    (cs.takeWhile (· ≠ '"')).length < cs.length := by
  refine Nat.lt_of_le_of_ne (length_takeWhile_le _ cs) ?_
  intro hlength
  have hall := List.takeWhile_eq_self_iff.1 ((List.takeWhile_prefix _).eq_of_length hlength) _ h
  exact absurd hall (by decide)

/-- The ways in which reading a token can end at a place that no blank follows. -/
inductive Read (c : Cursor) : Except LexError Token × Cursor → Prop
  | token {t : Token} {n : Nat} (ht : t.kind ≠ .eof) (hpos : 0 < n) (hle : n ≤ c.rest.length) :
    Read c (.ok t, c.advance n)
  | finish (h : c.rest = []) : Read c (.ok .eof, c)
  | foreign {x : Char} : Read c (.error (.invalidCharacter x c.position), c)
  | unclosed : Read c (.error (.unclosedString c.position), c.advance c.rest.length)

theorem read_readToken (c : Cursor) : c.Read c.readToken := by
  unfold readToken
  split
  · rename_i hrest
    exact .finish hrest
  · rename_i body hrest
    have hlength : c.rest.length = body.length + 1 := by rw [hrest, List.length_cons]
    split
    · rename_i hquote
      have hcontent := length_takeWhile_lt hquote
      exact .token Kind.noConfusion (by omega) (by omega)
    · rw [← hlength]
      exact .unclosed
  · rename_i first rest _ hrest
    split
    · rename_i hfirst
      have hdigit := isDigit_of_startsNumber hfirst
      exact .token Kind.noConfusion (by simp [hrest, hdigit]) (length_takeWhile_le _ _)
    · split
      · rename_i hfirst
        have hletter := continuesWord_of_startsWord hfirst
        exact .token Kind.noConfusion (by simp [hrest, hletter]) (length_takeWhile_le _ _)
      · split
        · rename_i hs
          rw [← hrest] at hs
          exact .token (symbol?_kind_ne_eof hs) (symbol?_width_pos hs) (symbol?_width_le hs)
        · exact .foreign

theorem Read.exists_eq_advance {r : Except LexError Token × Cursor} (h : c.Read r) :
    ∃ n ≤ c.rest.length, r.2 = c.advance n := by
  cases h with
  | token _ _ hle => exact ⟨_, hle, rfl⟩
  | finish _ | foreign => exact ⟨0, Nat.zero_le _, rfl⟩
  | unclosed => exact ⟨_, Nat.le_refl _, rfl⟩

theorem Read.rest_eq_nil (h : c.Read (.ok t, d)) (ht : t.kind = .eof) : d.rest = [] := by
  cases h with
  | token hne _ _ => exact absurd ht hne
  | finish hrest => exact hrest

theorem Read.rest_eq_nil_of_unclosed {p : Nat} (h : c.Read (.error (.unclosedString p), d)) :
    d.rest = [] := by
  cases h with
  | unclosed => exact rest_advance_length c

theorem Read.eq_of_invalid {x : Char} {p : Nat}
    (h : c.Read (.error (.invalidCharacter x p), d)) : d = c := by
  cases h with
  | foreign => rfl

theorem skipBlanks_skipBlanks (c : Cursor) : c.skipBlanks.skipBlanks = c.skipBlanks := by
  have hnone : c.skipBlanks.rest.takeWhile isBlank = [] := by
    cases h : c.skipBlanks.rest with
    | nil => rfl
    | cons x xs =>
      have hx : x ∈ c.skipBlanks.rest.head? := by rw [h]; rfl
      exact List.takeWhile_cons_of_neg (not_of_mem_head?_drop hx)
  rw [skipBlanks, hnone]
  rfl

theorem next_skipBlanks (c : Cursor) : c.skipBlanks.next = c.next := by
  rw [next, skipBlanks_skipBlanks, next]

theorem read_next {a : Except LexError Token} (h : c.next.1 = a) :
    c.skipBlanks.Read (a, c.next.2) := by
  rw [← h]
  exact read_readToken _

/-- A reading moves a cursor forward, and not beyond the end. -/
theorem exists_next_eq_advance (c : Cursor) : ∃ n ≤ c.rest.length, c.next.2 = c.advance n := by
  have hblanks := length_takeWhile_le isBlank c.rest
  obtain ⟨n, hn, hnext⟩ := (read_next (c := c) rfl).exists_eq_advance
  rw [skipBlanks, advance_rest, List.length_drop] at hn
  exact ⟨_, by omega, hnext.trans (advance_advance _ _ _)⟩

theorem position_lt_of_next (h : c.next.1 = .ok t) (ht : t.kind ≠ .eof) :
    c.position < c.next.2.position := by
  obtain ⟨n, hn, hnext⟩ := c.exists_next_eq_advance
  have hlt : c.next.2.rest.length < c.rest.length := length_rest_next_lt (Prod.ext h rfl) ht
  rw [hnext] at hlt ⊢
  rw [advance_rest, List.length_drop] at hlt
  show c.position < c.position + n
  omega

/-! ### What is read behind the end and behind failures -/

theorem next_of_rest_eq_nil (h : c.rest = []) : c.next = (.ok .eof, c) := by
  obtain ⟨position, rest⟩ := c
  cases h
  rfl

theorem next_next_of_invalid {x : Char} {p : Nat} (h : c.next.1 = .error (.invalidCharacter x p)) :
    c.next.2.next = c.next := by
  rw [(read_next h).eq_of_invalid, next_skipBlanks]

/-! ### Many readings -/

def after (c : Cursor) : Nat → Cursor
  | 0 => c
  | n + 1 => (c.after n).next.2

def answer (c : Cursor) (n : Nat) : Except LexError Token := (c.after n).next.1

theorem after_add (c : Cursor) (m n : Nat) : c.after (m + n) = (c.after m).after n := by
  induction n with
  | zero => rfl
  | succ n ih => rw [← Nat.add_assoc, after, ih, after]

theorem exists_after_eq_advance (c : Cursor) (n : Nat) :
    ∃ k ≤ c.rest.length, c.after n = c.advance k := by
  induction n with
  | zero => exact ⟨0, Nat.zero_le _, rfl⟩
  | succ n ih =>
    obtain ⟨k, hk, hafter⟩ := ih
    obtain ⟨l, hl, hnext⟩ := (c.after n).exists_next_eq_advance
    rw [hafter, advance_rest, List.length_drop] at hl
    refine ⟨k + l, by omega, ?_⟩
    rw [after, hnext, hafter, advance_advance]

theorem position_after_le (c : Cursor) (h : m ≤ n) :
    (c.after m).position ≤ (c.after n).position := by
  obtain ⟨k, rfl⟩ := Nat.exists_eq_add_of_le h
  obtain ⟨l, _, hafter⟩ := (c.after m).exists_after_eq_advance k
  rw [after_add, hafter]
  exact Nat.le_add_right _ _

theorem le_position_after (h : ∀ m < n, ∃ t, c.answer m = .ok t ∧ t.kind ≠ .eof) :
    c.position + n ≤ (c.after n).position := by
  induction n with
  | zero => exact Nat.le_refl _
  | succ n ih =>
    have hbefore := ih fun m hm => h m (by omega)
    obtain ⟨t, hanswer, ht⟩ := h n (by omega)
    have hlt := position_lt_of_next hanswer ht
    rw [after]
    omega

theorem after_of_rest_eq_nil (h : c.rest = []) (n : Nat) : c.after n = c := by
  induction n with
  | zero => rfl
  | succ n ih => rw [after, ih, next_of_rest_eq_nil h]

theorem answer_eq_eof (h : (c.after n).next.2.rest = []) (hm : n < m) : c.answer m = .ok .eof := by
  obtain ⟨k, rfl⟩ := Nat.exists_eq_add_of_lt hm
  rw [answer, Nat.add_right_comm, after_add, after, after_of_rest_eq_nil h, next_of_rest_eq_nil h]

theorem answer_of_invalid {x : Char} {p : Nat} (h : c.answer n = .error (.invalidCharacter x p))
    (hm : n ≤ m) : c.answer m = .error (.invalidCharacter x p) := by
  induction hm with
  | refl => exact h
  | step _ ih =>
    rw [answer, after, next_next_of_invalid ih]
    exact ih

end Cursor

/-! ### Streams in the place of cursors -/

namespace TokenStream

def after (s : TokenStream) : Nat → TokenStream
  | 0 => s
  | n + 1 => (s.after n).next.2

theorem ofCursor_of_rest_eq_nil {c : Cursor} (h : c.rest = []) : ofCursor c = ⟨[], none⟩ := by
  obtain ⟨position, rest⟩ := c
  cases h
  exact ofCursor_nil position

/-- The stream answers as the cursor does, and goes on as the cursor goes on. -/
theorem next_ofCursor (c : Cursor) : (ofCursor c).next = (c.next.1, ofCursor c.next.2) := by
  have hread := Cursor.read_readToken c.skipBlanks
  rw [← Cursor.next] at hread
  generalize hr : c.next = r at hread
  cases hread with
  | token ht _ _ =>
    rw [ofCursor_of_next hr ht]
    rfl
  | finish hrest =>
    rw [ofCursor_of_rest_eq_nil hrest, ofCursor_eq, hr]
    rfl
  | foreign =>
    rw [ofCursor_congr c.next_skipBlanks, ofCursor_eq, hr]
    rfl
  | unclosed =>
    rw [ofCursor_of_rest_eq_nil (Cursor.rest_advance_length _), ofCursor_eq, hr]
    rfl

theorem after_ofCursor (c : Cursor) (n : Nat) : (ofCursor c).after n = ofCursor (c.after n) := by
  induction n with
  | zero => rfl
  | succ n ih => rw [after, ih, next_ofCursor, Cursor.after]

end TokenStream

namespace Cursor

/-- Tokens can be asked of a text without end. The cursor never goes back and never leaves the text,
and it goes forward with each token, so there are no more tokens than characters up to the first
answer that is none. From then on the answers are settled: behind the end it is always `eof`, an
invalid character is met again and again at its place, and an unclosed string is followed by `eof`.
The stream of the text gives the same answers. -/
theorem readings_of_text (text : String) :
    let c := Cursor.start text
    (∀ m n, m ≤ n → (c.after m).position ≤ (c.after n).position) ∧
    (∀ n, (c.after n).position ≤ text.length ∧
      (c.after n).rest = text.toList.drop (c.after n).position) ∧
    (∀ n t, c.answer n = .ok t → t.kind ≠ .eof →
      (c.after n).position < (c.after (n + 1)).position) ∧
    (∀ n, (∀ m < n, ∃ t, c.answer m = .ok t ∧ t.kind ≠ .eof) → n ≤ text.length) ∧
    (∀ n t, c.answer n = .ok t → t.kind = .eof → ∀ m > n, c.answer m = .ok .eof) ∧
    (∀ n x p, c.answer n = .error (.invalidCharacter x p) →
      ∀ m > n, c.answer m = .error (.invalidCharacter x p)) ∧
    (∀ n p, c.answer n = .error (.unclosedString p) → ∀ m > n, c.answer m = .ok .eof) ∧
    ∀ n, ((TokenStream.ofText text).after n).next.1 = c.answer n := by
  intro c
  have hplace : ∀ n, (c.after n).position ≤ text.length ∧
      (c.after n).rest = text.toList.drop (c.after n).position := by
    intro n
    obtain ⟨k, hk, hafter⟩ := c.exists_after_eq_advance n
    have hposition : (c.after n).position = k := by rw [hafter]; exact Nat.zero_add k
    rw [hposition, hafter]
    exact ⟨hk, rfl⟩
  refine ⟨fun m n => c.position_after_le, hplace, ?_, ?_, ?_, ?_, ?_, ?_⟩
  · exact fun n t => position_lt_of_next
  · intro n h
    have hle : 0 + n ≤ (c.after n).position := le_position_after h
    have hplace := (hplace n).1
    omega
  · intro n t h ht m hm
    exact answer_eq_eof ((read_next h).rest_eq_nil ht) hm
  · intro n x p h m hm
    exact answer_of_invalid h (Nat.le_of_lt hm)
  · intro n p h m hm
    exact answer_eq_eof (read_next h).rest_eq_nil_of_unclosed hm
  · intro n
    rw [TokenStream.ofText, TokenStream.after_ofCursor, TokenStream.next_ofCursor]
    rfl

/-- A word in front of a character that starts no token, and one in front of an open string. -/
theorem readings_of_text_failures :
    (start "a $").answer 1 = .error (.invalidCharacter '$' 2) ∧
    (start "a $").answer 9 = .error (.invalidCharacter '$' 2) ∧
    (start "a \"b").answer 1 = .error (.unclosedString 2) ∧
    (start "a \"b").answer 9 = .ok .eof ∧
    ((start "a \"b").after 9).position ≤ 4 := by
  have foreign : (start "a $").answer 1 = .error (.invalidCharacter '$' 2) := by rfl
  have unclosed : (start "a \"b").answer 1 = .error (.unclosedString 2) := by rfl
  obtain ⟨_, _, _, _, _, again, _⟩ := readings_of_text "a $"
  obtain ⟨_, place, _, _, _, _, ended, _⟩ := readings_of_text "a \"b"
  exact ⟨foreign, again 1 _ _ foreign 9 (by decide), unclosed, ended 1 _ unclosed 9 (by decide),
    (place 9).1⟩

end Cursor

end RelationalAlgebra
