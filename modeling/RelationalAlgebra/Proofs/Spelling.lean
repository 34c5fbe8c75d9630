import RelationalAlgebra.Token.Stream

/-!
# Spelling tokens

A text lays out tokens when it consists of their spellings, in order, and of blanks. The character
behind a spelling must not go on with it, so words and numbers are kept apart, and an exclamation
mark or an angle bracket from an equals sign. What a text lays out is what is read from it
(`Layout.ofText_eq`).
-/
namespace RelationalAlgebra

/-- The ways to write the kinds of tokens that have no literal. -/
def Kind.spellings : Kind → List String
  | openParen => ["("]
  | closeParen => [")"]
  | openBracket => ["["]
  | closeBracket => ["]"]
  | dot => ["."]
  | comma => [","]
  | join => ["⨝"]
  | select => ["σ"]
  | project => ["π", "Π"]
  | rename => ["ρ"]
  | union => ["∪"]
  | intersection => ["∩"]
  | difference => ["−"]
  | product => ["×"]
  | and => ["∧"]
  | or => ["∨"]
  | not => ["¬", "!"]
  | minus => ["-"]
  | greater => [">"]
  | greaterEqual => ["≥", ">="]
  | equal => ["="]
  | notEqual => ["≠", "!="]
  | less => ["<"]
  | lessEqual => ["≤", "<="]
  | eof | word | relation | number | string | reference | list => []

namespace Cursor

/-- A letter or an underscore, and then letters, digits and underscores. -/
def isWord : List Char → Bool
  | [] => false
  | first :: rest => startsWord first && rest.all continuesWord

/-- Digits, the first of them not zero. -/
def isNumber : List Char → Bool
  | [] => false
  | first :: rest => startsNumber first && rest.all Char.isDigit

theorem exists_of_isWord {cs : List Char} (h : isWord cs) :
    ∃ first rest, cs = first :: rest ∧ startsWord first ∧ ∀ c ∈ rest, continuesWord c := by
  cases cs with
  | nil => cases h
  | cons first rest => exact ⟨first, rest, rfl, by simpa [isWord] using h⟩

theorem exists_of_isNumber {cs : List Char} (h : isNumber cs) :
    ∃ first rest, cs = first :: rest ∧ startsNumber first ∧ ∀ c ∈ rest, c.isDigit := by
  cases cs with
  | nil => cases h
  | cons first rest => exact ⟨first, rest, rfl, by simpa [isNumber] using h⟩

/-- Whether a character goes on with what is spelled in front of it. -/
def goesOn (s : List Char) (c : Char) : Bool :=
  s.head?.any (fun first =>
      startsNumber first && c.isDigit || startsWord first && continuesWord c) ||
    s ∈ [['!'], ['>'], ['<']] && c = '='

end Cursor

namespace Token
open Cursor

/-- The characters are a way to write the token. -/
inductive SpelledAs : Token → List Char → Prop
  | word {cs} (h : isWord cs) : SpelledAs (.lit .word (String.ofList cs)) cs
  | number {cs} (h : isNumber cs) : SpelledAs (.lit .number (String.ofList cs)) cs
  | string {cs} (h : '"' ∉ cs) : SpelledAs (.lit .string (String.ofList cs)) ('"' :: (cs ++ ['"']))
  | symbol {k s} (h : s ∈ k.spellings) : SpelledAs (.bare k) s.toList

/-- The text lays out the tokens: it consists of their spellings in order and of blanks. -/
inductive Layout : List Char → List Token → Prop
  | nil : Layout [] []
  | blank {c cs ts} (hc : isBlank c) (h : Layout cs ts) : Layout (c :: cs) ts
  | token {s cs t ts} (hs : t.SpelledAs s) (hend : ∀ c ∈ cs.head?, ¬goesOn s c) (h : Layout cs ts) :
      Layout (s ++ cs) (t :: ts)

end Token

namespace Cursor

theorem not_goesOn_of_isBlank {c : Char} (h : isBlank c) (s : List Char) : ¬goesOn s c := by
  have hc : c.isDigit = false ∧ continuesWord c = false ∧ c ≠ '=' := by
    simp only [isBlank, Bool.or_eq_true, decide_eq_true_eq] at h
    rcases h with ((rfl | rfl) | rfl) | rfl <;> decide
  simp [goesOn, hc]

/-! ### Single tokens -/

theorem takeWhile_append_eq {p : Char → Bool} {s cs : List Char} (hs : ∀ c ∈ s, p c)
    (hend : ∀ c ∈ cs.head?, ¬p c) : (s ++ cs).takeWhile p = s := by
  rw [List.takeWhile_append_of_pos hs]
  cases cs with
  | nil => simp
  | cons c cs => simp [hend c rfl]

/-- The symbols that an equals sign would go on with. -/
theorem symbol?_lone {first : Char} {k : Kind} {cs : List Char}
    (h : (first, k) ∈ [('!', Kind.not), ('>', .greater), ('<', .less)])
    (hend : ∀ c ∈ cs.head?, ¬goesOn [first] c) : symbol? (first :: cs) = some (k, 1) := by
  simp only [List.mem_cons, Prod.mk.injEq, List.not_mem_nil, or_false] at h
  rcases h with ⟨rfl, rfl⟩ | ⟨rfl, rfl⟩ | ⟨rfl, rfl⟩
  all_goals
    cases cs with
    | nil => rfl
    | cons c cs =>
      have hc : c ≠ '=' := fun hc => hend c rfl (by simp [goesOn, hc])
      simp [symbol?, hc]

theorem symbol?_append {k : Kind} {s : String} {cs : List Char} (hs : s ∈ k.spellings)
    (hend : ∀ c ∈ cs.head?, ¬goesOn s.toList c) :
    symbol? (s.toList ++ cs) = some (k, s.toList.length) := by
  cases k
  all_goals simp only [Kind.spellings, List.mem_cons, List.not_mem_nil, or_false] at hs
  case project | greaterEqual | notEqual | lessEqual => rcases hs with rfl | rfl <;> rfl
  case not =>
    rcases hs with rfl | rfl
    · rfl
    · exact symbol?_lone (by decide) hend
  case greater | less =>
    subst hs
    exact symbol?_lone (by decide) hend
  all_goals
    subst hs
    rfl

theorem lt_of_isAlpha {c : Char} (h : c.isAlpha) : '9'.val < c.val := by
  rcases Bool.or_eq_true_iff.1 h with hupper | hlower
  · have hbounds : 'A'.val ≤ c.val ∧ c.val ≤ 'Z'.val := of_decide_eq_true hupper
    exact UInt32.lt_of_lt_of_le (by decide) hbounds.1
  · have hbounds := Bool.and_eq_true_iff.1 hlower
    exact UInt32.lt_of_lt_of_le (by decide) (of_decide_eq_true hbounds.1)

theorem not_isDigit_of_startsWord {c : Char} (h : startsWord c) : ¬c.isDigit := by
  simp only [startsWord, Bool.or_eq_true, decide_eq_true_eq] at h
  rcases h with h | rfl
  · intro hdigit
    have hle := of_decide_eq_true (Bool.and_eq_true_iff.1 hdigit).2
    exact UInt32.not_le.2 (lt_of_isAlpha h) hle
  · decide

theorem not_startsNumber_of_startsWord {c : Char} (h : startsWord c) : ¬startsNumber c :=
  fun hnumber => not_isDigit_of_startsWord h (Bool.and_eq_true_iff.1 hnumber).1

theorem continuesWord_of_startsWord {c : Char} (h : startsWord c) : continuesWord c := by
  simp only [startsWord, continuesWord, Char.isAlphanum, Bool.or_eq_true] at h ⊢
  exact h.imp_left .inl

theorem isDigit_of_startsNumber {c : Char} (h : startsNumber c) : c.isDigit := by
  simp only [startsNumber, Bool.and_eq_true] at h
  exact h.1

theorem continuesWord_of_isDigit {c : Char} (h : c.isDigit) : continuesWord c := by
  simp [continuesWord, Char.isAlphanum, h]

/-- What a token starts with unless it is a string. -/
def starts (c : Char) : Bool := c ≠ '"' && !isBlank c

theorem starts_of {p : Char → Bool} (hp : ['"', ' ', '\t', '\r', '\n'].any p = false) {c : Char}
    (h : p c) : starts c := by
  have hne : ∀ d ∈ ['"', ' ', '\t', '\r', '\n'], c ≠ d := by
    rintro d hd rfl
    exact List.any_eq_false.1 hp c hd h
  simp only [List.forall_mem_cons] at hne
  simp [starts, isBlank, hne]

theorem starts_of_startsWord {c : Char} (h : startsWord c) : starts c := starts_of rfl h

theorem starts_of_startsNumber {c : Char} (h : startsNumber c) : starts c := starts_of rfl h

theorem exists_first_of_mem_spellings {k : Kind} {s : String} (h : s ∈ k.spellings) :
    ∃ first tail, s.toList = first :: tail ∧ starts first ∧ startsNumber first = false ∧
      startsWord first = false := by
  have hfirst : ∀ s ∈ k.spellings, s.toList.head?.any (fun first =>
      starts first && !startsNumber first && !startsWord first) = true := by
    cases k <;> decide
  obtain ⟨first, hmem, hstarts⟩ := Option.any_eq_true _ _ |>.1 (hfirst s h)
  obtain ⟨tail, htail⟩ := List.head?_eq_some_iff.1 hmem
  simp only [Bool.and_eq_true, Bool.not_eq_true'] at hstarts
  exact ⟨first, tail, htail, hstarts.1.1, hstarts.1.2, hstarts.2⟩

theorem ne_quote_of_starts {c : Char} (h : starts c) : c ≠ '"' := by
  rintro rfl
  exact absurd h (by decide)

theorem not_isBlank_of_starts {c : Char} (h : starts c) : ¬isBlank c := by
  simp only [starts, Bool.and_eq_true, Bool.not_eq_true'] at h
  simp [h.2]

theorem goesOn_of_continuesWord {first c : Char} (hf : startsWord first) (tail : List Char)
    (hc : continuesWord c) : goesOn (first :: tail) c := by
  simp [goesOn, hf, hc]

theorem goesOn_of_isDigit {first c : Char} (hf : startsNumber first) (tail : List Char)
    (hc : c.isDigit) : goesOn (first :: tail) c := by
  simp [goesOn, hf, hc]

theorem readToken_cons {first : Char} (h : first ≠ '"') (n : Nat) (rest : List Char) :
    readToken ⟨n, first :: rest⟩ =
      if startsNumber first then (takeRun ⟨n, first :: rest⟩ .number Char.isDigit).map .ok id
      else if startsWord first then (takeRun ⟨n, first :: rest⟩ .word continuesWord).map .ok id
      else match symbol? (first :: rest) with
        | some (kind, width) => (.ok (.bare kind), (⟨n, first :: rest⟩ : Cursor).advance width)
        | none => (.error (.invalidCharacter first n), ⟨n, first :: rest⟩) := by
  rw [readToken]
  split
  · contradiction
  · simp_all
  · rename_i heq
    cases heq
    rfl

theorem takeRun_append {kind : Kind} {member : Char → Bool} {s cs : List Char} (n : Nat)
    (hs : ∀ c ∈ s, member c) (hend : ∀ c ∈ cs.head?, ¬member c) :
    takeRun ⟨n, s ++ cs⟩ kind member = (.lit kind (String.ofList s), ⟨n + s.length, cs⟩) := by
  simp only [takeRun, takeWhile_append_eq hs hend, advance, List.drop_left]

/-- The token at hand is read as it is spelled when nothing behind it goes on with it. -/
theorem readToken_append {s cs : List Char} {t : Token} (hs : t.SpelledAs s) (n : Nat)
    (hend : ∀ c ∈ cs.head?, ¬goesOn s c) :
    readToken ⟨n, s ++ cs⟩ = (.ok t, ⟨n + s.length, cs⟩) := by
  cases hs with
  | word h =>
    obtain ⟨first, tail, rfl, hfirst, htail⟩ := exists_of_isWord h
    have hnumber := not_startsNumber_of_startsWord hfirst
    have hquote := ne_quote_of_starts (starts_of_startsWord hfirst)
    rw [List.cons_append, readToken_cons hquote, if_neg hnumber, if_pos hfirst,
      ← List.cons_append, takeRun_append n]
    · rfl
    · exact List.forall_mem_cons.2 ⟨continuesWord_of_startsWord hfirst, htail⟩
    · exact fun c hc he => hend c hc (goesOn_of_continuesWord hfirst tail he)
  | number h =>
    obtain ⟨first, tail, rfl, hfirst, htail⟩ := exists_of_isNumber h
    have hquote := ne_quote_of_starts (starts_of_startsNumber hfirst)
    rw [List.cons_append, readToken_cons hquote, if_pos hfirst, ← List.cons_append,
      takeRun_append n]
    · rfl
    · exact List.forall_mem_cons.2 ⟨isDigit_of_startsNumber hfirst, htail⟩
    · exact fun c hc he => hend c hc (goesOn_of_isDigit hfirst tail he)
  | @string content h =>
    have hquote : '"' ∈ content ++ ['"'] ++ cs := by simp
    have hcontent : (content ++ ['"'] ++ cs).takeWhile (· ≠ '"') = content := by
      rw [List.append_assoc]
      apply takeWhile_append_eq
      · intro c hc
        exact decide_eq_true fun he => h (he ▸ hc)
      · simp
    rw [List.cons_append, readToken]
    simp only [hquote, if_true, hcontent]
    simp [advance]
  | @symbol k s h =>
    obtain ⟨first, tail, hfirst, hstarts, hnumber, hword⟩ := exists_first_of_mem_spellings h
    have hsymbol := symbol?_append h hend
    rw [hfirst, List.cons_append] at hsymbol ⊢
    rw [readToken_cons (ne_quote_of_starts hstarts), hnumber, hword, hsymbol]
    simp [advance]

theorem takeWhile_isBlank_append {s : List Char} {t : Token} (hs : t.SpelledAs s) (cs : List Char) :
    (s ++ cs).takeWhile isBlank = [] := by
  have hfirst : ∃ first tail, s = first :: tail ∧ ¬isBlank first := by
    cases hs with
    | word h =>
      obtain ⟨first, tail, rfl, hfirst, _⟩ := exists_of_isWord h
      exact ⟨first, tail, rfl, not_isBlank_of_starts (starts_of_startsWord hfirst)⟩
    | number h =>
      obtain ⟨first, tail, rfl, hfirst, _⟩ := exists_of_isNumber h
      exact ⟨first, tail, rfl, not_isBlank_of_starts (starts_of_startsNumber hfirst)⟩
    | string _ => exact ⟨_, _, rfl, by decide⟩
    | symbol h =>
      obtain ⟨first, tail, hfirst, hstarts, _⟩ := exists_first_of_mem_spellings h
      exact ⟨first, tail, hfirst, not_isBlank_of_starts hstarts⟩
  obtain ⟨first, tail, rfl, hfirst⟩ := hfirst
  simp [hfirst]

theorem next_append {s cs : List Char} {t : Token} (hs : t.SpelledAs s) (n : Nat)
    (hend : ∀ c ∈ cs.head?, ¬goesOn s c) :
    next ⟨n, s ++ cs⟩ = (.ok t, ⟨n + s.length, cs⟩) := by
  have hskip : skipBlanks ⟨n, s ++ cs⟩ = ⟨n, s ++ cs⟩ := by
    simp [skipBlanks, takeWhile_isBlank_append hs, advance]
  rw [next, hskip, readToken_append hs n hend]

theorem next_blank {c : Char} (hc : isBlank c) (n : Nat) (cs : List Char) :
    next ⟨n, c :: cs⟩ = next ⟨n + 1, cs⟩ := by
  have hskip : skipBlanks ⟨n, c :: cs⟩ = skipBlanks ⟨n + 1, cs⟩ := by
    simp [skipBlanks, advance, hc]
    omega
  rw [next, next, hskip]

end Cursor

/-! ### Whole texts -/

namespace TokenStream

theorem ofCursor_congr {c d : Cursor} (h : c.next = d.next) : ofCursor c = ofCursor d := by
  rw [ofCursor_eq, h, ← ofCursor_eq]

theorem ofCursor_of_next {c d : Cursor} {t : Token} (h : c.next = (.ok t, d))
    (ht : t.kind ≠ .eof) : ofCursor c = cons t (ofCursor d) := by
  rw [ofCursor_eq, h]
  exact if_neg ht

theorem ofCursor_nil (n : Nat) : ofCursor ⟨n, []⟩ = ⟨[], none⟩ := by
  rw [ofCursor_eq]
  rfl

end TokenStream

namespace Token
open Cursor

theorem SpelledAs.kind_ne_eof {t : Token} {s : List Char} (h : t.SpelledAs s) : t.kind ≠ .eof := by
  cases h with
  | word _ | number _ | string _ => exact Kind.noConfusion
  | @symbol k s h =>
    intro hk
    cases (hk : k = .eof)
    cases h

theorem Layout.ofCursor_eq {cs : List Char} {ts : List Token} (h : Layout cs ts) (n : Nat) :
    TokenStream.ofCursor ⟨n, cs⟩ = ⟨ts, none⟩ := by
  induction h generalizing n with
  | nil => exact TokenStream.ofCursor_nil n
  | blank hc _ ih => rw [TokenStream.ofCursor_congr (next_blank hc n _), ih]
  | token hs hend _ ih =>
    rw [TokenStream.ofCursor_of_next (next_append hs n hend) hs.kind_ne_eof, ih]
    rfl

theorem Layout.ofText_eq {text : String} {ts : List Token} (h : Layout text.toList ts) :
    TokenStream.ofText text = ⟨ts, none⟩ :=
  h.ofCursor_eq 0

/-! ### A spelling for every token -/

/-- The first way to write a token. -/
def spelling (t : Token) : String :=
  match t.kind, t.literal with
  | .string, some content => "\"" ++ content ++ "\""
  | _, some text => text
  | kind, none => kind.spellings.headD ""

def Spellable (t : Token) : Prop := t.SpelledAs t.spelling.toList

theorem spellable_word {name : String} (h : isWord name.toList) : (lit .word name).Spellable := by
  have hspelled := SpelledAs.word h
  rwa [String.ofList_toList] at hspelled

theorem spellable_number {digits : String} (h : isNumber digits.toList) :
    (lit .number digits).Spellable := by
  have hspelled := SpelledAs.number h
  rwa [String.ofList_toList] at hspelled

theorem spellable_string {content : String} (h : '"' ∉ content.toList) :
    (lit .string content).Spellable := by
  have hspelling : (lit .string content).spelling.toList = '"' :: (content.toList ++ ['"']) := by
    simp [spelling, lit]
  rw [Spellable, hspelling]
  simpa using SpelledAs.string h

theorem spellable_bare {k : Kind} (h : k.spellings ≠ []) : (bare k).Spellable := by
  have hspelling : (bare k).spelling = k.spellings.headD "" := by
    cases k <;> rfl
  rw [Spellable, hspelling]
  cases hk : k.spellings with
  | nil => exact absurd hk h
  | cons s more => exact .symbol (by simp [hk])

/-- The tokens one after another with a blank between neighbours. -/
def text (ts : List Token) : String := " ".intercalate (ts.map spelling)

theorem layout_text {ts : List Token} (h : ∀ t ∈ ts, t.Spellable) :
    Layout (text ts).toList ts := by
  rw [text, String.toList_intercalate]
  induction ts with
  | nil => exact .nil
  | cons t ts ih =>
    obtain ⟨ht, hts⟩ := List.forall_mem_cons.1 h
    cases ts with
    | nil =>
      have hlast := Layout.token ht (by simp) .nil
      simpa [List.intercalate] using hlast
    | cons u us =>
      have hblank : isBlank ' ' := by decide
      have hrest := Layout.blank hblank (ih hts)
      have hend : ∀ c ∈ (' ' :: " ".toList.intercalate (((u :: us).map spelling).map
          String.toList)).head?, ¬goesOn t.spelling.toList c := by
        rintro _ ⟨⟩
        exact not_goesOn_of_isBlank hblank _
      have hmore := Layout.token ht hend hrest
      simpa [List.intercalate] using hmore

end Token
end RelationalAlgebra
