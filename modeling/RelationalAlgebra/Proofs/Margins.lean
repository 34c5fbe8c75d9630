import RelationalAlgebra.Proofs.Parsing.Streams
import RelationalAlgebra.Proofs.Spelling.Scanning
import RelationalAlgebra.Text.Blank

/-!
# Texts with blanks around them

Trimming a text takes more away than the blanks that the reader skips: `Text.isBlank` holds of
characters that start no token. So the parser does with a text what it does with the trimmed one,
except that its positions are moved, or it gets to such a character at one end of the text
(`Expression.parse_trim`).
-/
namespace RelationalAlgebra

open Cursor

/-! ### Blanks for the reader and other blanks -/

namespace Text
variable {c : Char}

theorem ne_of_isBlank (h : isBlank c) (d : Char) (hd : isBlank d = false) : c ≠ d := by
  rintro rfl
  rw [hd] at h
  cases h

theorem isAlphanum_of_isBlank (h : isBlank c) : c.isAlphanum = false := by
  have hval : c.toNat = c.val.toNat := rfl
  simp only [isBlank, hval, Bool.or_eq_true, Bool.and_eq_true, decide_eq_true_eq] at h
  have hranges : c.isAlphanum =
    (decide ('A'.val ≤ c.val ∧ c.val ≤ 'Z'.val) ||
      (decide ('a'.val ≤ c.val) && decide (c.val ≤ 'z'.val)) ||
      (decide ('0'.val ≤ c.val) && decide (c.val ≤ '9'.val))) := rfl
  simp only [hranges, UInt32.le_iff_toNat_le, Bool.or_eq_false_iff, Bool.and_eq_false_iff,
    decide_eq_false_iff_not]
  have hdigits : '0'.val.toNat = 48 ∧ '9'.val.toNat = 57 := ⟨rfl, rfl⟩
  have hupper : 'A'.val.toNat = 65 ∧ 'Z'.val.toNat = 90 := ⟨rfl, rfl⟩
  have hlower : 'a'.val.toNat = 97 ∧ 'z'.val.toNat = 122 := ⟨rfl, rfl⟩
  omega

theorem separates_of_isBlank (h : isBlank c) : separates c := by
  simp [separates, continuesWord, isAlphanum_of_isBlank h, ne_of_isBlank h '_' rfl,
    ne_of_isBlank h '=' rfl]

theorem symbol?_eq_none_of_isBlank (h : isBlank c) : symbol? [c] = none := by
  generalize hl : [c] = l
  fun_cases symbol? l
  case case30 => rfl
  all_goals
    cases hl
    try exact absurd h (by decide)

theorem foreign_of_isBlank (h : isBlank c) (hc : ¬Cursor.isBlank c) : Token.Foreign c := by
  have halnum := isAlphanum_of_isBlank h
  simp only [Char.isAlphanum, Bool.or_eq_false_iff] at halnum
  apply Token.foreign_of_symbol? hc (ne_of_isBlank h '"' rfl) _ _ (symbol?_eq_none_of_isBlank h)
  · simp [startsNumber, halnum.2]
  · simp [startsWord, halnum.1, ne_of_isBlank h '_' rfl]

end Text

/-! ### Streams of moved and of longer texts -/

namespace LexError

/-- The error of the same text with `k` characters in front of it. -/
def moved (k : Nat) : LexError → LexError
  | invalidCharacter c n => invalidCharacter c (n + k)
  | unclosedString n => unclosedString (n + k)

variable {n : Nat} {cs : List Char} {e : LexError}

theorem Stops.moved (h : Stops n cs e) (k : Nat) : Stops (n + k) cs (e.moved k) := by
  cases h with
  | foreign h => exact .foreign h
  | unclosed h => exact .unclosed h

theorem Stops.append_blanks {back : List Char} (h : Stops n cs e)
    (hback : ∀ c ∈ back, Text.isBlank c) : Stops n (cs ++ back) e := by
  cases h with
  | foreign h => exact .foreign h
  | unclosed h =>
    apply Stops.unclosed
    intro hquote
    rcases List.mem_append.1 hquote with hbody | hblank
    · exact h hbody
    · exact Text.ne_of_isBlank (hback _ hblank) '"' rfl rfl

end LexError

/-- What stops a reader of blanks: the first that it does not skip. -/
def obstacle? (n : Nat) : List Char → Option LexError
  | [] => none
  | c :: cs => if Cursor.isBlank c then obstacle? (n + 1) cs else some (.invalidCharacter c n)

theorem exists_of_obstacle? {n : Nat} {cs : List Char} {e : LexError}
    (h : obstacle? n cs = some e) :
    ∃ i c, e = .invalidCharacter c (n + i) ∧ cs[i]? = some c ∧ ¬Cursor.isBlank c := by
  induction cs generalizing n with
  | nil => cases h
  | cons c cs ih =>
    rw [obstacle?] at h
    split at h
    · obtain ⟨i, d, rfl, hd, hblank⟩ := ih h
      exact ⟨i + 1, d, by rw [Nat.add_right_comm, Nat.add_assoc], hd, hblank⟩
    · rename_i hc
      cases h
      exact ⟨0, c, rfl, rfl, hc⟩

theorem forall_isBlank_of_obstacle? {n : Nat} {cs : List Char} (h : obstacle? n cs = none) :
    ∀ c ∈ cs, Cursor.isBlank c := by
  induction cs generalizing n with
  | nil => simp
  | cons c cs ih =>
    rw [obstacle?] at h
    split at h
    · rename_i hc
      exact List.forall_mem_cons.2 ⟨hc, ih h⟩
    · cases h

namespace TokenStream
variable {n k : Nat} {cs front back : List Char} {s : TokenStream} {e : LexError}

def moved (k : Nat) (s : TokenStream) : TokenStream := ⟨s.tokens, s.failure.map (LexError.moved k)⟩

theorem Scans.moved (h : Scans n cs s) (k : Nat) : Scans (n + k) cs (s.moved k) := by
  induction h with
  | finish n => exact .finish _
  | blank hc _ ih => exact .blank hc (by rwa [Nat.add_right_comm])
  | token hs hend _ ih => exact .token hs hend (by rwa [Nat.add_right_comm])
  | stuck h => exact .stuck (h.moved k)

theorem scans_of_obstacle? (hfront : ∀ c ∈ front, Text.isBlank c)
    (h : obstacle? n front = some e) (cs : List Char) : Scans n (front ++ cs) ⟨[], some e⟩ := by
  induction front generalizing n with
  | nil => cases h
  | cons c front ih =>
    obtain ⟨hc, hfront⟩ := List.forall_mem_cons.1 hfront
    rw [obstacle?] at h
    split at h
    · rename_i hblank
      exact .blank hblank (ih hfront h)
    · rename_i hblank
      cases h
      exact .stuck (.foreign (Text.foreign_of_isBlank hc hblank))

theorem scans_of_blanks (hback : ∀ c ∈ back, Text.isBlank c) (n : Nat) :
    Scans n back ⟨[], obstacle? n back⟩ := by
  cases ho : obstacle? n back with
  | none =>
    have hscans := Scans.blanks (forall_isBlank_of_obstacle? ho) (.finish (n + back.length))
    rwa [List.append_nil] at hscans
  | some e =>
    have hscans := scans_of_obstacle? hback ho []
    rwa [List.append_nil] at hscans

/-- Blanks behind a text that is read to its end may stop the reader. -/
theorem Scans.append_blanks (h : Scans n cs s) (hback : ∀ c ∈ back, Text.isBlank c) :
    Scans n (cs ++ back) ⟨s.tokens, s.failure.or (obstacle? (n + cs.length) back)⟩ := by
  induction h with
  | finish n => exact scans_of_blanks hback n
  | @blank n c cs s hc _ ih =>
    rw [List.length_cons, ← Nat.add_assoc, Nat.add_right_comm]
    exact .blank hc ih
  | @token n s cs t r hs hend _ ih =>
    rw [List.length_append, ← Nat.add_assoc, List.append_assoc]
    apply Scans.token hs _ ih
    intro c hc
    rw [List.head?_append, Option.mem_def, Option.or_eq_some_iff] at hc
    rcases hc with hc | ⟨_, hc⟩
    · exact hend c hc
    · exact not_goesOn_of_separates (Text.separates_of_isBlank (hback c (List.mem_of_head? hc))) s
  | stuck h => exact .stuck (h.append_blanks hback)

end TokenStream

/-! ### Trimmed texts -/

namespace Text
variable {text : String} {i : Nat} {c : Char}

def leading (text : String) : List Char := text.toList.takeWhile isBlank

theorem isBlank_of_mem_leading : ∀ c ∈ leading text, isBlank c :=
  List.all_eq_true.1 List.all_takeWhile

theorem exists_toList_eq_trim (text : String) : ∃ back,
    text.toList = leading text ++ ((trim text).toList ++ back) ∧ ∀ c ∈ back, isBlank c := by
  generalize hrest : text.toList.dropWhile isBlank = rest
  have hback : ∀ c ∈ rest.reverse.takeWhile isBlank, isBlank c :=
    List.all_eq_true.1 List.all_takeWhile
  refine ⟨(rest.reverse.takeWhile isBlank).reverse, ?_, ?_⟩
  · rw [trim, hrest, String.toList_ofList, ← List.reverse_append, List.takeWhile_append_dropWhile,
      List.reverse_reverse, ← hrest, leading, List.takeWhile_append_dropWhile]
  · intro c hc
    exact hback c (List.mem_reverse.1 hc)

/-- One of the blanks at the ends of a text is not skipped by the reader. -/
structure Stray (text : String) (i : Nat) (c : Char) : Prop where
  get : text.toList[i]? = some c
  blank : isBlank c
  stops : ¬Cursor.isBlank c
  outside : i < (leading text).length ∨
    (leading text).length + (trim text).toList.length ≤ i

theorem stray_of_front (hc : (leading text)[i]? = some c) (hstops : ¬Cursor.isBlank c) :
    Stray text i c := by
  obtain ⟨back, htext, _⟩ := exists_toList_eq_trim text
  have hi := (List.getElem?_eq_some_iff.1 hc).1
  constructor
  · rw [htext, List.getElem?_append_left hi, hc]
  · exact isBlank_of_mem_leading c (List.mem_of_getElem? hc)
  · exact hstops
  · exact .inl hi

theorem stray_of_back {back : List Char}
    (htext : text.toList = leading text ++ ((trim text).toList ++ back))
    (hback : ∀ c ∈ back, isBlank c) (hc : back[i]? = some c) (hstops : ¬Cursor.isBlank c) :
    Stray text ((leading text).length + (trim text).toList.length + i) c := by
  constructor
  · rw [← List.append_assoc] at htext
    rw [htext, ← List.length_append, List.getElem?_append_right (Nat.le_add_right _ _),
      Nat.add_sub_cancel_left, hc]
  · exact hback c (List.mem_of_getElem? hc)
  · exact hstops
  · exact .inr (Nat.le_add_right _ _)

end Text

namespace Expression

theorem parse_of_scans {text : String} {s : TokenStream}
    (h : TokenStream.Scans 0 text.toList s) : parse text = s.parse := by
  rw [parse_eq, TokenStream.ofText, Cursor.start, h.ofCursor_eq]

/-- A text is parsed as what is left of it without blanks at its ends, only that an error of reading
is found further on; or the parser comes to a blank at one of the ends that it does not skip. -/
theorem parse_trim (text : String) :
    (∃ i c, parse text = .error (.lex (.invalidCharacter c i)) ∧ Text.Stray text i c) ∨
      (∃ e, parse (Text.trim text) = .error (.lex e) ∧
        parse text = .error (.lex (e.moved (Text.leading text).length))) ∨
      (∀ e, parse (Text.trim text) ≠ .error (.lex e)) ∧
        parse text = parse (Text.trim text) := by
  obtain ⟨back, htext, hback⟩ := Text.exists_toList_eq_trim text
  have hbody := TokenStream.scans_ofText (Text.trim text)
  have hts := TokenStream.kind_ne_eof (Text.trim text)
  rw [parse_eq (Text.trim text)]
  generalize TokenStream.ofText (Text.trim text) = s at hbody hts
  obtain ⟨ts, f⟩ := s
  cases hopen : obstacle? 0 (Text.leading text) with
  | some e =>
    have hscans := TokenStream.scans_of_obstacle? Text.isBlank_of_mem_leading hopen
      ((Text.trim text).toList ++ back)
    rw [← htext] at hscans
    obtain ⟨i, c, rfl, hc, hstops⟩ := exists_of_obstacle? hopen
    rw [Nat.zero_add] at hscans
    exact .inl ⟨i, c, parse_of_scans hscans, Text.stray_of_front hc hstops⟩
  | none =>
    have hmargins := (hbody.moved (Text.leading text).length).append_blanks hback
    have hscans := TokenStream.Scans.blanks (forall_isBlank_of_obstacle? hopen) hmargins
    rw [← htext, Nat.zero_add] at hscans
    rw [parse_of_scans hscans]
    rcases TokenStream.parse_cases hts with hlex | ⟨x, hx⟩
    · cases f with
      | some e => exact .inr (.inl ⟨e, hlex e, hlex _⟩)
      | none =>
        cases hclose : obstacle? ((Text.leading text).length + (Text.trim text).toList.length) back
          with
        | none => exact .inr (.inr ⟨TokenStream.parse_ne_lex hts, rfl⟩)
        | some e =>
          obtain ⟨i, c, rfl, hc, hstops⟩ := exists_of_obstacle? hclose
          exact .inl ⟨_, c, hlex _, Text.stray_of_back htext hback hc hstops⟩
    · refine .inr (.inr ⟨?_, (hx _).trans (hx _).symm⟩)
      intro e
      rw [hx]
      simp

end Expression

end RelationalAlgebra
