/-!
# Integer numerals

A numeral is an optional sign followed by a digit and then by digits and underscores. Underscores
group digits and carry no value.
-/
namespace RelationalAlgebra.Numeral

/-- Characters that may follow the first digit. -/
def isTail (c : Char) : Bool := c.isDigit || c == '_'

def digit (c : Char) : Nat := c.toNat - '0'.toNat

/-- The number that `n`, written in decimal, becomes when the digits are written behind it. -/
def extend (n : Nat) (digits : List Char) : Nat :=
  (digits.filter (· ≠ '_')).foldl (fun n c => 10 * n + digit c) n

def natural? : List Char → Option Nat
  | [] => none
  | c :: rest => if c.isDigit && rest.all isTail then some (extend (digit c) rest) else none

/-- Reads a numeral with at most one sign. -/
def integer? : List Char → Option Int
  | '-' :: rest => (natural? rest).map fun n => -(n : Int)
  | '+' :: rest => (natural? rest).map Int.ofNat
  | digits => (natural? digits).map Int.ofNat

theorem extend_nil (n : Nat) : extend n [] = n := rfl

theorem extend_cons_digit (n : Nat) {c : Char} (h : c ≠ '_') (rest : List Char) :
    extend n (c :: rest) = extend (10 * n + digit c) rest := by
  simp [extend, h]

theorem extend_cons_underscore (n : Nat) (rest : List Char) :
    extend n ('_' :: rest) = extend n rest := by
  simp [extend]

theorem integer?_of_isDigit {c : Char} (hc : c.isDigit) (rest : List Char) :
    integer? (c :: rest) = (natural? (c :: rest)).map Int.ofNat := by
  unfold integer?
  split
  · rename_i heq
    cases heq
    exact absurd hc (by decide)
  · rename_i heq
    cases heq
    exact absurd hc (by decide)
  · rfl

theorem natural?_eq_ofDigitChars {digits : List Char} (hne : digits ≠ [])
    (h : ∀ c ∈ digits, c.isDigit) : natural? digits = some (Nat.ofDigitChars 10 digits 0) := by
  obtain ⟨c, cs, rfl⟩ := List.exists_cons_of_ne_nil hne
  obtain ⟨hc, hcs⟩ := List.forall_mem_cons.1 h
  have htail : cs.all isTail := List.all_eq_true.2 fun x hx => by simp [isTail, hcs x hx]
  have hfilter : cs.filter (· ≠ '_') = cs := by
    apply List.filter_eq_self.2
    intro x hx
    apply decide_eq_true
    rintro rfl
    exact absurd (hcs _ hx) (by decide)
  have hvalue : extend (digit c) cs = Nat.ofDigitChars 10 (c :: cs) 0 := by
    rw [extend, hfilter, Nat.ofDigitChars_eq_foldl, List.foldl_cons, Nat.mul_zero, Nat.zero_add]
    rfl
  simp [natural?, hc, htail, hvalue]

theorem integer?_eq_ofDigitChars {digits : List Char} (hne : digits ≠ [])
    (h : ∀ c ∈ digits, c.isDigit) :
    integer? digits = some (Nat.ofDigitChars 10 digits 0 : Int) := by
  have hnatural := natural?_eq_ofDigitChars hne h
  obtain ⟨c, cs, rfl⟩ := List.exists_cons_of_ne_nil hne
  rw [integer?_of_isDigit (h c List.mem_cons_self), hnatural]
  rfl

theorem natural?_repr (n : Nat) : natural? (Nat.repr n).toList = some n := by
  rw [Nat.toList_repr, natural?_eq_ofDigitChars Nat.toDigits_ne_nil]
  · rw [Nat.ofDigitChars_toDigits (by decide) (by decide)]
  · intro c hc
    exact Nat.isDigit_of_mem_toDigits (by decide) (by decide) hc

/-- Integers are read back from their decimal spelling. -/
theorem integer?_repr (n : Int) : integer? n.repr.toList = some n := by
  cases n with
  | ofNat n =>
    have hne : Nat.toDigits 10 n ≠ [] := Nat.toDigits_ne_nil
    obtain ⟨c, cs, hdigits⟩ := List.exists_cons_of_ne_nil hne
    have hc : c.isDigit :=
      Nat.isDigit_of_mem_toDigits (by decide) (by decide) (hdigits ▸ List.mem_cons_self)
    have hspelling : n.repr.toList = c :: cs := by rw [Nat.toList_repr, hdigits]
    show integer? n.repr.toList = some (n : Int)
    rw [hspelling, integer?_of_isDigit hc, ← hspelling, natural?_repr]
    rfl
  | negSucc n =>
    have hspelling : (Int.negSucc n).repr.toList = '-' :: (Nat.repr (n + 1)).toList :=
      String.toList_append
    rw [hspelling, integer?, natural?_repr]
    rfl

theorem eq_of_repr_eq {m n : Int} (h : m.repr = n.repr) : m = n := by
  have hread := integer?_repr m
  rw [h, integer?_repr] at hread
  exact (Option.some.inj hread).symm

end RelationalAlgebra.Numeral
