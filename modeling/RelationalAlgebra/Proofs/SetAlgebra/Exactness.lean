import Mathlib.Algebra.Ring.Nat
import RelationalAlgebra.Proofs.SetAlgebra
import RelationalAlgebra.Value.Numeral

/-!
# When the set operators compare rows

Two rows have one text if their values, one behind the other, spell the same. Such a text can be cut
into values again as long as the lengths of all texts but one are known (`TextUnit.join_inj`): the
columns in front of the one of unknown length are cut off from the left, and once the columns behind
it are all that is left over, they are as long in either row. Values of one type are told apart by
their spellings, so under this condition the set operators compare rows as wholes
(`Relation.set_operators_exact`).
-/
namespace RelationalAlgebra

/-! ### Cutting a text -/

/-- What the length of a text is counted in. -/
inductive TextUnit where
  | character
  | byte
  deriving DecidableEq, Repr

namespace TextUnit
variable {u : TextUnit} {s t rest rest' : String}

def count : TextUnit → String → Nat
  | character, s => s.length
  | byte, s => s.utf8ByteSize

theorem count_append (u : TextUnit) (s t : String) : u.count (s ++ t) = u.count s + u.count t := by
  cases u with
  | character => exact String.length_append s t
  | byte => exact String.utf8ByteSize_append

theorem count_eq_zero_iff : u.count s = 0 ↔ s = "" := by
  cases u with
  | character => exact String.length_eq_zero_iff
  | byte => exact String.utf8ByteSize_eq_zero_iff

theorem count_join (u : TextUnit) (texts : List String) :
    u.count (String.join texts) = (texts.map u.count).sum := by
  induction texts with
  | nil => exact count_eq_zero_iff.2 String.join_nil
  | cons s texts ih => rw [String.join_cons, count_append, ih, List.map_cons, List.sum_cons]

theorem eq_of_count_eq (h : s.toList <+: t.toList) (hcount : u.count s = u.count t) : s = t := by
  obtain ⟨cs, hcs⟩ := h
  have ht : t = s ++ String.ofList cs := by
    rw [← String.toList_inj, String.toList_append, String.toList_ofList, hcs]
  rw [ht, count_append] at hcount
  have hrest : String.ofList cs = "" := count_eq_zero_iff.1 (Nat.left_eq_add.1 hcount)
  rw [ht, hrest, String.append_empty]

theorem append_inj (h : s ++ rest = t ++ rest') (hcount : u.count s = u.count t) :
    s = t ∧ rest = rest' := by
  have hchars : s.toList ++ rest.toList = t.toList ++ rest'.toList := by
    rw [← String.toList_append, h, String.toList_append]
  have hst : s = t := by
    rcases List.prefix_or_prefix_of_prefix ⟨_, hchars⟩ ⟨_, rfl⟩ with hprefix | hprefix
    · exact eq_of_count_eq hprefix hcount
    · exact (eq_of_count_eq hprefix hcount.symm).symm
  subst hst
  exact ⟨rfl, (String.append_right_inj s).1 h⟩

/-- Texts one behind the other can be told apart if all their lengths but one are known. -/
theorem join_inj {texts texts' : List String} {k : Nat} (hlength : texts.length = texts'.length)
    (hcount : ∀ i ≠ k, texts[i]?.map u.count = texts'[i]?.map u.count)
    (h : String.join texts = String.join texts') : texts = texts' := by
  induction texts generalizing texts' k with
  | nil => exact (List.length_eq_zero_iff.1 hlength.symm).symm
  | cons s texts ih =>
    obtain _ | ⟨t, texts'⟩ := texts'
    · contradiction
    have hlength' : texts.length = texts'.length := Nat.succ.inj hlength
    rw [String.join_cons, String.join_cons] at h
    cases k with
    | zero =>
      have htail : ∀ i, texts[i]?.map u.count = texts'[i]?.map u.count :=
        fun i => hcount (i + 1) (Nat.succ_ne_zero i)
      -- all that follows is as long on both sides, and so is what stands in front of it
      have hrest : u.count (String.join texts) = u.count (String.join texts') := by
        have hcounts : texts.map u.count = texts'.map u.count :=
          List.ext_getElem? fun i => by rw [List.getElem?_map, List.getElem?_map, htail i]
        rw [count_join, count_join, hcounts]
      have htotal := congrArg u.count h
      rw [count_append, count_append, hrest] at htotal
      obtain ⟨rfl, hjoin⟩ := append_inj h (Nat.add_right_cancel htotal)
      rw [ih (k := 0) hlength' (fun i _ => htail i) hjoin]
    | succ k =>
      have hhead : u.count s = u.count t := Option.some.inj (hcount 0 (Nat.succ_ne_zero k).symm)
      obtain ⟨rfl, hjoin⟩ := append_inj h hhead
      have htail : ∀ i ≠ k, texts[i]?.map u.count = texts'[i]?.map u.count :=
        fun i hi => hcount (i + 1) (Nat.succ_ne_succ_iff.2 hi)
      rw [ih hlength' htail hjoin]

end TextUnit

/-! ### Rows and their texts -/

theorem Value.eq_of_spelling_eq {v w : Value} (htype : v.type = w.type)
    (h : v.spelling = w.spelling) : v = w := by
  cases v with
  | number m =>
    cases w with
    | number n => exact congrArg number (Numeral.eq_of_repr_eq h)
    | text t => contradiction
  | text s =>
    cases w with
    | number n => contradiction
    | text t => exact congrArg text h

theorem row_eq_of_spellings_eq {row row' : List Value}
    (htypes : row.map Value.type = row'.map Value.type)
    (h : row.map Value.spelling = row'.map Value.spelling) : row = row' := by
  have hpairs : Function.Injective fun v : Value => (v.type, v.spelling) := by
    intro v w hvw
    obtain ⟨htype, hspelling⟩ := Prod.mk.inj hvw
    exact Value.eq_of_spelling_eq htype hspelling
  apply List.map_injective_iff.2 hpairs
  rw [← List.zip_map', ← List.zip_map', htypes, h]

theorem Rowset.text_mem_texts_iff {x : Rowset} {row : List Value}
    (h : ∀ row' ∈ x.rows, text row' = text row → row' = row) :
    text row ∈ x.texts ↔ row ∈ x.rows := by
  constructor
  · intro htext
    obtain ⟨row', hrow', heq⟩ := List.mem_map.1 htext
    rwa [← h row' hrow' heq]
  · exact mem_texts_of_mem

namespace Relation
variable {x y : Relation}

def textsAt (r : Relation) (i : Nat) : List String :=
  r.rows.filterMap fun row => row[i]?.map Value.spelling

theorem spelling_mem_textsAt {r : Relation} {row : List Value} (hrow : row ∈ r.rows) {i : Nat}
    (hi : i < row.length) : row[i].spelling ∈ r.textsAt i :=
  List.mem_filterMap.2 ⟨row, hrow, by rw [List.getElem?_eq_getElem hi, Option.map_some]⟩

/-- All texts in a column of two relations have one length. -/
def FixedWidth (u : TextUnit) (x y : Relation) (i : Nat) : Prop :=
  ∀ s ∈ x.textsAt i ++ y.textsAt i, ∀ t ∈ x.textsAt i ++ y.textsAt i, u.count s = u.count t

instance (u : TextUnit) (x y : Relation) (i : Nat) : Decidable (FixedWidth u x y i) :=
  inferInstanceAs (Decidable (∀ s ∈ _, ∀ t ∈ _, u.count s = u.count t))

/-- The set operators tell rows apart by their values. Each row keeps its place and is there as
often as before. -/
structure SetOperatorsExact (x y : Relation) : Prop where
  intersection : Checked.intersection x y =
    .ok (Rowset.relation ⟨x.schema, x.rows.filter (· ∈ y.rows)⟩)
  difference : Checked.difference x y =
    .ok (Rowset.relation ⟨x.schema, x.rows.filter (· ∉ y.rows)⟩)
  union : Checked.union x y =
    .ok (Rowset.relation ⟨x.schema, x.rows ++ y.rows.filter (· ∉ x.rows)⟩)

/-- Rows of two relations with one text are one row, if at most one column holds texts of different
lengths. -/
theorem row_eq_of_text_eq (hx : x.WellFormed) (hy : y.WellFormed) (hxy : Checked.Compatible x y)
    {u : TextUnit} {k : Nat} (h : ∀ i < x.schema.length, i ≠ k → FixedWidth u x y i)
    {row row' : List Value} (hrow : row ∈ x.rows) (hrow' : row' ∈ y.rows)
    (htext : Rowset.text row = Rowset.text row') : row = row' := by
  have hadmits : x.schema.Admits row := hx.rowset.rows row hrow
  have hadmits' : y.schema.Admits row' := hy.rowset.rows row' hrow'
  have htypes : row.map Value.type = row'.map Value.type := (hadmits.trans hxy).trans hadmits'.symm
  have hlength : row.length = row'.length := by
    rw [← List.length_map Value.type, htypes, List.length_map]
  apply row_eq_of_spellings_eq htypes
  have hlength' : (row.map Value.spelling).length = (row'.map Value.spelling).length := by
    rw [List.length_map, List.length_map, hlength]
  refine TextUnit.join_inj (u := u) (k := k) hlength' ?_ htext
  intro i hik
  rw [List.getElem?_map, List.getElem?_map]
  by_cases hi : i < row.length
  · have hi' : i < row'.length := hlength ▸ hi
    have hcount : u.count row[i].spelling = u.count row'[i].spelling :=
      h i (hadmits.length_eq ▸ hi) hik _ (List.mem_append_left _ (spelling_mem_textsAt hrow hi)) _
        (List.mem_append_right _ (spelling_mem_textsAt hrow' hi'))
    simp [hi, hi', hcount]
  · have hi' : row'.length ≤ i := hlength ▸ Nat.le_of_not_lt hi
    rw [List.getElem?_eq_none (Nat.le_of_not_lt hi), List.getElem?_eq_none hi']

/-- If rows of two relations with one text are one row, the set operators compare rows. -/
theorem setOperatorsExact_of_text_inj (hx : x.WellFormed) (hy : y.WellFormed)
    (hxy : Checked.Compatible x y)
    (h : ∀ row ∈ x.rows, ∀ row' ∈ y.rows, Rowset.text row = Rowset.text row' → row = row') :
    SetOperatorsExact x y := by
  have hset (op : SetOperation) := hx.rowset.checkedSet hy.rowset op hxy
  rw [hx.relation_rowset, hy.relation_rowset] at hset
  have hmem : ∀ row ∈ x.rows, Rowset.text row ∈ y.rowset.texts ↔ row ∈ y.rows :=
    fun row hrow => Rowset.text_mem_texts_iff fun row' hrow' htext =>
      (h row hrow row' hrow' htext.symm).symm
  have hmem' : ∀ row ∈ y.rows, Rowset.text row ∈ x.rowset.texts ↔ row ∈ x.rows :=
    fun row hrow => Rowset.text_mem_texts_iff fun row' hrow' htext => h row' hrow' row hrow htext
  have hrows {op : SetOperation} {rows : List (List Value)}
      (hop : (Rowset.set op x.rowset y.rowset).rows = rows) :
      Checked.set op x y = .ok (Rowset.relation ⟨x.schema, rows⟩) := by
    rw [hset op, ← hop]
    rfl
  constructor
  case intersection =>
    apply hrows
    rw [Rowset.rows_intersection]
    exact List.filter_congr fun row hrow => decide_eq_decide.2 (hmem row hrow)
  case difference =>
    apply hrows
    rw [Rowset.rows_difference]
    exact List.filter_congr fun row hrow => decide_eq_decide.2 (not_congr (hmem row hrow))
  case union =>
    apply hrows
    rw [Rowset.rows_union]
    congr 1
    exact List.filter_congr fun row hrow => decide_eq_decide.2 (not_congr (hmem' row hrow))

/-- If the texts in each column but one are equally long, in characters or in bytes, the set
operators compare rows by their values, coarse as the identity of tuples is. On relations of one
column they always do. -/
theorem set_operators_exact (hx : make x.schema x.tuples = .ok x)
    (hy : make y.schema y.tuples = .ok y) (hxy : Checked.Compatible x y) :
    ((∃ u k, ∀ i < x.schema.length, i ≠ k → FixedWidth u x y i) → SetOperatorsExact x y) ∧
      (x.schema.length = 1 → SetOperatorsExact x y) := by
  have hx' := (make_eq_ok_iff.1 hx).2
  have hy' := (make_eq_ok_iff.1 hy).2
  have hexact : (∃ u k, ∀ i < x.schema.length, i ≠ k → FixedWidth u x y i) →
      SetOperatorsExact x y := by
    rintro ⟨u, k, hwidth⟩
    exact setOperatorsExact_of_text_inj hx' hy' hxy fun row hrow row' hrow' =>
      row_eq_of_text_eq hx' hy' hxy hwidth hrow hrow'
  refine ⟨hexact, ?_⟩
  intro hone
  -- no column stands beside the only one
  have hwidth : ∀ i < x.schema.length, i ≠ 0 → FixedWidth .character x y i := by
    intro i hi hne
    omega
  exact hexact ⟨.character, 0, hwidth⟩

/-- A column of numbers of any size between texts of two characters and of one, and columns of any
texts on their own. -/
theorem set_operators_exact_one_free_column :
    let x := Rowset.relation ⟨[⟨"x", "a", .string⟩, ⟨"x", "n", .number⟩, ⟨"x", "b", .string⟩],
      [[.text "ab", .number 1, .text "2"], [.text "a1", .number (-12), .text "é"]]⟩
    let y := Rowset.relation ⟨[⟨"y", "c", .string⟩, ⟨"y", "n", .number⟩, ⟨"y", "a", .string⟩],
      [[.text "a1", .number (-12), .text "é"], [.text "ab", .number 12, .text "2"],
        [.text "ab", .number 12, .text "2"]]⟩
    let v := Rowset.relation ⟨[⟨"v", "a", .string⟩], [[.text ""], [.text "ab"]]⟩
    let w := Rowset.relation ⟨[⟨"w", "b", .string⟩], [[.text "ab"], [.text "abc"]]⟩
    make x.schema x.tuples = .ok x ∧ make y.schema y.tuples = .ok y ∧
    Checked.Compatible x y ∧ (∀ i < x.schema.length, i ≠ 1 → FixedWidth .character x y i) ∧
    SetOperatorsExact x y ∧
    (Checked.intersection x y).map rows = .ok [[.text "a1", .number (-12), .text "é"]] ∧
    (Checked.union x y).map rows = .ok [[.text "ab", .number 1, .text "2"],
      [.text "a1", .number (-12), .text "é"], [.text "ab", .number 12, .text "2"],
      [.text "ab", .number 12, .text "2"]] ∧
    make v.schema v.tuples = .ok v ∧ make w.schema w.tuples = .ok w ∧
    Checked.Compatible v w ∧ v.schema.length = 1 ∧ SetOperatorsExact v w := by
  intro x y v w
  have hx : make x.schema x.tuples = .ok x := by decide
  have hy : make y.schema y.tuples = .ok y := by decide
  have hv : make v.schema v.tuples = .ok v := by decide
  have hw : make w.schema w.tuples = .ok w := by decide
  have hxy : Checked.Compatible x y := by decide
  have hvw : Checked.Compatible v w := by decide
  have hwidth : ∀ i < x.schema.length, i ≠ 1 → FixedWidth .character x y i := by decide
  have hexact := (set_operators_exact hx hy hxy).1 ⟨.character, 1, hwidth⟩
  have hone := (set_operators_exact hv hw hvw).2 rfl
  exact ⟨hx, hy, hxy, hwidth, hexact, by decide, by decide, hv, hw, hvw, rfl, hone⟩

/-- Two columns of texts of different lengths are one too many. -/
example :
    let x := Rowset.relation ⟨[⟨"x", "a", .string⟩, ⟨"x", "b", .string⟩], [[.text "12", .text "3"]]⟩
    let y := Rowset.relation ⟨[⟨"y", "a", .string⟩, ⟨"y", "b", .string⟩], [[.text "1", .text "23"]]⟩
    Checked.intersection x y = .ok x ∧ x.rows ≠ y.rows := by decide

end Relation

end RelationalAlgebra
