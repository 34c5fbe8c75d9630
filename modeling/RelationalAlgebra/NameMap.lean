/-!
# Finite maps from names

A map keeps its entries sorted by name, one entry for each name. The representation is therefore
canonical: two maps are equal exactly when they give every name the same value (`ext_get?`). A
later insertion under a name replaces the earlier one.
-/
namespace RelationalAlgebra

/-- Values under distinct names, in name order. -/
structure NameMap (α : Type) where
  entries : List (String × α)
  sorted : entries.Pairwise fun a b => a.1 < b.1
  deriving DecidableEq, Repr

namespace NameMap
variable {α β : Type}

def empty : NameMap α := ⟨[], .nil⟩

instance : Inhabited (NameMap α) := ⟨empty⟩

/-- Puts an entry at its place in a sorted list, over an entry of the same name. -/
def insertEntry (name : String) (value : α) : List (String × α) → List (String × α)
  | [] => [(name, value)]
  | entry :: rest =>
    if name < entry.1 then (name, value) :: entry :: rest
    else if name = entry.1 then (name, value) :: rest
    else entry :: insertEntry name value rest

theorem mem_insertEntry {name : String} {value : α} {entries : List (String × α)}
    {e : String × α} (h : e ∈ insertEntry name value entries) :
    e = (name, value) ∨ e ∈ entries := by
  induction entries with
  | nil => simpa [insertEntry] using h
  | cons entry rest ih =>
    simp only [insertEntry] at h
    split at h
    · simpa using h
    · split at h
      · rcases List.mem_cons.1 h with h | h
        · exact .inl h
        · exact .inr (List.mem_cons_of_mem _ h)
      · rcases List.mem_cons.1 h with h | h
        · exact .inr (h ▸ List.mem_cons_self)
        · exact (ih h).imp id (List.mem_cons_of_mem _)

theorem lt_of_not_lt_of_ne {a b : String} (h : ¬a < b) (hne : a ≠ b) : b < a := by
  by_cases hb : b < a
  · exact hb
  · exact absurd (String.le_antisymm (String.not_lt.1 hb) (String.not_lt.1 h)) hne

theorem sorted_insertEntry (name : String) (value : α) {entries : List (String × α)}
    (h : entries.Pairwise fun a b => a.1 < b.1) :
    (insertEntry name value entries).Pairwise fun a b => a.1 < b.1 := by
  induction entries with
  | nil => simp [insertEntry]
  | cons entry rest ih =>
    obtain ⟨hfirst, hrest⟩ := List.pairwise_cons.1 h
    simp only [insertEntry]
    split
    · rename_i hlt
      refine List.pairwise_cons.2 ⟨fun e he => ?_, h⟩
      rcases List.mem_cons.1 he with rfl | he
      · exact hlt
      · exact String.lt_trans hlt (hfirst e he)
    · split
      · rename_i heq
        exact List.pairwise_cons.2 ⟨fun e he => heq ▸ hfirst e he, hrest⟩
      · rename_i hnlt hne
        refine List.pairwise_cons.2 ⟨fun e he => ?_, ih hrest⟩
        rcases mem_insertEntry he with rfl | he
        · exact lt_of_not_lt_of_ne hnlt hne
        · exact hfirst e he

/-- The map with `value` under `name`, whatever was there before. -/
def insert (m : NameMap α) (name : String) (value : α) : NameMap α :=
  ⟨insertEntry name value m.entries, sorted_insertEntry name value m.sorted⟩

def get? (m : NameMap α) (name : String) : Option α := m.entries.lookup name

/-- Inserts the pairs in order, so that of two pairs with one name the later stays. -/
def insertAll (m : NameMap α) (pairs : List (String × α)) : NameMap α :=
  pairs.foldl (fun m pair => m.insert pair.1 pair.2) m

/-- The map of the pairs, later pairs over earlier ones of the same name. -/
def ofList (pairs : List (String × α)) : NameMap α := empty.insertAll pairs

/-- The entries of both maps, those of `right` over those of `left`. -/
def merge (left right : NameMap α) : NameMap α := left.insertAll right.entries

def size (m : NameMap α) : Nat := m.entries.length

def names (m : NameMap α) : List String := m.entries.map (·.1)

/-! ### Looking up -/

theorem lookup_cons (name : String) (entry : String × α) (rest : List (String × α)) :
    (entry :: rest).lookup name = if name = entry.1 then some entry.2 else rest.lookup name := by
  show (match name == entry.1 with | true => some entry.2 | false => rest.lookup name) = _
  by_cases h : name = entry.1 <;> simp [h, beq_eq_false_iff_ne.2]

@[simp]
theorem get?_empty (name : String) : (empty : NameMap α).get? name = none := rfl

theorem lookup_insertEntry (name : String) (value : α) (entries : List (String × α))
    (other : String) : (insertEntry name value entries).lookup other =
      if other = name then some value else entries.lookup other := by
  induction entries with
  | nil => by_cases h : other = name <;> simp [insertEntry, lookup_cons, h]
  | cons entry rest ih =>
    simp only [insertEntry]
    split
    · by_cases h : other = name <;> simp [lookup_cons, h]
    · split
      · rename_i heq
        by_cases h : other = name <;> simp [lookup_cons, ← heq, h]
      · rename_i hne
        rw [lookup_cons, lookup_cons, ih]
        by_cases he : other = entry.1
        · simp [he, Ne.symm hne]
        · simp [he]

theorem get?_insert (m : NameMap α) (name : String) (value : α) (other : String) :
    (m.insert name value).get? other = if other = name then some value else m.get? other :=
  lookup_insertEntry name value m.entries other

@[simp]
theorem get?_insert_self (m : NameMap α) (name : String) (value : α) :
    (m.insert name value).get? name = some value := by
  simp [get?_insert]

theorem get?_insertAll (m : NameMap α) (pairs : List (String × α)) (name : String) :
    (m.insertAll pairs).get? name = (pairs.reverse.lookup name).or (m.get? name) := by
  induction pairs generalizing m with
  | nil => simp [insertAll]
  | cons pair pairs ih =>
    have step : m.insertAll (pair :: pairs) = (m.insert pair.1 pair.2).insertAll pairs := rfl
    rw [step, ih, get?_insert, List.reverse_cons, List.lookup_append]
    by_cases h : name = pair.1 <;> simp [lookup_cons, h]

theorem get?_ofList (pairs : List (String × α)) (name : String) :
    (ofList pairs).get? name = pairs.reverse.lookup name := by
  simp [ofList, get?_insertAll]

theorem lookup_eq_none_of_forall_lt {name : String} {entries : List (String × α)}
    (h : ∀ e ∈ entries, name < e.1) : entries.lookup name = none := by
  induction entries with
  | nil => rfl
  | cons entry rest ih =>
    have hne : name ≠ entry.1 := fun he => String.lt_irrefl _ (he ▸ h entry List.mem_cons_self)
    rw [lookup_cons]
    simp [hne, ih fun e he => h e (List.mem_cons_of_mem _ he)]

theorem entries_eq_of_lookup_eq {xs ys : List (String × α)}
    (hx : xs.Pairwise fun a b => a.1 < b.1) (hy : ys.Pairwise fun a b => a.1 < b.1)
    (h : ∀ name, xs.lookup name = ys.lookup name) : xs = ys := by
  induction xs generalizing ys with
  | nil =>
    cases ys with
    | nil => rfl
    | cons y ys => simpa [lookup_cons] using h y.1
  | cons x xs ih =>
    cases ys with
    | nil => simpa [lookup_cons] using h x.1
    | cons y ys =>
      obtain ⟨hxf, hxr⟩ := List.pairwise_cons.1 hx
      obtain ⟨hyf, hyr⟩ := List.pairwise_cons.1 hy
      have hkey : x.1 = y.1 := by
        by_cases hlt : x.1 < y.1
        · have hnone : (y :: ys).lookup x.1 = none :=
            lookup_eq_none_of_forall_lt fun e he => by
              rcases List.mem_cons.1 he with rfl | he
              · exact hlt
              · exact String.lt_trans hlt (hyf e he)
          rw [← h] at hnone
          simp [lookup_cons] at hnone
        · by_cases heq : x.1 = y.1
          · exact heq
          · have hgt := lt_of_not_lt_of_ne hlt heq
            have hnone : (x :: xs).lookup y.1 = none :=
              lookup_eq_none_of_forall_lt fun e he => by
                rcases List.mem_cons.1 he with rfl | he
                · exact hgt
                · exact String.lt_trans hgt (hxf e he)
            rw [h] at hnone
            simp [lookup_cons] at hnone
      have hvalue : x.2 = y.2 := by
        simpa [lookup_cons, hkey] using h x.1
      have hrest : xs = ys := ih hxr hyr fun name => by
        by_cases hname : name = x.1
        · have hxn : xs.lookup name = none :=
            lookup_eq_none_of_forall_lt fun e he => hname ▸ hxf e he
          have hyn : ys.lookup name = none :=
            lookup_eq_none_of_forall_lt fun e he => hname ▸ hkey ▸ hyf e he
          rw [hxn, hyn]
        · have hname' : name ≠ y.1 := hkey ▸ hname
          simpa [lookup_cons, hname, hname'] using h name
      rw [Prod.ext hkey hvalue, hrest]

theorem ext_get? {m n : NameMap α} (h : ∀ name, m.get? name = n.get? name) : m = n := by
  have : m.entries = n.entries := entries_eq_of_lookup_eq m.sorted n.sorted h
  cases m
  cases n
  congr

end NameMap

end RelationalAlgebra
