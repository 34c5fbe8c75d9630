import Mathlib.Data.List.Nodup
import RelationalAlgebra.Schema

/-!
# Qualified names

The qualified name joins qualifier and name by a dot. While no qualifier holds a dot itself, the
first dot ends the qualifier, and the qualified name tells both parts apart. A schema is sound if
its qualified names are distinct and its qualifiers free of dots.
-/
namespace RelationalAlgebra

/-- A text without a dot. -/
def Plain (s : String) : Prop := '.' ∉ s.toList

instance (s : String) : Decidable (Plain s) := inferInstanceAs (Decidable (_ ∉ _))

theorem append_cons_inj_of_not_mem {α : Type} {a : α} {left right left' right' : List α}
    (h : a ∉ left) (h' : a ∉ left') (heq : left ++ a :: right = left' ++ a :: right') :
    left = left' ∧ right = right' := by
  induction left generalizing left' with
  | nil =>
    cases left' with
    | nil => exact ⟨rfl, (List.cons.inj heq).2⟩
    | cons b left' => exact absurd ((List.cons.inj heq).1 ▸ List.mem_cons_self) h'
  | cons b left ih =>
    cases left' with
    | nil => exact absurd ((List.cons.inj heq).1 ▸ List.mem_cons_self) h
    | cons c left' =>
      obtain ⟨rfl, htail⟩ := List.cons.inj heq
      obtain ⟨rfl, rfl⟩ := ih (fun hm => h (.tail _ hm)) (fun hm => h' (.tail _ hm)) htail
      exact ⟨rfl, rfl⟩

namespace Attribute
variable {a b : Attribute}

theorem toList_qualifiedName (a : Attribute) :
    a.qualifiedName.toList = a.qualifier.toList ++ '.' :: a.name.toList := by
  simp [qualifiedName]

theorem path_eq_of_qualifiedName_eq (ha : Plain a.qualifier) (hb : Plain b.qualifier)
    (h : a.qualifiedName = b.qualifiedName) : a.path = b.path := by
  have hlist := congrArg String.toList h
  rw [toList_qualifiedName, toList_qualifiedName] at hlist
  obtain ⟨hq, hn⟩ := append_cons_inj_of_not_mem ha hb hlist
  rw [path, path, String.toList_inj.1 hq, String.toList_inj.1 hn]

end Attribute

namespace Schema
variable {s t : Schema}

/-- Distinct qualified names and qualifiers without a dot. -/
structure Sound (s : Schema) : Prop where
  distinct : s.qualifiedNames.Nodup
  plain : ∀ a ∈ s, Plain a.qualifier

theorem nodup_of_distinct (h : s.qualifiedNames.Nodup) : s.Nodup := h.of_map

/-- The attributes of a schema with distinct names are told apart by them. -/
theorem eq_of_qualifiedName_eq (hs : s.qualifiedNames.Nodup) {a b : Attribute} (ha : a ∈ s)
    (hb : b ∈ s) (h : a.qualifiedName = b.qualifiedName) : a = b :=
  List.inj_on_of_nodup_map hs ha hb h

theorem distinct_of_nodup_paths (hp : ∀ a ∈ s, Plain a.qualifier)
    (h : (s.map Attribute.path).Nodup) : s.qualifiedNames.Nodup := by
  apply List.Nodup.map_on _ h.of_map
  intro a ha b hb heq
  have hpath := Attribute.path_eq_of_qualifiedName_eq (hp a ha) (hp b hb) heq
  exact List.inj_on_of_nodup_map h ha hb hpath

theorem distinct_of_subset (hs : s.qualifiedNames.Nodup) (ht : t.Nodup) (h : t ⊆ s) :
    t.qualifiedNames.Nodup := by
  apply List.Nodup.map_on _ ht
  intro a ha b hb heq
  exact eq_of_qualifiedName_eq hs (h ha) (h hb) heq

theorem Sound.subset (hs : s.Sound) (ht : t.Nodup) (h : t ⊆ s) : t.Sound :=
  ⟨distinct_of_subset hs.distinct ht h, fun a ha => hs.plain a (h ha)⟩

theorem Sound.append (hs : s.Sound) (ht : t.Sound)
    (h : ∀ a ∈ s, ∀ b ∈ t, a.path ≠ b.path) : (s ++ t).Sound := by
  constructor
  · rw [qualifiedNames, List.map_append, List.nodup_append]
    refine ⟨hs.distinct, ht.distinct, ?_⟩
    intro _ hleft _ hright heq
    obtain ⟨a, ha, rfl⟩ := List.mem_map.1 hleft
    obtain ⟨b, hb, rfl⟩ := List.mem_map.1 hright
    have hpath := Attribute.path_eq_of_qualifiedName_eq (hs.plain a ha) (ht.plain b hb) heq
    exact h a ha b hb hpath
  · intro a ha
    exact (List.mem_append.1 ha).elim (hs.plain a) (ht.plain a)

end Schema

end RelationalAlgebra
