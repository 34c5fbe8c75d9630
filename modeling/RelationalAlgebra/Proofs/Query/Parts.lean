import RelationalAlgebra.Proofs.Query.Evaluation

/-!
# The parts of queries

In the tree of a query the operators stand at the top: the children that are not operands, targets,
attribute lists and conditions, hold no operators (`Expression.operand_or_noOperators`).
-/
namespace RelationalAlgebra

namespace Expression
variable {e : Expression}

theorem noOperators_of_name? {name : String} (h : e.name? = some name) : e.NoOperators := by
  unfold name? at h
  split at h
  · exact noOperators_node rfl (by simp)
  · cases h

theorem noOperators_of_reference? {r : Reference} (h : e.reference? = some r) :
    e.NoOperators := by
  unfold reference? at h
  split at h
  · exact noOperators_node rfl (by simp)
  · simp only [Option.bind_eq_bind, Option.pure_def, Option.bind_eq_some_iff] at h
    obtain ⟨q, hq, n, hn, _⟩ := h
    apply noOperators_node rfl
    simp [noOperators_of_name? hq, noOperators_of_name? hn]
  · cases h

theorem noOperators_of_references? {rs : List Reference} (h : e.references? = some rs) :
    e.NoOperators := by
  unfold references? at h
  split at h
  · rename_i literal es
    apply noOperators_node rfl
    induction es generalizing rs with
    | nil => simp
    | cons e es ih =>
      simp only [List.mapM_cons, Option.bind_eq_bind, Option.pure_def,
        Option.bind_eq_some_iff] at h
      obtain ⟨r, hr, rest, hrest, _⟩ := h
      exact List.forall_mem_cons.2 ⟨noOperators_of_reference? hr, ih hrest⟩
  · cases h

theorem noOperators_of_integer? {n : Int} (h : e.integer? = some n) : e.NoOperators := by
  unfold integer? at h
  split at h
  · exact noOperators_node rfl (by simp)
  · cases h

theorem noOperators_of_value? {v : Value} (h : e.value? = some v) : e.NoOperators := by
  unfold value? at h
  split at h
  · exact noOperators_node rfl (by simp)
  · obtain ⟨n, hn, _⟩ := Option.map_eq_some_iff.1 h
    apply noOperators_node rfl
    simpa using noOperators_of_integer? hn
  · obtain ⟨n, hn, _⟩ := Option.map_eq_some_iff.1 h
    exact noOperators_of_integer? hn

theorem noOperators_of_operand? {o : Operand Reference} (h : e.operand? = some o) :
    e.NoOperators := by
  rw [operand?, Option.or_eq_some_iff] at h
  rcases h with h | ⟨_, h⟩
  · obtain ⟨r, hr, _⟩ := Option.map_eq_some_iff.1 h
    exact noOperators_of_reference? hr
  · obtain ⟨v, hv, _⟩ := Option.map_eq_some_iff.1 h
    exact noOperators_of_value? hv

theorem noOperators_of_predicate? {p : Predicate Reference} (h : e.predicate? = some p) :
    e.NoOperators := by
  fun_induction predicate? e generalizing p with
  | case1 literal p q ihp ihq | case2 literal p q ihp ihq =>
    simp only [Option.bind_eq_bind, Option.pure_def, Option.bind_eq_some_iff] at h
    obtain ⟨_, hp, _, hq, _⟩ := h
    apply noOperators_node rfl
    simp [ihp hp, ihq hq]
  | case3 literal p ih =>
    simp only [Option.bind_eq_bind, Option.pure_def, Option.bind_eq_some_iff] at h
    obtain ⟨_, hp, _⟩ := h
    apply noOperators_node rfl
    simpa using ih hp
  | case4 kind literal lhs rhs =>
    simp only [Option.bind_eq_bind, Option.pure_def, Option.bind_eq_some_iff] at h
    obtain ⟨op, hop, l, hl, r, hr, _⟩ := h
    apply noOperators_node
    · cases kind <;> first | rfl | cases hop
    · simp [noOperators_of_operand? hl, noOperators_of_operand? hr]
  | case5 => cases h

/-- The children of a query's root are operands, or hold no operators. -/
theorem operand_or_noOperators {q : Query} (h : e.query? = some q) {i : Nat} {c : Expression}
    (hc : e.children[i]? = some c) :
    (i ∈ e.operandPlaces ∧ ∃ q', c.query? = some q') ∨ c.NoOperators := by
  unfold query? at h
  split at h
  · cases hc
  · rename_i list e
    simp only [Option.bind_eq_bind, Option.pure_def, Option.bind_eq_some_iff] at h
    obtain ⟨_, hlist, q, hq, _⟩ := h
    rcases i with _ | _ | i <;> cases hc
    · exact .inr (noOperators_of_references? hlist)
    · exact .inl ⟨List.mem_singleton_self 1, q, hq⟩
  · rename_i condition e
    simp only [Option.bind_eq_bind, Option.pure_def, Option.bind_eq_some_iff] at h
    obtain ⟨_, hcondition, q, hq, _⟩ := h
    rcases i with _ | _ | i <;> cases hc
    · exact .inr (noOperators_of_predicate? hcondition)
    · exact .inl ⟨List.mem_singleton_self 1, q, hq⟩
  · rename_i target e
    simp only [Option.bind_eq_bind, Option.pure_def, Option.bind_eq_some_iff] at h
    obtain ⟨_, htarget, q, hq, _⟩ := h
    rcases i with _ | _ | i <;> cases hc
    · exact .inr (noOperators_of_reference? htarget)
    · exact .inl ⟨List.mem_singleton_self 1, q, hq⟩
  · rename_i target list e
    simp only [Option.bind_eq_bind, Option.pure_def, Option.bind_eq_some_iff] at h
    obtain ⟨_, htarget, _, hlist, q, hq, _⟩ := h
    rcases i with _ | _ | _ | i <;> cases hc
    · exact .inr (noOperators_of_reference? htarget)
    · exact .inr (noOperators_of_references? hlist)
    · exact .inl ⟨List.mem_singleton_self 2, q, hq⟩
  · rename_i kind _ x y _ _ _
    simp only [Option.bind_eq_bind, Option.pure_def, Option.bind_eq_some_iff] at h
    obtain ⟨op, hop, qx, hx, qy, hy, _⟩ := h
    have hplaces : kind.operandPlaces 2 = [0, 1] := by
      cases kind <;> first | rfl | cases hop
    left
    show i ∈ kind.operandPlaces 2 ∧ _
    rw [hplaces]
    rcases i with _ | _ | i <;> cases hc
    · exact ⟨by simp, qx, hx⟩
    · exact ⟨by simp, qy, hy⟩
  · cases h

end Expression

end RelationalAlgebra
