import LinProg.Proofs.Expr.Value

namespace LinProg

namespace Terms

variable {α : Type} [Scalar α] {t : Terms α} {v : Var}

theorem any_insert (u v : Var) (c : α) (ts : List (Var × α)) :
    ((insert v c ts).any fun a => a.1 == u) = ((ts.any fun a => a.1 == u) || v == u) := by
  induction ts with
  | nil => exact Bool.or_comm _ _
  | cons a ts ih =>
      obtain ⟨w, d⟩ := a
      unfold insert
      split
      · exact Bool.or_comm _ _
      · next hvw =>
          split
          · rw [List.any_cons, ih, List.any_cons, Bool.or_assoc]
          · next hwv =>
              have he := Var.beq_iff.1 (Var.beq_of_not_lt hvw hwv)
              have hu : (w == u) = (v == u) := by
                rw [Bool.eq_iff_iff, Var.beq_iff, Var.beq_iff, he.1, he.2]
              rw [List.any_cons, List.any_cons, hu, Bool.or_right_comm, Bool.or_self]

theorem any_addAll (u : Var) (t : Terms α) (l : List (Var × α)) :
    ((t.addAll l).toList.any fun a => a.1 == u) =
      ((t.toList.any fun a => a.1 == u) || l.any fun a => a.1 == u) := by
  induction l generalizing t with
  | nil => exact (Bool.or_false _).symm
  | cons a l ih =>
      refine (ih (t.add a.1 a.2)).trans ?_
      rw [add, any_insert, List.any_cons, Bool.or_assoc]

theorem mem_vars_addAll {l : List (Var × α)} (h : v ∈ (t.addAll l).vars) :
    v ∈ t.vars ∨ v ∈ l.map (·.1) := by
  induction l generalizing t with
  | nil => exact .inl h
  | cons a l ih =>
      rcases ih h with h | h
      · obtain ⟨b, hb, rfl⟩ := List.mem_map.1 h
        obtain he | ⟨d, hd, he⟩ := mem_insert_index hb
        · exact .inr (he ▸ List.mem_cons_self)
        · exact .inl (he ▸ List.mem_map_of_mem hd)
      · exact .inr (List.mem_cons_of_mem _ h)

end Terms

namespace LinExpr

variable {α : Type} [Scalar α] {e f : LinExpr α} {v : Var}

omit [Scalar α] in
theorem contains_eq_any (e : LinExpr α) (v : Var) :
    e.contains v = e.terms.toList.any fun a => a.1 == v := by
  rw [contains, Terms.get?, Option.isSome_map, List.isSome_find?]

omit [Scalar α] in
theorem contains_iff : e.contains v ↔ ∃ w ∈ e.vars, w == v := by
  rw [contains_eq_any, List.any_eq_true]
  constructor
  · rintro ⟨a, ha, he⟩
    exact ⟨a.1, List.mem_map_of_mem ha, he⟩
  · rintro ⟨w, hw, he⟩
    obtain ⟨a, ha, rfl⟩ := List.mem_map.1 hw
    exact ⟨a, ha, he⟩

omit [Scalar α] in
@[simp]
theorem contains_const (c : α) (v : Var) : (const c).contains v = false := rfl

@[simp]
theorem contains_ofVar (u v : Var) : (ofVar u : LinExpr α).contains v = (u == v) := by
  rw [contains_eq_any]
  exact Bool.or_false _

@[simp]
theorem contains_addConst (e : LinExpr α) (c : α) (v : Var) :
    (e.addConst c).contains v = e.contains v := rfl

@[simp]
theorem contains_subConst (e : LinExpr α) (c : α) (v : Var) :
    (e.subConst c).contains v = e.contains v := rfl

@[simp]
theorem contains_ofTerms (l : List (Var × α)) (c : α) (v : Var) :
    (ofTerms l c).contains v = l.any fun a => a.1 == v := by
  rw [contains_eq_any]
  exact Terms.any_addAll v .empty l

@[simp]
theorem contains_addVar (e : LinExpr α) (u v : Var) :
    (e.addVar u).contains v = (e.contains v || u == v) := by
  rw [contains_eq_any, contains_eq_any]
  exact Terms.any_insert v u 1 e.terms.toList

@[simp]
theorem contains_subVar (e : LinExpr α) (u v : Var) :
    (e.subVar u).contains v = (e.contains v || u == v) := by
  rw [contains_eq_any, contains_eq_any]
  exact Terms.any_insert v u (-1) e.terms.toList

@[simp]
theorem contains_scale (e : LinExpr α) (k : α) (v : Var) :
    (e.scale k).contains v = e.contains v := by
  rw [contains_eq_any, contains_eq_any]
  exact List.any_map

@[simp]
theorem contains_add (e f : LinExpr α) (v : Var) :
    (e + f).contains v = (e.contains v || f.contains v) := by
  rw [contains_eq_any, contains_eq_any, contains_eq_any]
  exact Terms.any_addAll v e.terms f.terms.toList

@[simp]
theorem contains_neg (e : LinExpr α) (v : Var) : (-e).contains v = e.contains v :=
  e.contains_scale (-1) v

@[simp]
theorem contains_sub (e f : LinExpr α) (v : Var) :
    (e - f).contains v = (e.contains v || f.contains v) := by
  rw [← contains_neg f]
  exact e.contains_add (-f) v

theorem vars_ofVar (v : Var) : (ofVar v : LinExpr α).vars = [v] := rfl

theorem vars_scale (e : LinExpr α) (k : α) : (e.scale k).vars = e.vars :=
  List.map_map ..

theorem vars_neg (e : LinExpr α) : (-e).vars = e.vars := e.vars_scale (-1)

theorem mem_vars_addVar {u : Var} (h : v ∈ (e.addVar u).vars) : v ∈ e.vars ∨ v = u := by
  rcases Terms.mem_vars_addAll (l := [(u, 1)]) h with h | h
  · exact .inl h
  · exact .inr (List.mem_singleton.1 h)

theorem mem_vars_subVar {u : Var} (h : v ∈ (e.subVar u).vars) : v ∈ e.vars ∨ v = u := by
  rcases Terms.mem_vars_addAll (l := [(u, -1)]) h with h | h
  · exact .inl h
  · exact .inr (List.mem_singleton.1 h)

theorem mem_vars_add (h : v ∈ (e + f).vars) : v ∈ e.vars ∨ v ∈ f.vars :=
  Terms.mem_vars_addAll h

theorem mem_vars_sub (h : v ∈ (e - f).vars) : v ∈ e.vars ∨ v ∈ f.vars := by
  rw [← f.vars_scale (-1)]
  exact mem_vars_add (f := -f) h

end LinExpr

end LinProg
