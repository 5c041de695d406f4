import LinProg.Proofs.Expr.Value
import LinProg.Program.Basic

namespace LinProg

variable {α : Type}

namespace Program

/-- What the operations keep of a program: variables know their positions and their program, names
are distinct, constraints know their rows, and every expression is over the program's variables. -/
@[mk_iff]
structure Consistent (p : Program α) : Prop where
  position : ∀ i (h : i < p.vars.length), p.vars[i].index = i ∧ p.vars[i].owner = p.id
  names : p.names.Nodup
  row : ∀ i (h : i < p.constraints.length), p.constraints[i].index = i
  constraints : ∀ c ∈ p.constraints, ∀ v ∈ c.expr.vars, p.owns v
  objective : ∀ o ∈ p.objective, ∀ v ∈ o.expr.vars, p.owns v

/-- A consistent program whose constraints keep their constants in the bound, as `Constraint.relate`
and `Constraint.invert` write them. -/
@[mk_iff]
structure Valid (p : Program ℚ) : Prop extends p.Consistent where
  constant : ∀ c ∈ p.constraints, c.expr.constant = 0

instance (p : Program α) : Decidable p.Consistent := decidable_of_iff _ p.consistent_iff.symm

instance (p : Program ℚ) : Decidable p.Valid := decidable_of_iff _ p.valid_iff.symm

variable {p q : Program α}

theorem owns_iff {v : Var} : p.owns v ↔ v.owner = p.id ∧ v.index < p.vars.length := by
  simp [owns]

theorem within_of_owns {e : LinExpr α} (h : ∀ v ∈ e.vars, p.owns v) :
    e.Within p.vars.length := by
  intro a ha
  exact (owns_iff.1 (h a.1 (List.mem_map_of_mem ha))).2

theorem Consistent.of_mem (hp : p.Consistent) {v : Var} (hv : v ∈ p.vars) :
    v.index < p.vars.length ∧ v.owner = p.id := by
  obtain ⟨i, hi, rfl⟩ := List.mem_iff_getElem.1 hv
  obtain ⟨hindex, howner⟩ := hp.position i hi
  exact ⟨hindex.symm ▸ hi, howner⟩

theorem Consistent.eq_of_beq (hp : p.Consistent) {v w : Var} (hv : v ∈ p.vars) (hw : w ∈ p.vars)
    (h : v == w) : v = w := by
  obtain ⟨i, hi, rfl⟩ := List.getElem_of_mem hv
  obtain ⟨j, hj, rfl⟩ := List.getElem_of_mem hw
  have he := (Var.beq_iff.1 h).1
  rw [(hp.position i hi).1, (hp.position j hj).1] at he
  subst he
  rfl

theorem owns_of_checkOwned {e : LinExpr α} (h : p.checkOwned e = .ok ()) :
    ∀ v ∈ e.vars, p.owns v := by
  unfold checkOwned at h
  split at h
  · exact absurd h (by simp)
  · next hn =>
      intro v hv
      simpa using List.find?_eq_none.1 hn v hv

theorem addVariable_eq {name : String} {v : Var} (h : p.addVariable name = .ok (v, q)) :
    name ∉ p.names ∧ v = ⟨name, p.vars.length, p.id⟩ ∧ q = { p with vars := p.vars ++ [v] } := by
  unfold addVariable at h
  split at h
  · cases h
  · next hn =>
      cases h
      refine ⟨?_, rfl, rfl⟩
      intro hm
      obtain ⟨w, hw, he⟩ := List.mem_map.1 hm
      simp only [var?, List.find?_isSome, beq_iff_eq, not_exists, not_and] at hn
      exact hn w hw he

theorem addVariable_error {name : String} {f : Fault} (h : p.addVariable name = .error f) :
    f = .duplicateVariable name := by
  unfold addVariable at h
  split at h
  · exact (Except.error.inj h).symm
  · cases h

theorem checkOwned_error {e : LinExpr α} {f : Fault} (h : p.checkOwned e = .error f) :
    ∃ v : Var, f = .foreignVariable v.name := by
  unfold checkOwned at h
  split at h
  · next v _ => exact ⟨v, (Except.error.inj h).symm⟩
  · cases h

theorem consistent_new (name : String) (id : Nat) : (new name id : Program α).Consistent where
  position := by simp [new]
  names := by simp [names, new]
  row := by simp [new]
  constraints := by simp [new]
  objective := by simp [new]

theorem Consistent.addVariable (hp : p.Consistent) {name : String} {v : Var}
    (h : p.addVariable name = .ok (v, q)) : q.Consistent := by
  obtain ⟨hn, rfl, rfl⟩ := addVariable_eq h
  have hmono (v : Var) (hv : p.owns v) :
      ({ p with vars := p.vars ++ [⟨name, p.vars.length, p.id⟩] } : Program α).owns v := by
    obtain ⟨ho, hi⟩ := owns_iff.1 hv
    exact owns_iff.2 ⟨ho, by simp only [List.length_append, List.length_singleton]; omega⟩
  constructor
  · intro i hi
    simp only [List.getElem_append, List.getElem_singleton]
    split
    · next h => exact hp.position i h
    · next h =>
        simp only [List.length_append, List.length_singleton] at hi
        exact ⟨by dsimp only; omega, rfl⟩
  · simp only [Program.names, List.map_append, List.map_cons, List.map_nil]
    refine List.nodup_append.2 ⟨hp.names, by simp, ?_⟩
    rintro a ha b hb rfl
    exact hn (List.mem_singleton.1 hb ▸ ha)
  · exact hp.row
  · intro c hc v hv
    exact hmono v (hp.constraints c hc v hv)
  · intro o ho v hv
    exact hmono v (hp.objective o ho v hv)

theorem addConstraint_eq {c : Constraint α} (h : p.addConstraint c = .ok q) :
    (∀ v ∈ c.expr.vars, p.owns v) ∧
      q = { p with constraints := p.constraints ++ [{ c with index := p.constraints.length }] } := by
  unfold addConstraint at h
  cases hc : p.checkOwned c.expr with
  | error e => rw [hc] at h; cases h
  | ok u =>
      rw [hc] at h
      cases h
      exact ⟨owns_of_checkOwned hc, rfl⟩

theorem Consistent.addConstraint (hp : p.Consistent) {c : Constraint α}
    (h : p.addConstraint c = .ok q) : q.Consistent := by
  obtain ⟨ho, rfl⟩ := addConstraint_eq h
  refine ⟨hp.position, hp.names, ?_, ?_, hp.objective⟩
  · intro i hi
    simp only [List.getElem_append, List.getElem_singleton]
    split
    · next h => exact hp.row i h
    · next h =>
        simp only [List.length_append, List.length_singleton] at hi
        dsimp only
        omega
  · intro d hd
    rcases List.mem_append.1 hd with hd | hd
    · exact hp.constraints d hd
    · rw [List.mem_singleton.1 hd]
      exact ho

theorem setObjective_eq {o : Objective α} (h : p.setObjective o = .ok q) :
    (∀ v ∈ o.expr.vars, p.owns v) ∧ q = { p with objective := some o } := by
  unfold setObjective at h
  cases ho : p.checkOwned o.expr with
  | error e => rw [ho] at h; cases h
  | ok u =>
      rw [ho] at h
      cases h
      exact ⟨owns_of_checkOwned ho, rfl⟩

theorem Consistent.setObjective (hp : p.Consistent) {o : Objective α}
    (h : p.setObjective o = .ok q) : q.Consistent := by
  obtain ⟨ho, rfl⟩ := setObjective_eq h
  refine ⟨hp.position, hp.names, hp.row, hp.constraints, ?_⟩
  intro o' ho'
  cases ho'
  exact ho

end Program

namespace Program

variable {p q : Program ℚ}

theorem valid_new (name : String) (id : Nat) : (new name id : Program ℚ).Valid :=
  ⟨consistent_new name id, by simp [new]⟩

theorem Valid.addVariable (hp : p.Valid) {name : String} {v : Var}
    (h : p.addVariable name = .ok (v, q)) : q.Valid := by
  refine ⟨hp.toConsistent.addVariable h, ?_⟩
  obtain ⟨_, _, rfl⟩ := addVariable_eq h
  exact hp.constant

theorem Valid.addConstraint (hp : p.Valid) {c : Constraint ℚ} (hc : c.expr.constant = 0)
    (h : p.addConstraint c = .ok q) : q.Valid := by
  refine ⟨hp.toConsistent.addConstraint h, ?_⟩
  obtain ⟨_, rfl⟩ := addConstraint_eq h
  intro d hd
  rcases List.mem_append.1 hd with hd | hd
  · exact hp.constant d hd
  · rw [List.mem_singleton.1 hd]
    exact hc

theorem Valid.setObjective (hp : p.Valid) {o : Objective ℚ} (h : p.setObjective o = .ok q) :
    q.Valid := by
  refine ⟨hp.toConsistent.setObjective h, ?_⟩
  obtain ⟨_, rfl⟩ := setObjective_eq h
  exact hp.constant

theorem Consistent.simplify {α : Type} [Scalar α] {p : Program α} (hp : p.Consistent) :
    p.simplify.Consistent := by
  have hsub (e : LinExpr α) : e.simplify.vars ⊆ e.vars := (List.filter_sublist.map _).subset
  constructor
  · exact hp.position
  · exact hp.names
  · intro i hi
    simpa [Program.simplify, Constraint.simplify] using
      hp.row i (by simpa [Program.simplify] using hi)
  · intro c hc v hv
    obtain ⟨c, hm, rfl⟩ := List.mem_map.1 hc
    exact hp.constraints c hm v (hsub c.expr hv)
  · intro o ho v hv
    obtain ⟨o, hm, rfl⟩ := Option.map_eq_some_iff.1 ho
    exact hp.objective o hm v (hsub o.expr hv)

theorem Valid.simplify (hp : p.Valid) : p.simplify.Valid := by
  refine ⟨hp.toConsistent.simplify, ?_⟩
  intro c hc
  obtain ⟨c, hm, rfl⟩ := List.mem_map.1 hc
  exact hp.constant c hm

end Program

/-- The constraints that can be written: related expressions, turned around any number of times,
and what a program lists of them. -/
inductive Constraint.Stated : Constraint ℚ → Prop
  | relate (lhs : LinExpr ℚ) (r : Relation) (rhs : LinExpr ℚ) : Stated (.relate lhs r rhs)
  | invert {c : Constraint ℚ} (h : Stated c) : Stated c.invert
  | simplify {c : Constraint ℚ} (h : Stated c) : Stated c.simplify
  | listed {c : Constraint ℚ} (h : Stated c) (i : ℕ) : Stated { c with index := i }

theorem Constraint.Stated.constant_eq {c : Constraint ℚ} (h : c.Stated) : c.expr.constant = 0 := by
  induction h with
  | relate => rfl
  | invert _ ih => simp [Constraint.invert, LinExpr.scale, ih]
  | simplify _ ih => exact ih
  | listed _ _ ih => exact ih

inductive Program.Built : Program ℚ → Prop
  | new (name : String) (id : ℕ) : Built (.new name id)
  | addVariable {p q : Program ℚ} {name : String} {v : Var} (hp : Built p)
      (h : p.addVariable name = .ok (v, q)) : Built q
  | addConstraint {p q : Program ℚ} {c : Constraint ℚ} (hp : Built p) (hc : c.Stated)
      (h : p.addConstraint c = .ok q) : Built q
  | setObjective {p q : Program ℚ} {o : Objective ℚ} (hp : Built p)
      (h : p.setObjective o = .ok q) : Built q
  | simplify {p : Program ℚ} (hp : Built p) : Built p.simplify

theorem Program.Built.valid {p : Program ℚ} (h : p.Built) : p.Valid := by
  induction h with
  | new name id => exact valid_new name id
  | addVariable _ h ih => exact ih.addVariable h
  | addConstraint _ hc h ih => exact ih.addConstraint hc.constant_eq h
  | setObjective _ h ih => exact ih.setObjective h
  | simplify _ ih => exact ih.simplify

end LinProg
