import LinProg.Proofs.Program.Canonical

namespace LinProg

theorem Terms.scale_scale_neg_one (t : Terms ℚ) : (t.scale (-1)).scale (-1) = t := by
  ext1
  simp [scale, Function.comp_def]

theorem Terms.nonzero_scale_neg_one (t : Terms ℚ) :
    (t.scale (-1)).nonzero = t.nonzero.scale (-1) := by
  ext1
  simp only [nonzero, scale, List.filter_map]
  congr 1
  apply List.filter_congr
  intro a _
  simp [bne]

namespace LinExpr

theorem scale_scale_neg_one (e : LinExpr ℚ) : (e.scale (-1)).scale (-1) = e := by
  ext1
  · exact e.terms.scale_scale_neg_one
  · simp [scale]

theorem simplify_scale_neg_one (e : LinExpr ℚ) :
    (e.scale (-1)).simplify = e.simplify.scale (-1) := by
  ext1
  · exact e.terms.nonzero_scale_neg_one
  · rfl

end LinExpr

namespace Constraint

theorem invert_invert (c : Constraint ℚ) : c.invert.invert = c := by
  ext1
  · exact c.expr.scale_scale_neg_one
  · cases hr : c.relation <;> simp [invert, hr, Relation.flip]
  · simp [invert]
  · rfl

theorem simplify_invert (c : Constraint ℚ) : c.invert.simplify = c.simplify.invert := by
  ext1
  · exact c.expr.simplify_scale_neg_one
  · rfl
  · rfl
  · rfl

/-- Turning a constraint around makes no difference, unless its bound is 0 and has no sign. -/
theorem orient_invert {c : Constraint ℚ} (hb : c.bound ≠ 0) : c.invert.orient = c.orient := by
  have hbound : c.invert.bound = -c.bound := rfl
  rw [orient, orient, hbound]
  rcases lt_or_gt_of_ne hb with hneg | hpos
  · rw [if_neg (by linarith), if_pos hneg]
  · rw [if_pos (by linarith), if_neg (by linarith), invert_invert]

end Constraint

theorem Direction.flip_flip (d : Direction) : d.flip.flip = d := by cases d <;> rfl

namespace Objective

theorem invert_invert (o : Objective ℚ) : o.invert.invert = o := by
  ext1
  · exact o.expr.scale_scale_neg_one
  · exact o.direction.flip_flip

theorem simplify_invert (o : Objective ℚ) : o.invert.simplify = o.simplify.invert := by
  ext1
  · exact o.expr.simplify_scale_neg_one
  · rfl

theorem orient_invert (o : Objective ℚ) : o.invert.orient = o.orient := by
  have hd : o.invert.direction = o.direction.flip := rfl
  rw [orient, orient, hd]
  cases o.direction with
  | max => exact o.invert_invert
  | min => rfl

end Objective

namespace Program

/-- The program `q` is `p` written differently: constraints whose bound is not 0 are turned around,
terms with coefficient 0 come and go, and the objective is turned around if `turned` says so. -/
inductive Rewritten (p : Program ℚ) : Program ℚ → Bool → Prop
  | refl : Rewritten p p false
  | invert {q : Program ℚ} {turned : Bool} {i : ℕ} {c : Constraint ℚ} (h : Rewritten p q turned)
      (row : q.constraints[i]? = some c) (bound : c.bound ≠ 0) :
      Rewritten p { q with constraints := q.constraints.set i c.invert } turned
  | terms {q : Program ℚ} {turned : Bool} {i : ℕ} {c : Constraint ℚ} {e : LinExpr ℚ}
      (h : Rewritten p q turned) (row : q.constraints[i]? = some c)
      (same : e.simplify = c.expr.simplify) :
      Rewritten p { q with constraints := q.constraints.set i { c with expr := e } } turned
  | objectiveTerms {q : Program ℚ} {turned : Bool} {o : Objective ℚ} {e : LinExpr ℚ}
      (h : Rewritten p q turned) (objective : q.objective = some o)
      (same : e.simplify = o.expr.simplify) :
      Rewritten p { q with objective := some { o with expr := e } } turned
  | turn {q : Program ℚ} {turned : Bool} {o : Objective ℚ} (h : Rewritten p q turned)
      (objective : q.objective = some o) :
      Rewritten p { q with objective := some o.invert } (!turned)

structure SameForm (p q : Program ℚ) (turned : Bool) : Prop where
  name : q.name = p.name
  id : q.id = p.id
  vars : q.vars = p.vars
  oriented : q.oriented = p.oriented
  objective : q.objective.map (·.simplify.orient) = p.objective.map (·.simplify.orient)
  direction : q.objective.map (·.direction) =
    p.objective.map fun o => if turned then o.direction.flip else o.direction

variable {p q : Program ℚ} {turned : Bool}

theorem SameForm.names (h : p.SameForm q turned) : q.names = p.names := by
  rw [Program.names, Program.names, h.vars]

theorem map_set_of_eq {β γ : Type} {l : List β} {i : ℕ} {a b : β} {f : β → γ}
    (h : l[i]? = some a) (hf : f b = f a) : (l.set i b).map f = l.map f := by
  apply List.ext_getElem?
  intro k
  simp only [List.getElem?_map, List.getElem?_set]
  by_cases hk : i = k
  · subst hk
    rw [if_pos rfl, if_pos (List.getElem?_eq_some_iff.1 h).1, h, Option.map_some, Option.map_some,
      hf]
  · rw [if_neg hk]

theorem Rewritten.sameForm (h : p.Rewritten q turned) : p.SameForm q turned := by
  induction h with
  | refl => exact ⟨rfl, rfl, rfl, rfl, rfl, by simp⟩
  | invert _ row bound ih =>
      refine ⟨ih.name, ih.id, ih.vars, ?_, ih.objective, ih.direction⟩
      rw [← ih.oriented]
      refine map_set_of_eq row ?_
      rw [Constraint.simplify_invert, Constraint.orient_invert (c := Constraint.simplify _) bound]
  | terms _ row same ih =>
      refine ⟨ih.name, ih.id, ih.vars, ?_, ih.objective, ih.direction⟩
      rw [← ih.oriented]
      refine map_set_of_eq row ?_
      rw [Constraint.simplify, same, Constraint.simplify]
  | objectiveTerms _ objective same ih =>
      refine ⟨ih.name, ih.id, ih.vars, ih.oriented, ?_, ?_⟩
      · rw [← ih.objective, objective]
        simp only [Option.map_some, Objective.simplify, same]
      · rw [← ih.direction, objective]
        rfl
  | @turn q turned o _ objective ih =>
      refine ⟨ih.name, ih.id, ih.vars, ih.oriented, ?_, ?_⟩
      · rw [← ih.objective, objective]
        simp only [Option.map_some, Objective.simplify_invert, Objective.orient_invert]
      · have hd := congrArg (Option.map Direction.flip) ih.direction
        rw [objective, Option.map_some, Option.map_some, Option.map_map] at hd
        refine hd.trans (congrArg (p.objective.map ·) (funext fun o => ?_))
        cases turned <;> simp [Direction.flip_flip]

theorem canonical?_eq_bind {o : Objective ℚ} (ho : p.objective = some o) :
    p.canonical? = (({ p with
        objective := some o.simplify.orient
        constraints := p.oriented } : Program ℚ).augment .slack) >>= fun x =>
      x.1.augment .surplus >>= fun y => .ok ⟨y.1, x.2, y.2, o.direction == .min⟩ := by
  have hob : p.simplify.objective = some o.simplify := by simp [simplify, ho]
  have hcs : p.simplify.constraints.map Constraint.orient = p.oriented := by
    simp [simplify, oriented]
  rw [canonical?]
  simp only [hob, hcs]
  rfl

theorem SameForm.canonical? (h : p.SameForm q turned) {k : Canonical ℚ}
    (hk : p.canonical? = .ok k) : q.canonical? = .ok { k with flipped := k.flipped ^^ turned } := by
  cases ho : p.objective with
  | none =>
      rw [canonical?_none ho] at hk
      cases hk
  | some o =>
      have hobj := h.objective
      have hdir := h.direction
      simp only [ho, Option.map_some, Option.map_eq_some_iff] at hobj hdir
      obtain ⟨o', ho', he⟩ := hobj
      obtain ⟨_, ho'', hd⟩ := hdir
      obtain rfl := Option.some.inj (ho'.symm.trans ho'')
      have hbase : ({ q with
          objective := some o'.simplify.orient, constraints := q.oriented } : Program ℚ) =
          { p with objective := some o.simplify.orient, constraints := p.oriented } := by
        ext1
        · exact h.name
        · exact h.id
        · exact h.vars
        · exact h.oriented
        · exact congrArg some he
      have hflip : (o'.direction == .min) = ((o.direction == .min) ^^ turned) := by
        rw [hd]
        cases turned <;> cases o.direction <;> rfl
      rw [canonical?_eq_bind ho] at hk
      rw [canonical?_eq_bind ho', hbase, hflip]
      obtain ⟨ds, slacks, hs, -⟩ := augment_eq { p with
        objective := some o.simplify.orient, constraints := p.oriented } .slack
      rw [hs] at hk ⊢
      obtain ⟨es, surpluses, hu, -⟩ := augment_eq { p with
        vars := p.vars ++ slacks.map (·.1)
        objective := some o.simplify.orient, constraints := ds } .surplus
      change augment _ .surplus >>= _ = _ at hk
      change augment _ .surplus >>= _ = _
      rw [hu] at hk ⊢
      obtain rfl := Except.ok.inj hk
      rfl

end Program

end LinProg
