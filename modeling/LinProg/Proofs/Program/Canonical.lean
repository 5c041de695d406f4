import LinProg.Proofs.Program.Augment

namespace LinProg

/-- Whether a variable enters constraints of bound and constant unchanged, with coefficient `w`. -/
structure Auxiliary.Weighs (a : Auxiliary ℚ) (w : ℚ) : Prop where
  bound : ∀ c v, (a.enter c v).bound = c.bound
  constant : ∀ c v, (a.enter c v).expr.constant = c.expr.constant
  value : ∀ c v x, (a.enter c v).expr.value x = c.expr.value x + w * x v.index
  coeffAt : ∀ c v j, (a.enter c v).expr.coeffAt j =
    c.expr.coeffAt j + if v.index = j then w else 0
  within : ∀ c v n, c.expr.Within n → v.index < n → (a.enter c v).expr.Within n

namespace Auxiliary

theorem slack_weighs : (slack : Auxiliary ℚ).Weighs 1 where
  bound _ _ := rfl
  constant _ _ := rfl
  value c v x := by simp [slack]
  coeffAt c v j := by simp [slack]
  within _ _ _ hc hv := Terms.Within.add hc hv

theorem surplus_weighs : (surplus : Auxiliary ℚ).Weighs (-1) where
  bound _ _ := rfl
  constant _ _ := rfl
  value c v x := by simp only [surplus, LinExpr.value_subVar]; ring
  coeffAt c v j := by
    simp only [surplus, LinExpr.coeffAt_subVar]
    split <;> ring
  within _ _ _ hc hv := Terms.Within.add hc hv

theorem artificial_weighs (covered : List ℕ) : (artificial covered : Auxiliary ℚ).Weighs 1 where
  bound _ _ := rfl
  constant _ _ := rfl
  value c v x := by simp [artificial]
  coeffAt c v j := by simp [artificial]
  within _ _ _ hc hv := Terms.Within.add hc hv

theorem Weighs.gap {a : Auxiliary ℚ} {w : ℚ} (h : a.Weighs w) (c : Constraint ℚ) (v : Var)
    (x : ℕ → ℚ) : (a.enter c v).gap x = c.gap x - w * x v.index := by
  simp only [Constraint.gap, h.bound, h.value]; ring

end Auxiliary

namespace Entered

variable {a : Auxiliary ℚ} {w : ℚ} {id i n : ℕ} {cs ds : List (Constraint ℚ)}
variable {added : List (Var × ℕ)}

theorem coeffAt_index (h : Entered a id i n cs ds added) (hw : a.Weighs w)
    (hcs : ∀ c ∈ cs, c.expr.Within n) {e : Var × ℕ} (he : e ∈ added) {k : ℕ} {d : Constraint ℚ}
    (hd : ds[k]? = some d) : d.expr.coeffAt e.1.index = if i + k = e.2 then w else 0 := by
  obtain ⟨c, hc, hrow⟩ := h.of_row hd
  have h0 : c.expr.coeffAt e.1.index = 0 :=
    LinExpr.coeffAt_of_le (hcs c (List.mem_of_getElem? hc)) (h.index_lt e he).1
  rcases hrow with ⟨v, hv, rfl⟩ | ⟨hn, rfl⟩
  · rw [hw.coeffAt, h0, zero_add]
    congr 1
    refine propext ⟨fun hi => ?_, fun hr => ?_⟩
    · exact congrArg Prod.snd (h.eq_of_index_eq hv he hi)
    · exact congrArg (·.1.index) (h.eq_of_row_eq hv he hr)
  · rw [h0, if_neg (hn e he).symm]

theorem coeffAt_of_lt (h : Entered a id i n cs ds added) (hw : a.Weighs w) {j k : ℕ} (hj : j < n)
    {d : Constraint ℚ} (hd : ds[k]? = some d) :
    ∃ c, cs[k]? = some c ∧ d.expr.coeffAt j = c.expr.coeffAt j := by
  obtain ⟨c, hc, ⟨v, hv, rfl⟩ | ⟨-, rfl⟩⟩ := h.of_row hd
  · have hi := (h.index_lt _ hv).1
    refine ⟨c, hc, ?_⟩
    rw [hw.coeffAt, if_neg (by dsimp only at hi; omega), add_zero]
  · exact ⟨d, hc, rfl⟩

theorem within (h : Entered a id i n cs ds added) (hw : a.Weighs w)
    (hcs : ∀ c ∈ cs, c.expr.Within n) : ∀ d ∈ ds, d.expr.Within (n + added.length) := by
  intro d hm
  obtain ⟨k, hd⟩ := List.getElem?_of_mem hm
  obtain ⟨c, hc, hrow⟩ := h.of_row hd
  have hcw := (hcs c (List.mem_of_getElem? hc)).mono (Nat.le_add_right n added.length)
  rcases hrow with ⟨v, hv, rfl⟩ | ⟨-, rfl⟩
  · exact hw.within c v _ hcw (h.index_lt _ hv).2
  · exact hcw

theorem exists_bound (h : Entered a id i n cs ds added) (hw : a.Weighs w) :
    ∀ d ∈ ds, ∃ c ∈ cs, d.bound = c.bound ∧ d.expr.constant = c.expr.constant := by
  intro d hm
  obtain ⟨k, hd⟩ := List.getElem?_of_mem hm
  obtain ⟨c, hc, ⟨v, hv, rfl⟩ | ⟨-, rfl⟩⟩ := h.of_row hd
  · exact ⟨c, List.mem_of_getElem? hc, hw.bound c v, hw.constant c v⟩
  · exact ⟨d, List.mem_of_getElem? hc, rfl, rfl⟩

end Entered

namespace Program

variable {α : Type} [Scalar α]

def oriented (p : Program α) : List (Constraint α) :=
  p.constraints.map fun c => c.simplify.orient

/-- How the canonical form `k` of `p` comes about: slacks enter the oriented constraints first,
surplus variables after them. -/
structure HasCanonical (p : Program α) (o : Objective α) (k : Canonical α) : Prop where
  id : k.program.id = p.id
  vars : k.program.vars = p.vars ++ (k.slacks ++ k.surpluses).map (·.1)
  objective : k.program.objective = some o.simplify.orient
  flipped : k.flipped = (o.direction == .min)
  entered : ∃ ds, Entered .slack p.id 0 p.vars.length p.oriented ds k.slacks ∧
    Entered .surplus p.id 0 (p.vars.length + k.slacks.length) ds k.program.constraints k.surpluses

theorem canonical?_eq {p : Program α} {o : Objective α} (ho : p.objective = some o) :
    ∃ k, p.canonical? = .ok k ∧ p.HasCanonical o k := by
  obtain ⟨ds, ss, hs, hds⟩ := augment_eq { p with
    objective := some o.simplify.orient, constraints := p.oriented } .slack
  obtain ⟨es, us, hu, hes⟩ := augment_eq { p with
    objective := some o.simplify.orient, vars := p.vars ++ ss.map (·.1), constraints := ds } .surplus
  refine ⟨⟨{ p with
      objective := some o.simplify.orient
      vars := p.vars ++ ss.map (·.1) ++ us.map (·.1)
      constraints := es }, ss, us, o.direction == .min⟩, ?_,
    ⟨rfl, ?_, rfl, rfl, ds, hds, by simpa using hes⟩⟩
  · have hob : p.simplify.objective = some o.simplify := by simp [simplify, ho]
    have hcs : p.simplify.constraints.map Constraint.orient = p.oriented := by
      simp [simplify, oriented]
    rw [canonical?]
    simp only [hob, hcs]
    change Except.bind (augment { p with
      objective := some o.simplify.orient, constraints := p.oriented } .slack) _ = _
    rw [hs]
    change Except.bind (augment _ .surplus) _ = _
    rw [hu]
    rfl
  · simp

theorem canonical?_none {p : Program α} (ho : p.objective = none) :
    p.canonical? = .error .missingObjective := by
  have hob : p.simplify.objective = none := by simp [simplify, ho]
  rw [canonical?]
  simp only [hob]
  rfl

theorem hasCanonical_of_eq {p : Program α} {o : Objective α} {k : Canonical α}
    (ho : p.objective = some o) (hk : p.canonical? = .ok k) : p.HasCanonical o k := by
  obtain ⟨k', hk', h⟩ := canonical?_eq ho
  rw [hk] at hk'
  exact Except.ok.inj hk' ▸ h

namespace HasCanonical

variable {p : Program α} {o : Objective α} {k : Canonical α}

theorem length_constraints (h : p.HasCanonical o k) :
    k.program.constraints.length = p.oriented.length := by
  obtain ⟨ds, hs, hu⟩ := h.entered
  rw [hu.length_eq, hs.length_eq]

theorem row_cases (h : p.HasCanonical o k) {r : ℕ} {c : Constraint α}
    (hc : p.oriented[r]? = some c) :
    (c.relation = .le ∧ ∃ v, (v, r) ∈ k.slacks ∧
      k.program.constraints[r]? = some (Auxiliary.slack.enter c v)) ∨
    (c.relation = .ge ∧ ∃ v, (v, r) ∈ k.surpluses ∧
      k.program.constraints[r]? = some (Auxiliary.surplus.enter c v)) ∨
    (c.relation = .eq ∧ k.program.constraints[r]? = some c) := by
  obtain ⟨ds, hs, hu⟩ := h.entered
  rcases hs.row_cases hc with ⟨hw, v, hv, hd⟩ | ⟨hw, -, hd⟩
  · rcases hu.row_cases hd with ⟨hw', -⟩ | ⟨-, -, he⟩
    · simp [Auxiliary.surplus, Auxiliary.slack] at hw'
    · exact .inl ⟨by simpa [Auxiliary.slack] using hw, v, by simpa using hv, he⟩
  · rcases hu.row_cases hd with ⟨hw', v, hv, he⟩ | ⟨hw', -, he⟩
    · exact .inr (.inl ⟨by simpa [Auxiliary.surplus] using hw', v, by simpa using hv, he⟩)
    · refine .inr (.inr ⟨?_, he⟩)
      simp only [Auxiliary.slack, Auxiliary.surplus, beq_iff_eq] at hw hw'
      cases hr : c.relation <;> simp_all

theorem slack_row (h : p.HasCanonical o k) {e : Var × ℕ} (he : e ∈ k.slacks) :
    ∃ c, p.oriented[e.2]? = some c ∧ c.relation = .le ∧
      k.program.constraints[e.2]? = some (Auxiliary.slack.enter c e.1) := by
  obtain ⟨ds, hs, hu⟩ := h.entered
  obtain ⟨r, c, hr, hc, hw, hd⟩ := hs.of_mem e he
  obtain rfl : e.2 = r := by omega
  refine ⟨c, hc, by simpa [Auxiliary.slack] using hw, ?_⟩
  rcases hu.row_cases hd with ⟨hw', -⟩ | ⟨-, -, he⟩
  · simp [Auxiliary.surplus, Auxiliary.slack] at hw'
  · exact he

theorem surplus_row (h : p.HasCanonical o k) {e : Var × ℕ} (he : e ∈ k.surpluses) :
    ∃ c, p.oriented[e.2]? = some c ∧ c.relation = .ge ∧
      k.program.constraints[e.2]? = some (Auxiliary.surplus.enter c e.1) := by
  obtain ⟨ds, hs, hu⟩ := h.entered
  obtain ⟨r, d, hr, hd, hw, hx⟩ := hu.of_mem e he
  obtain rfl : e.2 = r := by omega
  have hl : e.2 < p.oriented.length := by
    have := (List.getElem?_eq_some_iff.1 hd).1
    rwa [hs.length_eq] at this
  rcases hs.row_cases (List.getElem?_eq_getElem hl) with ⟨-, v, -, hd'⟩ | ⟨-, -, hd'⟩
  · rw [Nat.zero_add] at *
    rw [hd] at hd'
    simp [Option.some.inj hd', Auxiliary.surplus, Auxiliary.slack] at hw
  · rw [hd] at hd'
    obtain rfl := Option.some.inj hd'
    exact ⟨_, List.getElem?_eq_getElem hl, by simpa [Auxiliary.surplus] using hw, hx⟩

end HasCanonical

end Program

namespace Program

variable {p : Program ℚ} {o : Objective ℚ} {k : Canonical ℚ}

theorem bound_oriented_nonneg (p : Program ℚ) : ∀ c ∈ p.oriented, 0 ≤ c.bound := by
  intro c hc
  obtain ⟨c, -, rfl⟩ := List.mem_map.1 hc
  exact Constraint.bound_orient_nonneg _

theorem Valid.within_oriented (hp : p.Valid) : ∀ c ∈ p.oriented, c.expr.Within p.vars.length := by
  intro c hc
  obtain ⟨c, hm, rfl⟩ := List.mem_map.1 hc
  have hw := hp.within hm
  have hs : c.simplify.expr.Within p.vars.length := fun a ha => hw a (List.mem_of_mem_filter ha)
  rw [Constraint.orient]
  split
  · intro a ha
    obtain ⟨b, hb, rfl⟩ := List.mem_map.1 ha
    exact hs b hb
  · exact hs

theorem Valid.constant_oriented (hp : p.Valid) : ∀ c ∈ p.oriented, c.expr.constant = 0 := by
  intro c hc
  obtain ⟨c, hm, rfl⟩ := List.mem_map.1 hc
  have h0 := hp.constant c hm
  rw [Constraint.orient]
  split
  · simp [Constraint.invert, Constraint.simplify, LinExpr.scale, LinExpr.simplify, h0]
  · exact h0

theorem HasCanonical.within (h : p.HasCanonical o k) (hp : p.Valid) :
    ∀ d ∈ k.program.constraints, d.expr.Within k.program.vars.length := by
  obtain ⟨ds, hs, hu⟩ := h.entered
  have hw := hu.within Auxiliary.surplus_weighs (hs.within Auxiliary.slack_weighs hp.within_oriented)
  have hl : k.program.vars.length = p.vars.length + k.slacks.length + k.surpluses.length := by
    simp [h.vars, Nat.add_assoc]
  rwa [← hl] at hw

end Program

/-- The added variables with their rows and the coefficients they have there. -/
def Canonical.entries (k : Canonical ℚ) : List ((Var × ℕ) × ℚ) :=
  k.slacks.map (·, 1) ++ k.surpluses.map (·, -1)

namespace Program.HasCanonical

variable {p : Program ℚ} {o : Objective ℚ} {k : Canonical ℚ}

theorem length_vars (h : p.HasCanonical o k) :
    k.program.vars.length = p.vars.length + k.entries.length := by
  simp [h.vars, Canonical.entries]

theorem length_le (h : p.HasCanonical o k) : p.vars.length ≤ k.program.vars.length := by
  rw [h.length_vars]
  exact Nat.le_add_right _ _

theorem position (h : p.HasCanonical o k) {j : ℕ} {e : (Var × ℕ) × ℚ}
    (he : k.entries[j]? = some e) : e.1.1.index = p.vars.length + j := by
  obtain ⟨ds, hs, hu⟩ := h.entered
  unfold Canonical.entries at he
  by_cases hj : j < k.slacks.length
  · rw [List.getElem?_append_left (by simpa using hj), List.getElem?_map] at he
    obtain ⟨e, hm, rfl⟩ := Option.map_eq_some_iff.1 he
    exact (hs.position hm).1
  · rw [List.getElem?_append_right (by simpa using hj), List.getElem?_map, List.length_map] at he
    obtain ⟨e, hm, rfl⟩ := Option.map_eq_some_iff.1 he
    have := (hu.position hm).1
    dsimp only
    omega

/-- Each added variable turns its constraint into the equation that it makes up the gap, and a
nonnegative value makes it up exactly where the constraint holds. -/
theorem entry_row (h : p.HasCanonical o k) {e : (Var × ℕ) × ℚ} (he : e ∈ k.entries) :
    e.2 * e.2 = 1 ∧ ∃ c d, p.oriented[e.1.2]? = some c ∧
      k.program.constraints[e.1.2]? = some d ∧ d.relation = .eq ∧
      (∀ x, d.gap x = c.gap x - e.2 * x e.1.1.index) ∧ ∀ x, c.Holds x ↔ 0 ≤ e.2 * c.gap x := by
  rcases List.mem_append.1 he with hm | hm
  · obtain ⟨e, hs, rfl⟩ := List.mem_map.1 hm
    obtain ⟨c, hc, hr, hd⟩ := h.slack_row hs
    refine ⟨by norm_num, c, _, hc, hd, rfl, Auxiliary.slack_weighs.gap c e.1, fun x => ?_⟩
    rw [Constraint.Holds, hr, one_mul]
    exact Iff.rfl
  · obtain ⟨e, hs, rfl⟩ := List.mem_map.1 hm
    obtain ⟨c, hc, hr, hd⟩ := h.surplus_row hs
    refine ⟨by norm_num, c, _, hc, hd, rfl, Auxiliary.surplus_weighs.gap c e.1, fun x => ?_⟩
    rw [Constraint.Holds, hr, neg_one_mul, neg_nonneg]
    exact Iff.rfl

theorem row_entry (h : p.HasCanonical o k) {r : ℕ} {c : Constraint ℚ}
    (hc : p.oriented[r]? = some c) :
    (∃ e ∈ k.entries, e.1.2 = r) ∨ (c.relation = .eq ∧ k.program.constraints[r]? = some c) := by
  rcases h.row_cases hc with ⟨-, v, hv, -⟩ | ⟨-, v, hv, -⟩ | hr
  · exact .inl ⟨((v, r), 1), List.mem_append_left _ (List.mem_map_of_mem hv), rfl⟩
  · exact .inl ⟨((v, r), -1), List.mem_append_right _ (List.mem_map_of_mem hv), rfl⟩
  · exact .inr hr

theorem entry_of_row (h : p.HasCanonical o k) {r : ℕ} {d : Constraint ℚ}
    (hd : k.program.constraints[r]? = some d) :
    (∃ e ∈ k.entries, e.1.2 = r) ∨ (d.relation = .eq ∧ d ∈ p.oriented) := by
  have hl : r < p.oriented.length := by
    rw [← h.length_constraints]
    exact (List.getElem?_eq_some_iff.1 hd).1
  rcases h.row_entry (List.getElem?_eq_getElem hl) with he | ⟨hc, hd'⟩
  · exact .inl he
  · rw [hd] at hd'
    rw [Option.some.inj hd']
    exact .inr ⟨hc, List.getElem_mem hl⟩

theorem relation_eq (h : p.HasCanonical o k) : ∀ d ∈ k.program.constraints, d.relation = .eq := by
  intro d hd
  obtain ⟨r, hr⟩ := List.getElem?_of_mem hd
  rcases h.entry_of_row hr with ⟨e, he, rfl⟩ | ⟨heq, -⟩
  · obtain ⟨-, c, d', -, hd', heq, -⟩ := h.entry_row he
    rw [hr] at hd'
    exact Option.some.inj hd' ▸ heq
  · exact heq

theorem holds_iff (h : p.HasCanonical o k) (y : ℕ → ℚ) :
    (∀ d ∈ k.program.constraints, d.Holds y) ↔
      (∀ e ∈ k.entries, ∀ c, p.oriented[e.1.2]? = some c → c.gap y = e.2 * y e.1.1.index) ∧
      ∀ c ∈ p.oriented, c.relation = .eq → c.Holds y := by
  constructor
  · intro hy
    constructor
    · intro e he c hc
      obtain ⟨-, c', d, hc', hd, heq, hg, -⟩ := h.entry_row he
      rw [hc] at hc'
      obtain rfl := Option.some.inj hc'
      have hd := hy d (List.mem_of_getElem? hd)
      rw [Constraint.Holds, heq, hg] at hd
      exact sub_eq_zero.1 hd
    · intro c hc hr
      obtain ⟨r, hcr⟩ := List.getElem?_of_mem hc
      rcases h.row_cases hcr with ⟨hl, -⟩ | ⟨hg, -⟩ | ⟨-, hd⟩
      · rw [hr] at hl; cases hl
      · rw [hr] at hg; cases hg
      · exact hy c (List.mem_of_getElem? hd)
  · rintro ⟨hen, heqs⟩ d hd
    obtain ⟨r, hr⟩ := List.getElem?_of_mem hd
    rcases h.entry_of_row hr with ⟨e, he, rfl⟩ | ⟨heq, hm⟩
    · obtain ⟨-, c, d', hc, hd', heq, hg, -⟩ := h.entry_row he
      rw [hr] at hd'
      obtain rfl := Option.some.inj hd'
      rw [Constraint.Holds, heq, hg, hen e he c hc]
      exact sub_self _
    · exact heqs d hm heq

end Program.HasCanonical

end LinProg
