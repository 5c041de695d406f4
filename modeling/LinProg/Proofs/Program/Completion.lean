import LinProg.Proofs.Program.Canonical

namespace LinProg

/-- The values that the variables added to `p` take beside `x`. -/
def Canonical.completion (p : Program ℚ) (k : Canonical ℚ) (x : ℕ → ℚ) : List ℚ :=
  k.entries.map fun e => e.2 * (p.oriented[e.1.2]?).elim 0 (·.gap x)

namespace Program

variable {p : Program ℚ} {o : Objective ℚ} {k : Canonical ℚ}

theorem oriented_holds_iff (p : Program ℚ) (x : ℕ → ℚ) :
    (∀ c ∈ p.oriented, c.Holds x) ↔ ∀ c ∈ p.constraints, c.Holds x := by
  simp [oriented, Constraint.holds_orient, Constraint.holds_simplify]

namespace HasCanonical

theorem position_lt (h : p.HasCanonical o k) {e : (Var × ℕ) × ℚ} (he : e ∈ k.entries) :
    e.1.1.index < k.program.vars.length := by
  obtain ⟨j, hj⟩ := List.getElem?_of_mem he
  have hl := (List.getElem?_eq_some_iff.1 hj).1
  rw [h.position hj, h.length_vars]
  omega

theorem holds_of_holds (h : p.HasCanonical o k) {y : ℕ → ℚ}
    (hy : ∀ i < k.program.vars.length, 0 ≤ y i) (hk : ∀ d ∈ k.program.constraints, d.Holds y) :
    ∀ c ∈ p.constraints, c.Holds y := by
  rw [← oriented_holds_iff]
  obtain ⟨hen, heq⟩ := (h.holds_iff y).1 hk
  intro c hc
  obtain ⟨r, hr⟩ := List.getElem?_of_mem hc
  rcases h.row_entry hr with ⟨e, he, rfl⟩ | ⟨hrel, -⟩
  · obtain ⟨hsq, c', -, hc', -, -, -, hiff⟩ := h.entry_row he
    rw [hr] at hc'
    obtain rfl := Option.some.inj hc'
    rw [hiff, hen e he c hr, ← mul_assoc, hsq, one_mul]
    exact hy _ (h.position_lt he)
  · exact heq c hc hrel

theorem length_completion (k : Canonical ℚ) (x : ℕ → ℚ) :
    (k.completion p x).length = k.entries.length := by
  simp [Canonical.completion]

theorem getElem?_completion {j : ℕ} {e : (Var × ℕ) × ℚ} {c : Constraint ℚ} {x : ℕ → ℚ}
    (he : k.entries[j]? = some e) (hc : p.oriented[e.1.2]? = some c) :
    (k.completion p x)[j]? = some (e.2 * c.gap x) := by
  simp [Canonical.completion, he, hc]

theorem completion_nonneg (h : p.HasCanonical o k) {x : ℕ → ℚ}
    (hx : ∀ c ∈ p.constraints, c.Holds x) : ∀ a ∈ k.completion p x, 0 ≤ a := by
  intro a ha
  obtain ⟨e, he, rfl⟩ := List.mem_map.1 ha
  obtain ⟨-, c, -, hc, -, -, -, hiff⟩ := h.entry_row he
  rw [hc]
  exact (hiff x).1 ((p.oriented_holds_iff x).2 hx c (List.mem_of_getElem? hc))

theorem holds_append_iff (h : p.HasCanonical o k) (hp : p.Valid) {x z : List ℚ}
    (hl : x.length = p.vars.length) (hz : z.length = k.entries.length)
    (hx : ∀ c ∈ p.constraints, c.Holds (valuation x)) :
    (∀ d ∈ k.program.constraints, d.Holds (valuation (x ++ z))) ↔
      z = k.completion p (valuation x) := by
  have hgap (c : Constraint ℚ) (hc : c ∈ p.oriented) :
      c.gap (valuation (x ++ z)) = c.gap (valuation x) :=
    Constraint.gap_congr (hp.within_oriented c hc) fun i hi =>
      valuation_append_left (by omega)
  have hval {j : ℕ} {e : (Var × ℕ) × ℚ} (he : k.entries[j]? = some e) :
      valuation (x ++ z) e.1.1.index = valuation z j := by
    rw [h.position he, ← hl, valuation_append_right]
  rw [h.holds_iff]
  constructor
  · rintro ⟨hen, -⟩
    apply List.ext_getElem?
    intro j
    by_cases hj : j < k.entries.length
    · have he := List.getElem?_eq_getElem hj
      obtain ⟨hsq, c, -, hc, -⟩ := h.entry_row (List.getElem_mem hj)
      have hg := hen _ (List.getElem_mem hj) c hc
      rw [hgap c (List.mem_of_getElem? hc), hval he] at hg
      rw [getElem?_completion he hc, hg, ← mul_assoc, hsq, one_mul]
      have hjz : j < z.length := by omega
      simp [valuation, List.getD_eq_getElem?_getD, hjz]
    · rw [List.getElem?_eq_none (by omega),
        List.getElem?_eq_none (by rw [length_completion]; omega)]
  · intro hcz
    constructor
    · intro e he c hc
      obtain ⟨j, hj⟩ := List.getElem?_of_mem he
      have hzj : valuation z j = e.2 * c.gap (valuation x) := by
        rw [valuation, List.getD_eq_getElem?_getD, hcz, getElem?_completion hj hc]
        rfl
      rw [hgap c (List.mem_of_getElem? hc), hval hj, hzj, ← mul_assoc, (h.entry_row he).1, one_mul]
    · intro c hc _
      rw [Constraint.Holds, hgap c hc]
      exact (p.oriented_holds_iff _).2 hx c hc

theorem exists_gap_eq_zero (h : p.HasCanonical o k) (hp : p.Valid) {x : List ℚ}
    (hx : p.Feasible x) : ∃ y : ℕ → ℚ, (∀ i, 0 ≤ y i) ∧
      (∀ i, k.program.vars.length ≤ i → y i = 0) ∧ (∀ i < p.vars.length, y i = valuation x i) ∧
      ∀ d ∈ k.program.constraints, d.gap y = 0 := by
  obtain ⟨hl, hn, hc⟩ := (feasible_iff fun c hc => hp.within hc).1 hx
  have hz := length_completion (p := p) k (valuation x)
  refine ⟨valuation (x ++ k.completion p (valuation x)), ?_, ?_, ?_, ?_⟩
  · apply valuation_nonneg_iff.2
    intro a ha
    rcases List.mem_append.1 ha with ha | ha
    · exact valuation_nonneg_iff.1 hn a ha
    · exact h.completion_nonneg hc a ha
  · intro i hi
    apply valuation_of_le
    rw [List.length_append, hl, hz, ← h.length_vars]
    exact hi
  · intro i hi
    exact valuation_append_left (hl ▸ hi)
  · intro d hd
    have hs := (h.holds_append_iff hp hl hz hc).2 rfl d hd
    exact (Constraint.holds_iff_gap (h.relation_eq d hd)).1 hs

theorem feasible_of_gap_eq_zero (h : p.HasCanonical o k) (hp : p.Valid) {y : ℕ → ℚ}
    (hy : ∀ i, 0 ≤ y i) (hk : ∀ d ∈ k.program.constraints, d.gap y = 0) :
    p.Feasible ((List.range p.vars.length).map y) := by
  refine feasible_map_range (fun c hc => hp.within hc) (fun i _ => hy i) ?_
  apply h.holds_of_holds (fun i _ => hy i)
  intro d hd
  exact (Constraint.holds_iff_gap (h.relation_eq d hd)).2 (hk d hd)

theorem value_objective (h : p.HasCanonical o k) (x : ℕ → ℚ) :
    o.simplify.orient.expr.value x = if k.flipped then -o.expr.value x else o.expr.value x := by
  rw [h.flipped]
  cases hd : o.direction <;> simp [Objective.orient, Objective.simplify, Objective.invert, hd]

theorem within_objective (hp : p.Valid) (ho : p.objective = some o) :
    o.simplify.orient.expr.Within p.vars.length := by
  have hw := hp.within_objective ho
  have hs : o.simplify.expr.Within p.vars.length := fun a ha => hw a (List.mem_of_mem_filter ha)
  rw [Objective.orient]
  split
  · exact hs
  · intro a ha
    obtain ⟨b, hb, rfl⟩ := List.mem_map.1 ha
    exact hs b hb

theorem length_entries (k : Canonical ℚ) :
    k.entries.length = k.slacks.length + k.surpluses.length := by
  simp [Canonical.entries]

theorem existsUnique_completion (h : p.HasCanonical o k) (hp : p.Valid) {x : List ℚ}
    (hx : p.Feasible x) : ∃ z, z.length = k.entries.length ∧ k.program.Satisfied (x ++ z) ∧
      (∀ a ∈ z, 0 ≤ a) ∧
      ∀ z', z'.length = k.entries.length → k.program.Satisfied (x ++ z') → z' = z := by
  obtain ⟨hl, -, hc⟩ := (feasible_iff fun c hc => hp.within hc).1 hx
  have hlz (z : List ℚ) (hz : z.length = k.entries.length) :
      (x ++ z).length = k.program.vars.length := by
    rw [List.length_append, hl, hz, h.length_vars]
  have hz := length_completion (p := p) k (valuation x)
  refine ⟨_, hz, ?_, h.completion_nonneg hc, ?_⟩
  · exact (satisfied_iff (h.within hp) (hlz _ hz)).2 ((h.holds_append_iff hp hl hz hc).2 rfl)
  · intro z' hz' hs
    exact (h.holds_append_iff hp hl hz' hc).1 ((satisfied_iff (h.within hp) (hlz _ hz')).1 hs)

theorem feasible_take (h : p.HasCanonical o k) (hp : p.Valid) {y : List ℚ}
    (hy : k.program.Feasible y) : p.Feasible (y.take p.vars.length) := by
  obtain ⟨hl, hn, hc⟩ := (feasible_iff (h.within hp)).1 hy
  have hle : p.vars.length ≤ y.length := hl ▸ h.length_le
  have hyt : ∀ i < p.vars.length, valuation (y.take p.vars.length) i = valuation y i := by
    intro i hi
    simp [valuation, List.getD_eq_getElem?_getD, hi]
  refine (feasible_iff fun c hc => hp.within hc).2 ⟨by simpa using hle, ?_, ?_⟩
  · apply valuation_nonneg_iff.2
    intro a ha
    exact valuation_nonneg_iff.1 hn a (List.mem_of_mem_take ha)
  · intro c hm
    rw [Constraint.holds_congr (hp.within hm) hyt]
    exact h.holds_of_holds (fun i _ => hn i) hc c hm

theorem eval_append (h : p.HasCanonical o k) (hp : p.Valid) (ho : p.objective = some o)
    {x z : List ℚ} (hx : x.length = p.vars.length) (hz : z.length = k.entries.length) :
    ∃ a, p.eval o.expr x = .ok a ∧
      k.program.eval o.simplify.orient.expr (x ++ z) = .ok (if k.flipped then -a else a) := by
  have hwo := hp.within_objective ho
  have hwq := HasCanonical.within_objective hp ho
  have hlz : (x ++ z).length = k.program.vars.length := by
    rw [List.length_append, hx, hz, h.length_vars]
  refine ⟨_, eval_eq hwo hx, ?_⟩
  rw [eval_eq (hwq.mono h.length_le) hlz, h.value_objective]
  rw [LinExpr.value_congr hwo fun i hi => valuation_append_left (m := z) (by omega)]

end HasCanonical

/-- Canonical form keeps the meaning of a program. The added variables have exactly one choice of
values beside a feasible point, all of them nonnegative; dropping them from a feasible point of the
canonical form leaves a feasible point; and the objectives agree up to the sign of the flip. -/
theorem canonical?_preserves (hp : p.Valid) (ho : p.objective = some o) :
    ∃ k, p.canonical? = .ok k ∧
      k.program.vars = p.vars ++ (k.slacks ++ k.surpluses).map (·.1) ∧
      (∀ d ∈ k.program.constraints, d.relation = .eq) ∧
      (∀ x, p.Feasible x → ∃ z, z.length = k.slacks.length + k.surpluses.length ∧
        k.program.Satisfied (x ++ z) ∧ (∀ a ∈ z, 0 ≤ a) ∧
        ∀ z', z'.length = k.slacks.length + k.surpluses.length →
          k.program.Satisfied (x ++ z') → z' = z) ∧
      (∀ y, k.program.Feasible y → p.Feasible (y.take p.vars.length)) ∧
      ∃ q, k.program.objective = some q ∧ ∀ x z, x.length = p.vars.length →
        z.length = k.slacks.length + k.surpluses.length →
        ∃ a, p.eval o.expr x = .ok a ∧
          k.program.eval q.expr (x ++ z) = .ok (if k.flipped then -a else a) := by
  obtain ⟨k, hk, h⟩ := canonical?_eq ho
  refine ⟨k, hk, h.vars, h.relation_eq, ?_, ?_, _, h.objective, ?_⟩
  · intro x hx
    rw [← HasCanonical.length_entries]
    exact h.existsUnique_completion hp hx
  · intro y hy
    exact h.feasible_take hp hy
  · intro x z hx hz
    rw [← HasCanonical.length_entries] at hz
    exact h.eval_append hp ho hx hz

/-- A minimum over two constraints that the canonical form turns around or gives a surplus, and an
equation. -/
def blend : Program ℚ where
  name := "blend"
  id := 0
  vars := [⟨"x", 0, 0⟩, ⟨"y", 1, 0⟩]
  constraints :=
    [⟨.ofTerms [(⟨"x", 0, 0⟩, 1), (⟨"y", 1, 0⟩, -1)] 0, .ge, -3, 0⟩,
      ⟨.ofTerms [(⟨"x", 0, 0⟩, 1), (⟨"y", 1, 0⟩, 1)] 0, .ge, 2, 1⟩,
      ⟨.ofTerms [(⟨"x", 0, 0⟩, 1), (⟨"y", 1, 0⟩, 2)] 0, .eq, 4, 2⟩]
  objective := some ⟨.ofTerms [(⟨"x", 0, 0⟩, 2), (⟨"y", 1, 0⟩, 1)] 1, .min⟩

theorem blend_valid : blend.Valid := by decide

theorem canonical?_preserves_blend : ∃ k, blend.canonical? = .ok k ∧
    k.program.Satisfied [0, 2, 1, 0] ∧
    ∀ z, z.length = 2 → k.program.Satisfied ([0, 2] ++ z) → z = [1, 0] := by
  obtain ⟨k, hk, -, -, hx, -⟩ := canonical?_preserves blend_valid rfl
  obtain ⟨z, -, -, -, hz⟩ := hx [0, 2] (by decide +kernel)
  have hs : (blend.canonical?.toOption.map fun k => decide
      (k.slacks.length + k.surpluses.length = 2 ∧ k.program.Satisfied [0, 2, 1, 0])) = some true := by
    decide +kernel
  rw [hk] at hs
  obtain ⟨hl, hs⟩ := of_decide_eq_true (Option.some.inj hs)
  refine ⟨k, hk, hs, ?_⟩
  intro z' hz' hs'
  rw [hz z' (hz'.trans hl.symm) hs', hz [1, 0] hl.symm hs]

end Program

end LinProg
