import LinProg.Proofs.Solve.Initial
import LinProg.Proofs.Solve.Visits
import LinProg.Proofs.Tableau.ReducedCost

namespace LinProg

theorem two_le_length_of_lt_sum {l : List ℚ} {a : ℚ} (h0 : 0 ≤ a) (h : ∀ x ∈ l, x ≤ a)
    (hs : a < l.sum) : 2 ≤ l.length := by
  have hle := List.sum_le_card_nsmul l a h
  by_contra hlen
  have hone : (l.length : ℚ) ≤ 1 := by exact_mod_cast Nat.lt_succ_iff.1 (not_le.1 hlen)
  rw [nsmul_eq_mul] at hle
  have hmul := mul_le_mul_of_nonneg_right hone h0
  linarith

namespace Tableau

variable {t : Tableau ℚ} {cols : List ℕ} {j : ℕ}

/-- No entry of the column that enters is above the tolerance, but those in the rows where one of the
columns `cols` is basic sum up to more. -/
structure Stalls (t : Tableau ℚ) (cols : List ℕ) : Prop where
  free : ∀ b ∈ t.rows, b.row.cell t.entering ≤ t.tol
  sum : t.tol < ((t.rows.filter (·.hasBasic cols)).map (·.row.cell t.entering)).sum -
    if t.entering ∈ cols then 1 else 0

theorem sum_hasBasic (t : Tableau ℚ) (cols : List ℕ) (j : ℕ) :
    (t.rows.map fun b => b.basic.elim 0 (fun i => if i ∈ cols then 1 else 0) * b.row.cell j).sum =
      ((t.rows.filter (·.hasBasic cols)).map (·.row.cell j)).sum := by
  have hweight (b : BasicRow ℚ) : b.basic.elim 0 (fun i => if i ∈ cols then 1 else 0) *
      b.row.cell j = if b.hasBasic cols = true then b.row.cell j else 0 := by
    rw [BasicRow.hasBasic]
    cases b.basic with
    | none => simp
    | some c => simp
  rw [List.map_congr_left fun b _ => hweight b, List.sum_map_ite]
  simp

def Totals (t : Tableau ℚ) (cols : List ℕ) : Prop :=
  ∀ x, t.Solves x → t.objective.residual x =
    -∑ i ∈ Finset.range t.width, (if i ∈ cols then 1 else 0) * x i

namespace Totals

variable (h : t.Totals cols) (ht : t.Based)

include h ht

theorem cell_objective (hj : j < t.width) (hnb : ∀ b ∈ t.rows, b.basic ≠ some j) :
    t.objective.cell j = (if j ∈ cols then 1 else 0) -
      ((t.rows.filter (·.hasBasic cols)).map (·.row.cell j)).sum := by
  rw [← sum_hasBasic]
  exact Tableau.cell_objective (a := 0) ht.unit hj hnb fun x hx => (h x hx).trans (zero_sub _).symm

/-- Where the optimality test sees the sum of the rows of `cols` and the unboundedness test each row
alone, the two contradict each other just at a tableau that stalls. -/
theorem move_eq_unbounded_iff_stalls (h1 : t.tol < 1) : t.move = .unbounded ↔ t.Stalls cols := by
  have h0 := ht.tol_nonneg
  rw [move_eq_unbounded_iff]
  constructor
  · rintro ⟨hlt, hneg, hfree⟩
    have hnb := not_basic_of_neg ht.unit (hneg.trans_le (neg_nonpos.2 h0))
    rw [h.cell_objective ht hlt hnb] at hneg
    exact ⟨hfree, by linarith⟩
  · rintro ⟨hfree, hsum⟩
    -- A basic column has an entry 1, and that is above the tolerance.
    have hnb : ∀ b ∈ t.rows, b.basic ≠ some t.entering := by
      intro b hb hbe
      obtain ⟨r, hr⟩ := List.getElem?_of_mem hb
      have hone := (ht.unit.unitIn hr hbe).2.2 r b hr
      rw [if_pos rfl] at hone
      exact absurd (hone ▸ hfree b hb) (not_le.2 h1)
    -- Without columns there are no rows, and nothing to sum up.
    have hwidth : 0 < t.width := by
      by_contra hw
      have hrows : t.rows = [] := by
        refine List.eq_nil_iff_forall_not_mem.2 fun b hb => ?_
        obtain ⟨r, hr⟩ := List.getElem?_of_mem hb
        obtain ⟨c, -, hc, -⟩ := ht.unit r b hr
        exact hw (Nat.zero_lt_of_lt hc)
      rw [hrows, List.filter_nil, List.map_nil, List.sum_nil] at hsum
      split at hsum
      all_goals linarith
    have hlt := entering_lt hwidth
    refine ⟨hlt, ?_, hfree⟩
    rw [h.cell_objective ht hlt hnb]
    linarith

end Totals

namespace Stalls

variable (h : t.Stalls cols)

include h

theorem tol_lt_sum :
    t.tol < ((t.rows.filter (·.hasBasic cols)).map (·.row.cell t.entering)).sum := by
  have hsum := h.sum
  split at hsum
  · linarith
  · rwa [sub_zero] at hsum

theorem cell_le {a : ℚ} (ha : a ∈ (t.rows.filter (·.hasBasic cols)).map (·.row.cell t.entering)) :
    a ≤ t.tol := by
  obtain ⟨b, hb, rfl⟩ := List.mem_map.1 ha
  exact h.free b (List.mem_of_mem_filter hb)

theorem tol_pos (h0 : 0 ≤ t.tol) : 0 < t.tol := by
  refine h0.lt_of_ne fun he => ?_
  have hle := List.sum_le_card_nsmul _ 0 fun a ha => he.symm ▸ h.cell_le ha
  have hlt := h.tol_lt_sum
  rw [smul_zero] at hle
  linarith

/-- One entry does not sum up to more than itself, so two of the columns are basic. -/
theorem exists_two_basic (ht : t.Based) : ∃ c ∈ cols, ∃ d ∈ cols, c ≠ d := by
  have hlen := two_le_length_of_lt_sum ht.tol_nonneg (fun _ => h.cell_le) h.tol_lt_sum
  have hnodup := ht.unit.nodup_basis.sublist ((List.filter_sublist (p := (·.hasBasic cols))).map _)
  cases hl : t.rows.filter (·.hasBasic cols) with
  | nil => simp [hl] at hlen
  | cons a l =>
      cases l with
      | nil => simp [hl] at hlen
      | cons b l =>
          have ha : a ∈ t.rows.filter (·.hasBasic cols) := hl ▸ List.mem_cons_self
          have hb : b ∈ t.rows.filter (·.hasBasic cols) :=
            hl ▸ List.mem_cons_of_mem a List.mem_cons_self
          obtain ⟨c, hc, hac⟩ := BasicRow.hasBasic_iff.1 (List.mem_filter.1 ha).2
          obtain ⟨d, hd, hbd⟩ := BasicRow.hasBasic_iff.1 (List.mem_filter.1 hb).2
          rw [hl, List.map_cons, List.map_cons, hac, hbd] at hnodup
          refine ⟨c, hc, d, hd, ?_⟩
          rintro rfl
          exact (List.nodup_cons.1 hnodup).1 List.mem_cons_self

end Stalls

end Tableau

namespace Canonical.HasArtificials

open Tableau

variable {p q : Program ℚ} {o : Objective ℚ} {k : Canonical ℚ} {added : List (Var × ℕ)} {tol : ℚ}
variable {t : Tableau ℚ}

theorem totals (h : k.HasArtificials q added) (he : (q.phaseOneTableau added tol).Equivalent t)
    (hw : t.width = q.vars.length) : t.Totals (added.map (·.1.index)) := by
  intro x hx
  have hstart := (he x).1.1 hx
  rw [(he x).2 hstart, h.residual_phaseOneTableau hstart, hw, h.sum_cols]

theorem exists_two_rows (h : k.HasArtificials q added) {c d : ℕ}
    (hc : c ∈ added.map (·.1.index)) (hd : d ∈ added.map (·.1.index)) (hne : c ≠ d) :
    ∃ r₁ < k.program.constraints.length, ∃ r₂ < k.program.constraints.length, r₁ ≠ r₂ ∧
      ∀ e ∈ k.slacks, e.2 ≠ r₁ ∧ e.2 ≠ r₂ := by
  obtain ⟨e, he, rfl⟩ := List.mem_map.1 hc
  obtain ⟨f, hf, rfl⟩ := List.mem_map.1 hd
  have hlt {e : Var × ℕ} (he : e ∈ added) : e.2 < k.program.constraints.length :=
    h.entered.length_eq ▸ h.row_lt he
  refine ⟨e.2, hlt he, f.2, hlt hf, fun hr => hne ?_, fun g hg => ⟨h.row_ne hg he, h.row_ne hg hf⟩⟩
  rw [h.entered.eq_of_row_eq he hf hr]

end Canonical.HasArtificials

namespace Simplex

open Tableau

inductive Stuck (s : Simplex ℚ) (p : Program ℚ) : Prop
  | intro {k : Canonical ℚ} {q : Program ℚ} {added : List (Var × ℕ)} {n : ℕ} {t : Tableau ℚ}
      (run : p.Run s.tolerance .one n t) (le : n ≤ s.limit) (canonical : p.canonical? = .ok k)
      (artificials : k.withArtificials = .ok (q, added))
      (stalls : t.Stalls (added.map (·.1.index))) : Stuck s p

theorem solve_eq_unboundedPhaseOne_iff {α : Type} [Scalar α] {s : Simplex α} {p : Program α} :
    (s.solve p).result = .error .unboundedPhaseOne ↔
      ∃ n ≤ s.limit, ∃ t, p.Run s.tolerance .one n t ∧ t.move = .unbounded := by
  rw [solve_eq_iff]
  constructor
  · intro h
    cases h with
    | unboundedPhaseOne run le move => exact ⟨_, le, _, run, move⟩
    | refused _ _ _ pivot => cases pivot_fault pivot
    | notRestored _ _ restore =>
        obtain ⟨i, j, hf⟩ := restore_fault restore
        cases hf
  · rintro ⟨n, le, t, run, move⟩
    exact .unboundedPhaseOne run le move

variable {s : Simplex ℚ} {p q : Program ℚ} {o : Objective ℚ} {k : Canonical ℚ}
variable {added : List (Var × ℕ)} {n : ℕ} {t : Tableau ℚ}

section PhaseOne

variable (h0 : 0 ≤ s.tolerance) (h1 : s.tolerance < 1) (hp : p.Valid) (ho : p.objective = some o)

include h0 h1 hp ho

theorem based_and_totals (hk : p.canonical? = .ok k) (hq : k.withArtificials = .ok (q, added))
    (h : p.Run s.tolerance .one n t) :
    t.Based ∧ t.tol = s.tolerance ∧ t.Totals (added.map (·.1.index)) := by
  obtain ⟨hb, htol, hw, -, he⟩ := based_of_run_one h0 h1 hp ho h hk hq
  exact ⟨hb, htol, (Canonical.hasArtificials_of_eq hq).totals he hw⟩

theorem stuck_iff : (s.solve p).result = .error .unboundedPhaseOne ↔ s.Stuck p := by
  obtain ⟨k, hk, -⟩ := Program.canonical?_eq ho
  obtain ⟨q, added, hq, -⟩ := k.withArtificials_eq
  have hmove {n : ℕ} {t : Tableau ℚ} (h : p.Run s.tolerance .one n t) :
      t.move = .unbounded ↔ t.Stalls (added.map (·.1.index)) := by
    obtain ⟨hb, htol, ht⟩ := based_and_totals h0 h1 hp ho hk hq h
    exact ht.move_eq_unbounded_iff_stalls hb (htol.symm ▸ h1)
  rw [solve_eq_unboundedPhaseOne_iff]
  constructor
  · rintro ⟨n, le, t, run, move⟩
    exact .intro run le hk hq ((hmove run).1 move)
  · rintro ⟨run, le, hk', hq', stalls⟩
    obtain rfl := Except.ok.inj (hk.symm.trans hk')
    obtain ⟨rfl, rfl⟩ := Prod.mk.inj (Except.ok.inj (hq.symm.trans hq'))
    exact ⟨_, le, _, run, (hmove run).2 stalls⟩

theorem Stuck.exists_two_rows (h : s.Stuck p) : 0 < s.tolerance ∧ ∃ k, p.canonical? = .ok k ∧
    ∃ r₁ < k.program.constraints.length, ∃ r₂ < k.program.constraints.length, r₁ ≠ r₂ ∧
      ∀ e ∈ k.slacks, e.2 ≠ r₁ ∧ e.2 ≠ r₂ := by
  obtain ⟨run, -, hk, hq, stalls⟩ := h
  obtain ⟨hb, htol, -⟩ := based_and_totals h0 h1 hp ho hk hq run
  obtain ⟨c, hc, d, hd, hne⟩ := stalls.exists_two_basic hb
  exact ⟨htol ▸ stalls.tol_pos hb.tol_nonneg, _, hk,
    (Canonical.hasArtificials_of_eq hq).exists_two_rows hc hd hne⟩

theorem residual_nonpos_of_visits (h : s.Visits p .one t) {x : ℕ → ℚ} (hx : ∀ i, 0 ≤ x i)
    (hsol : t.Solves x) : t.objective.residual x ≤ 0 := by
  obtain ⟨n, run⟩ := h
  obtain ⟨k, hk, q, added, hq⟩ := run.canonical
  obtain ⟨-, -, -, -, he⟩ := based_of_run_one h0 h1 hp ho run hk hq
  exact Canonical.HasArtificials.residual_nonpos he hx hsol

end PhaseOne

/-- Though the objective of phase one has the bound 0 at every tableau, phase one is reported
unbounded, and just where it comes to a tableau that stalls: the optimality test has the entries of
the rows of artificial variables in one sum, the unboundedness test each on its own. That takes a
tolerance other than 0 and two rows without a slack. -/
theorem unboundedPhaseOne_iff_stuck (h0 : 0 ≤ s.tolerance) (h1 : s.tolerance < 1) (hp : p.Valid)
    (ho : p.objective = some o) :
    (∀ t, s.Visits p .one t → ∀ x : ℕ → ℚ, (∀ i, 0 ≤ x i) → t.Solves x →
      t.objective.residual x ≤ 0) ∧
    ((s.solve p).result = .error .unboundedPhaseOne ↔ s.Stuck p) ∧
    ((s.solve p).result = .error .unboundedPhaseOne → 0 < s.tolerance ∧
      ∃ k, p.canonical? = .ok k ∧ ∃ r₁ < k.program.constraints.length,
        ∃ r₂ < k.program.constraints.length, r₁ ≠ r₂ ∧ ∀ e ∈ k.slacks, e.2 ≠ r₁ ∧ e.2 ≠ r₂) := by
  have hiff := stuck_iff h0 h1 hp ho
  exact ⟨fun t ht x hx hsol => residual_nonpos_of_visits h0 h1 hp ho ht hx hsol, hiff,
    fun h => (hiff.1 h).exists_two_rows h0 h1 hp ho⟩

end Simplex

def Program.twin : Program ℚ where
  name := "twin"
  id := 0
  vars := [⟨"x", 0, 0⟩]
  constraints := [⟨.ofTerms [(⟨"x", 0, 0⟩, 1 / 2 ^ 30)] 0, .eq, 1, 0⟩,
    ⟨.ofTerms [(⟨"x", 0, 0⟩, 1 / 2 ^ 30)] 0, .eq, 1, 1⟩]
  objective := some ⟨.ofTerms [(⟨"x", 0, 0⟩, 1)] 0, .max⟩

theorem Simplex.solve_twin : ((⟨1 / 10 ^ 9, 10000⟩ : Simplex ℚ).solve .twin).result =
    .error .unboundedPhaseOne :=
  eq_error_of_fault? (by decide +kernel)

theorem Simplex.unboundedPhaseOne_iff_stuck_twin :
    (⟨1 / 10 ^ 9, 10000⟩ : Simplex ℚ).Stuck .twin :=
  (unboundedPhaseOne_iff_stuck (by norm_num) (by norm_num) (by decide) rfl).2.1.1 solve_twin

theorem Simplex.unboundedPhaseOne_of_feasible : Program.twin.Valid ∧
    Program.twin.Feasible [2 ^ 30] ∧
    ((⟨1 / 10 ^ 9, 10000⟩ : Simplex ℚ).solve .twin).result = .error .unboundedPhaseOne :=
  ⟨by decide, by decide +kernel, solve_twin⟩

end LinProg
