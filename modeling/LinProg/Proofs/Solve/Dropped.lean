import Mathlib.Algebra.Order.BigOperators.Group.Finset
import Mathlib.Algebra.Order.Ring.Abs
import LinProg.Proofs.Solve.PhaseOne

namespace LinProg

theorem Row.residual_update (r : Row ℚ) {c : ℕ} (hc : c < r.width) (x : ℕ → ℚ) (a : ℚ) :
    r.residual (Function.update x c a) = r.residual x - (a - x c) * r.cell c := by
  have hu : Function.update x c a = fun i => x i + (a - x c) * if i = c then 1 else 0 := by
    funext i
    by_cases hi : i = c
    · subst hi
      simp
    · simp [hi]
  have hs : ∑ i ∈ Finset.range r.width, r.cell i * (if i = c then 1 else 0) = r.cell c := by
    simp [hc]
  rw [hu, residual_move, hs]

namespace Tableau

/-- The solution `x` of a tableau that the columns `cols` were driven out of becomes the solution
`y` of a tableau before, with values in these columns that are small beside it. -/
structure Extends (t : Tableau ℚ) (cols : List ℕ) (x y : ℕ → ℚ) : Prop where
  solves : t.Solves y
  eq : ∀ j, j ∉ cols → y j = x j
  nonbasic : ∀ j ∈ cols, (∀ b ∈ t.rows, b.basic ≠ some j) → y j = 0
  bound : ∀ j ∈ cols, |y j| ≤ t.tol * ∑ i ∈ Finset.range t.width, |x i|

variable {t u v : Tableau ℚ} {cols : List ℕ} {r c m : ℕ} {b : BasicRow ℚ} {x y : ℕ → ℚ}

theorem solves_of_removeRow (ht : t.HasUnitBasis) (hb : t.rows[r]? = some b)
    (hc : b.basic = some c) (hy : (t.removeRow r).Solves y) :
    t.Solves (Function.update y c (y c + b.row.residual y)) := by
  obtain ⟨hlt, -, hcol⟩ := ht.unitIn hb hc
  intro d hd
  obtain ⟨k, hk⟩ := List.getElem?_of_mem hd
  rw [Row.residual_update _ ((t.aligned d hd).symm ▸ hlt), add_sub_cancel_left, hcol k d hk]
  by_cases hkr : k = r
  · subst hkr
    obtain rfl := Option.some.inj (hb.symm.trans hk)
    rw [if_pos rfl, mul_one, sub_self]
  · have hdb : d ≠ b := by
      rintro rfl
      have h1 := hcol r d hb
      rw [hcol k d hk, if_neg hkr, if_pos rfl] at h1
      exact zero_ne_one h1
    rw [if_neg hkr, mul_zero, sub_zero]
    exact hy d (mem_removeRow hb hd hdb)

theorem abs_short_le (ht : t.Based) (hb : t.rows[r]? = some b) (hc : b.basic = some c)
    (h0 : b.row.rhs = 0) (hzero : ∀ j < t.width, j ∉ cols → |b.row.cell j| ≤ t.tol)
    (heq : ∀ j, j ∉ cols → y j = x j)
    (hy : ∀ j ∈ cols, j ≠ c → (∀ d ∈ t.rows, d.basic ≠ some j) → y j = 0) :
    |y c + b.row.residual y| ≤ t.tol * ∑ i ∈ Finset.range t.width, |x i| := by
  obtain ⟨hlt, -, hcol⟩ := ht.unit.unitIn hb hc
  have hmem : c ∈ Finset.range t.width := Finset.mem_range.2 hlt
  have hshort : y c + b.row.residual y =
      -∑ j ∈ (Finset.range t.width).erase c, b.row.cell j * y j := by
    rw [Row.residual, h0, t.aligned b (List.mem_of_getElem? hb), ← width,
      ← Finset.add_sum_erase _ _ hmem, hcol r b hb, if_pos rfl]
    ring
  have hterm : ∀ j ∈ (Finset.range t.width).erase c, |b.row.cell j * y j| ≤ t.tol * |x j| := by
    intro j hj
    obtain ⟨hjc, hjt⟩ := Finset.mem_erase.1 hj
    -- A column of `cols` with another value than 0 is basic in a row of its own.
    by_cases hcols : j ∈ cols
    · rw [cell_mul_eq_zero ht.unit hb hc hjc (hy j hcols hjc), abs_zero]
      exact mul_nonneg ht.tol_nonneg (abs_nonneg _)
    · rw [abs_mul, heq j hcols]
      exact mul_le_mul_of_nonneg_right (hzero j (Finset.mem_range.1 hjt) hcols) (abs_nonneg _)
  have hsub : ∑ j ∈ (Finset.range t.width).erase c, |x j| ≤ ∑ j ∈ Finset.range t.width, |x j| :=
    Finset.sum_le_sum_of_subset_of_nonneg (Finset.erase_subset _ _) fun j _ _ => abs_nonneg _
  calc |y c + b.row.residual y|
      = |∑ j ∈ (Finset.range t.width).erase c, b.row.cell j * y j| := by rw [hshort, abs_neg]
    _ ≤ ∑ j ∈ (Finset.range t.width).erase c, |b.row.cell j * y j| :=
        Finset.abs_sum_le_sum_abs _ _
    _ ≤ ∑ j ∈ (Finset.range t.width).erase c, t.tol * |x j| := Finset.sum_le_sum hterm
    _ = t.tol * ∑ j ∈ (Finset.range t.width).erase c, |x j| := by rw [Finset.mul_sum]
    _ ≤ t.tol * ∑ j ∈ Finset.range t.width, |x j| :=
        mul_le_mul_of_nonneg_left hsub ht.tol_nonneg

theorem Settled.extends_refl (h : t.Settled cols) (hx : t.Solves x) (hz : ∀ c ∈ cols, x c = 0) :
    t.Extends cols x x := by
  refine ⟨hx, fun _ _ => rfl, fun j hj _ => hz j hj, fun j hj => ?_⟩
  rw [hz j hj, abs_zero]
  exact mul_nonneg h.based.tol_nonneg (Finset.sum_nonneg fun i _ => abs_nonneg _)

theorem Extends.drives {a a' : ℕ × Tableau ℚ} (h : a'.2.Extends cols x y) (hs : a.2.Settled cols)
    (hd : Drives cols a a') : ∃ z, a.2.Extends cols x z := by
  cases hd with
  | pass => exact ⟨y, h⟩
  | @swap r j t u b row basic col pivot =>
      have hx := exchanged_of_row hs.based.tol_nonneg row pivot
      refine ⟨y, (hx.solves_iff hs.based.tol_nonneg y).1 h.solves, h.eq, fun i hi hnb => ?_, ?_⟩
      · refine h.nonbasic i hi fun d hd hdi => ?_
        obtain ⟨k, hk⟩ := List.getElem?_of_mem hd
        rcases hx.row_cases hk with ⟨-, rfl⟩ | ⟨-, e, he, rfl⟩
        · exact col (Option.some.inj hdi ▸ hi)
        · exact hnb e (List.mem_of_getElem? he) hdi
      · have hb := h.bound
        rwa [hx.tol, hx.width_eq] at hb
  | @drop r t b row basic zero =>
      obtain ⟨c, hcm, hc⟩ := BasicRow.hasBasic_iff.1 basic
      have hnb : ∀ j ∈ cols, j ≠ c → (∀ d ∈ t.rows, d.basic ≠ some j) → y j = 0 :=
        fun j hj _ hn => h.nonbasic j hj fun d hd => hn d (List.mem_of_mem_eraseIdx hd)
      have hshort := abs_short_le hs.based row hc (hs.zero b (List.mem_of_getElem? row) basic) zero
        h.eq hnb
      refine ⟨_, solves_of_removeRow hs.based.unit row hc h.solves, fun j hj => ?_,
        fun j hj hn => ?_, fun j hj => ?_⟩
      · have hjc : j ≠ c := by
          rintro rfl
          exact hj hcm
        rw [Function.update_of_ne hjc, h.eq j hj]
      · have hjc : j ≠ c := fun he => hn b (List.mem_of_getElem? row) (he ▸ hc)
        rw [Function.update_of_ne hjc, hnb j hj hjc hn]
      · by_cases hjc : j = c
        · subst hjc
          rwa [Function.update_self]
        · rw [Function.update_of_ne hjc]
          exact h.bound j hj

theorem exists_extends {a : ℕ × Tableau ℚ} (h : Relation.ReflTransGen (Drives cols) a (m, v))
    (hs : a.2.Settled cols) (hx : v.Solves x) (hz : ∀ c ∈ cols, x c = 0) :
    ∃ y, a.2.Extends cols x y := by
  -- From the end of the way on: the row dropped last is made up for first.
  induction h using Relation.ReflTransGen.head_induction_on with
  | refl => exact ⟨x, hs.extends_refl hx hz⟩
  | head hstep _ ih =>
      obtain ⟨y, hy⟩ := ih (hs.drives hstep)
      exact hy.drives hs hstep

theorem solves_iff_of_drives {a : ℕ × Tableau ℚ} (h : Relation.ReflTransGen (Drives cols) (0, t) a)
    (ht : t.Based) : a.2.rows.length ≤ t.rows.length ∧
      (a.2.rows.length = t.rows.length → ∀ y, a.2.Solves y ↔ t.Solves y) := by
  induction h with
  | refl => exact ⟨le_rfl, fun _ _ => Iff.rfl⟩
  | @tail a a' h hstep ih =>
      obtain ⟨hle, hsol⟩ := ih
      have hb := (keeps_of_drives h ht).based
      cases hstep with
      | pass => exact ⟨hle, hsol⟩
      | swap row _ _ pivot =>
          rw [length_rows_of_pivot pivot]
          refine ⟨hle, fun hl y => ?_⟩
          exact ((exchanged_of_row hb.tol_nonneg row pivot).solves_iff hb.tol_nonneg y).trans
            (hsol hl y)
      | @drop r u b row =>
          have hr := (List.getElem?_eq_some_iff.1 row).1
          have hl : (u.removeRow r).rows.length = u.rows.length - 1 := List.length_eraseIdx_of_lt hr
          dsimp only at hle ⊢
          exact ⟨by omega, fun he => by omega⟩

end Tableau

namespace Canonical.HasArtificials

open Tableau

variable {p q : Program ℚ} {o : Objective ℚ} {k : Canonical ℚ} {added : List (Var × ℕ)}
variable {t u : Tableau ℚ} {tol ε : ℚ} {y z : ℕ → ℚ}

theorem abs_gap_le (h : k.HasArtificials q added) (h0 : 0 ≤ ε)
    (hz : ∀ d ∈ q.constraints, d.gap z = 0) (hε : ∀ e ∈ added, |z e.1.index| ≤ ε) :
    ∀ c ∈ k.program.constraints, |c.gap z| ≤ ε := by
  intro c hc
  obtain ⟨r, hr⟩ := List.getElem?_of_mem hc
  rcases h.entered.row_cases hr with ⟨-, v, hv, hd⟩ | ⟨-, -, hd⟩
  · have hgap := hz _ (List.mem_of_getElem? hd)
    rw [(Auxiliary.artificial_weighs _).gap, one_mul, sub_eq_zero] at hgap
    rw [hgap]
    exact hε (v, 0 + r) hv
  · rw [hz c (List.mem_of_getElem? hd), abs_zero]
    exact h0

theorem solves_phaseOneTableau_iff (h : k.HasArtificials q added) (hs : k.program.Standard) :
    (q.phaseOneTableau added tol).Solves z ↔ ∀ d ∈ q.constraints, d.gap z = 0 := by
  rw [q.solves_phaseOneTableau, (h.standard hs).residual_rows_iff]

/-- The tolerance drops a row that only nearly says nothing about the columns left. -/
theorem abs_gap_restored_le (h : k.HasArtificials q added) (hs : k.program.Standard)
    (ht : t.Settled (added.map (·.1.index))) (he : (q.phaseOneTableau added tol).Equivalent t)
    (hw : t.width = q.vars.length)
    (hu : (t.restore k.program (added.map (·.1.index))).result = .ok u) (hy : u.Solves y) :
    ∀ c ∈ k.program.constraints,
      |c.gap y| ≤ t.tol * ∑ i ∈ Finset.range k.program.vars.length, |y i| := by
  obtain ⟨m, v, hd, -, hvw, -, rfl⟩ := restore_eq ht.based hu
  rw [hw] at hvw
  have hle : k.program.vars.length ≤ t.width := by
    rw [hw, h.length_vars]
    omega
  have hremoved : (v.removeColumns (added.map (·.1.index)) k.program.names).Solves y := hy
  have hx : v.Solves fun j => if j < k.program.vars.length then y j else 0 :=
    (solves_removeColumns (h.width_not_mem_cols hvw) (h.kept_cols hvw) (hvw ▸ hw ▸ hle)).1 hremoved
  have hcols {j : ℕ} (hj : j < k.program.vars.length) : j ∉ added.map (·.1.index) :=
    fun hm => absurd ((h.mem_cols j).1 hm).1 (not_le.2 hj)
  obtain ⟨z, hz⟩ := exists_extends hd ht hx fun c hc => if_neg (not_lt.2 ((h.mem_cols c).1 hc).1)
  have hsum : ∑ i ∈ Finset.range t.width, |if i < k.program.vars.length then y i else 0| =
      ∑ i ∈ Finset.range k.program.vars.length, |y i| := by
    rw [← Finset.sum_subset (Finset.range_subset_range.2 hle)
      fun i _ hi => by rw [if_neg (by simpa using hi), abs_zero]]
    exact Finset.sum_congr rfl fun i hi => by rw [if_pos (Finset.mem_range.1 hi)]
  have hbound := hz.bound
  rw [hsum] at hbound
  intro c hc
  have hzy : c.gap z = c.gap y := Constraint.gap_congr (hs.within c hc) fun i hi => by
    rw [hz.eq i (hcols hi), if_pos hi]
  rw [← hzy]
  refine h.abs_gap_le ?_ ((h.solves_phaseOneTableau_iff hs).1 ((he z).1.1 hz.solves))
    (fun e hea => hbound _ (List.mem_map_of_mem hea)) c hc
  exact mul_nonneg ht.based.tol_nonneg (Finset.sum_nonneg fun i _ => abs_nonneg _)

theorem gap_restored_eq_zero (h : k.HasArtificials q added) (hs : k.program.Standard)
    (ht : t.Based) (he : (q.phaseOneTableau added tol).Equivalent t) (hw : t.width = q.vars.length)
    (hu : (t.restore k.program (added.map (·.1.index))).result = .ok u)
    (hrows : u.rows.length = t.rows.length) (hy : u.Solves y) :
    ∀ c ∈ k.program.constraints, c.gap y = 0 := by
  obtain ⟨m, v, hd, -, hvw, -, rfl⟩ := restore_eq ht hu
  rw [hw] at hvw
  have hl : v.rows.length = t.rows.length := by
    rw [← hrows, rows_setObjective, rows_removeColumns (h.width_not_mem_cols hvw), List.length_map]
  refine (h.solves_restored hs (fun x _ => ?_) hvw k.program.names y).1 hy
  rw [(solves_iff_of_drives hd ht).2 hl, (he x).1, h.solves_phaseOneTableau_iff hs,
    h.solves_phaseOneTableau_iff hs]

end Canonical.HasArtificials

end LinProg
