import LinProg.Proofs.Solve.DriveOut
import LinProg.Proofs.Solve.Start
import LinProg.Proofs.Tableau.Verdict

namespace LinProg

namespace Canonical.HasArtificials

open Tableau

variable {p q : Program ℚ} {o : Objective ℚ} {k : Canonical ℚ} {added : List (Var × ℕ)}
variable {t u : Tableau ℚ}

theorem kept_cols (h : k.HasArtificials q added) (hw : t.width = q.vars.length) :
    t.kept (added.map (·.1.index)) = List.range k.program.vars.length :=
  kept_eq_range (hw.trans h.length_vars) h.mem_cols

theorem residual_nonpos {tol : ℚ} (he : (q.phaseOneTableau added tol).Equivalent t) {x : ℕ → ℚ}
    (hx : ∀ i, 0 ≤ x i) (hsol : t.Solves x) : t.objective.residual x ≤ 0 := by
  have hinit := (he x).1.1 hsol
  rw [(he x).2 hinit]
  exact Program.residual_phaseOneRow_nonpos ((q.solves_phaseOneTableau added tol).1 hinit) hx added

theorem move_ne_unbounded (ht : t.Vertex) (he : (q.phaseOneTableau added 0).Equivalent t) :
    t.move ≠ .unbounded := by
  intro hm
  obtain ⟨x, hx, hsol, hpos⟩ := ht.exists_solves_above hm 0
  exact absurd hpos (not_lt.2 (residual_nonpos he hx hsol))

/-- An optimum of phase one with a positive artificial variable refutes every feasible point. -/
theorem not_feasible_of_hasPositive (h : k.HasArtificials q added) (hk : p.HasCanonical o k)
    (hp : p.Valid) (ht : t.Vertex) (he : (q.phaseOneTableau added 0).Equivalent t)
    (hm : t.move = .optimal) (hpos : t.hasPositive (added.map (·.1.index))) {x : List ℚ} :
    ¬ p.Feasible x := by
  intro hx
  -- The point found has a negative value.
  have hneg : t.value < 0 := by
    obtain ⟨b, hb, hcols, hlt⟩ := hasPositive_iff.1 hpos
    obtain ⟨c, hc, hbc⟩ := BasicRow.hasBasic_iff.1 hcols
    obtain ⟨e, hea, rfl⟩ := List.mem_map.1 hc
    obtain ⟨r, hr⟩ := List.getElem?_of_mem hb
    have hsol := (he _).1.1 (solves_point ht.unit)
    rw [← residual_point ht.unit, (he _).2 hsol]
    refine Program.residual_phaseOneRow_neg ((q.solves_phaseOneTableau added 0).1 hsol)
      (point_nonneg ht.unit ht.nonneg) hea ?_ ?_
    · rw [h.length_vars]
      exact (h.entered.index_lt e hea).2
    · rw [point_basic ht.unit hr hbc]
      rwa [ht.exact] at hlt
  -- The feasible point would have the value 0.
  obtain ⟨y, hy, hz, -, hgap⟩ := hk.exists_gap_eq_zero hp hx
  have hz : ∀ e ∈ added, y e.1.index = 0 := fun e hea => hz _ (h.entered.index_lt e hea).1
  have hrows := (h.standard (hk.standard hp)).residual_rows_iff.2 ((h.gap_eq_zero_iff hz).2 hgap)
  have hsol := (q.solves_phaseOneTableau added 0).2 hrows
  have hval := (he y).2 hsol
  have h0 : (q.phaseOneTableau added 0).objective.residual y = 0 :=
    Program.residual_phaseOneRow_eq_zero hrows hz
  have hle := ht.residual_le_value hm hy
  rw [hval, h0] at hle
  exact absurd hneg (not_lt.2 hle)

theorem width_removeColumns_cols (h : k.HasArtificials q added) (hw : t.width = q.vars.length)
    (labels : List String) : (t.removeColumns (added.map (·.1.index)) labels).width =
      k.program.vars.length := by
  rw [width_removeColumns (h.width_not_mem_cols hw), h.kept_cols hw, List.length_range]

/-- Phase two starts with the objective of the canonical form over its columns, even where the
tolerance has passed over entries that are not 0. -/
theorem prices_restore (h : k.HasArtificials q added) (hk : p.HasCanonical o k) (hp : p.Valid)
    (ho : p.objective = some o) (ht : t.Based) (hw : t.width = q.vars.length)
    (hu : (t.restore k.program (added.map (·.1.index))).result = .ok u) :
    u.Prices k.program o.simplify.orient := by
  obtain ⟨m, v, -, hv, hvw, hout, rfl⟩ := restore_eq ht hu
  rw [hw] at hvw
  have hunit := hv.unit.removeColumns (h.width_not_mem_cols hvw) hout k.program.names
  have hwr := h.width_removeColumns_cols hvw k.program.names
  refine ⟨⟨hv.tol_nonneg, hunit.setObjective _⟩, (width_setObjective _ _).trans hwr,
    fun x hx => ?_⟩
  rw [residual_setObjective hunit ((Program.width_objectiveRow _).trans hwr.symm) hx,
    hk.residual_objectiveRow hp ho]

theorem solves_restored (h : k.HasArtificials q added) (hs : k.program.Standard)
    (hsol : ∀ x, (∀ c ∈ added.map (·.1.index), x c = 0) →
      (t.Solves x ↔ (q.phaseOneTableau added 0).Solves x))
    (hw : t.width = q.vars.length) (labels : List String) (y : ℕ → ℚ) :
    (t.removeColumns (added.map (·.1.index)) labels).Solves y ↔
      ∀ c ∈ k.program.constraints, c.gap y = 0 := by
  have hle : k.program.vars.length ≤ t.width := by
    rw [hw, h.length_vars]
    omega
  have hz : ∀ c ∈ added.map (·.1.index), (if c < k.program.vars.length then y c else 0) = 0 :=
    fun c hc => if_neg (not_lt.2 ((h.mem_cols c).1 hc).1)
  have hze : ∀ e ∈ added, (if e.1.index < k.program.vars.length then y e.1.index else 0) = 0 :=
    fun e he => hz _ (List.mem_map_of_mem he)
  rw [solves_removeColumns (h.width_not_mem_cols hw) (h.kept_cols hw) hle, hsol _ hz,
    q.solves_phaseOneTableau, (h.standard hs).residual_rows_iff, h.gap_eq_zero_iff hze]
  apply forall_congr'
  intro c
  apply forall_congr'
  intro hc
  rw [Constraint.gap_congr (hs.within c hc) fun i hi => if_pos hi]

theorem vertex_restore (h : k.HasArtificials q added) (hk : p.HasCanonical o k) (hp : p.Valid)
    (ho : p.objective = some o) (ht : t.Vertex) (he : (q.phaseOneTableau added 0).Equivalent t)
    (hw : t.width = q.vars.length) (hpos : ¬ t.hasPositive (added.map (·.1.index)))
    (hu : (t.restore k.program (added.map (·.1.index))).result = .ok u) :
    u.Vertex ∧ u.point = t.point ∧ u.Depicts k.program o.simplify.orient := by
  have hprices := h.prices_restore hk hp ho ht.based hw hu
  obtain ⟨m, v, hd, hv, hvw, hout, rfl⟩ := restore_eq ht.based hu
  rw [hw] at hvw
  have hdriven := driven_of_drives hd ht hpos
  have hnot := h.width_not_mem_cols hvw
  have hunit := hv.unit.removeColumns hnot hout k.program.names
  have hle : k.program.vars.length ≤ v.width := by
    rw [hvw, h.length_vars]
    omega
  refine ⟨⟨hdriven.vertex.exact, hprices.unit, ?_⟩, ?_, hprices.width, ?_, hprices.objective⟩
  · exact hdriven.vertex.nonneg.removeColumns hnot k.program.names
  · rw [point_setObjective, hv.unit.point_removeColumns hnot hout (h.kept_cols hvw) hle,
      hdriven.point]
  · exact h.solves_restored (hk.standard hp)
      (fun x hx => (hdriven.solves x hx).trans (he x).1) hvw k.program.names

end Canonical.HasArtificials

end LinProg
