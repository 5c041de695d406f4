import LinProg.Proofs.Solve.Driving
import LinProg.Proofs.Tableau.Ascent
import LinProg.Proofs.Tableau.Rebuild

namespace LinProg

theorem BasicRow.hasBasic_iff {b : BasicRow ℚ} {cols : List ℕ} :
    b.hasBasic cols ↔ ∃ c ∈ cols, b.basic = some c := by
  rw [hasBasic]
  cases b.basic with
  | none => simp
  | some c => simp

namespace Tableau

/-- One look at a row while the columns `cols` are driven out of the basis: from row `r` of `t` on
to the next row, of `t` or of the tableau that the look leaves. -/
inductive Drives (cols : List ℕ) : ℕ × Tableau ℚ → ℕ × Tableau ℚ → Prop
  | pass {r : ℕ} {t : Tableau ℚ} {b : BasicRow ℚ} (row : t.rows[r]? = some b)
      (basic : ¬ b.hasBasic cols) : Drives cols (r, t) (r + 1, t)
  | swap {r j : ℕ} {t u : Tableau ℚ} {b : BasicRow ℚ} (row : t.rows[r]? = some b)
      (basic : b.hasBasic cols) (col : j ∉ cols) (pivot : t.pivot (r + 1) j = .ok u) :
      Drives cols (r, t) (r + 1, u)
  | drop {r : ℕ} {t : Tableau ℚ} {b : BasicRow ℚ} (row : t.rows[r]? = some b)
      (basic : b.hasBasic cols) (zero : ∀ j < t.width, j ∉ cols → |b.row.cell j| ≤ t.tol) :
      Drives cols (r, t) (r, t.removeRow r)

def Cleared (t : Tableau ℚ) (cols : List ℕ) (r : ℕ) : Prop :=
  ∀ k < r, ∀ b, t.rows[k]? = some b → ¬ b.hasBasic cols

variable {t₀ t u : Tableau ℚ} {cols : List ℕ} {r j n : ℕ} {b : BasicRow ℚ}
variable {x y : ℕ × Tableau ℚ}

/-- Driving out always ends, past the last row. The induction is on the rows left to look at. -/
theorem exists_driveOutFrom (cols : List ℕ) (n r : ℕ) (t : Tableau ℚ)
    (hlen : t.rows.length ≤ r + n) :
    ∃ m u, (driveOutFrom cols n r t).result = .ok u ∧
      Relation.ReflTransGen (Drives cols) (r, t) (m, u) ∧ u.rows.length ≤ m := by
  induction n generalizing r t with
  | zero => exact ⟨r, t, rfl, .refl, hlen⟩
  | succ n ih =>
      have hx := drivesOn cols n r t
      generalize (driveOutFrom cols (n + 1) r t).result = x at hx
      cases hx with
      | past row => exact ⟨r, t, rfl, .refl, List.getElem?_eq_none_iff.1 row⟩
      | pass row basic =>
          obtain ⟨m, v, hv, hd, hl⟩ := ih (r + 1) t (by omega)
          exact ⟨m, v, hv, hd.head (.pass row basic), hl⟩
      | swap row basic lt col entry =>
          rw [scalar_abs] at entry
          obtain ⟨u, hu⟩ := exists_pivot row lt entry
          have hlu := length_rows_of_pivot hu
          obtain ⟨m, v, hv, hd, hl⟩ := ih (r + 1) u (by omega)
          rw [hu]
          exact ⟨m, v, hv, hd.head (.swap row basic col hu), hl⟩
      | drop row basic zero =>
          have hlr : (t.removeRow r).rows.length = t.rows.length - 1 :=
            List.length_eraseIdx_of_lt (List.getElem?_eq_some_iff.1 row).1
          have hz : ∀ j < t.width, j ∉ cols → |_| ≤ t.tol := fun j hj hjc =>
            scalar_abs _ ▸ not_lt.1 (zero j hj hjc)
          obtain ⟨m, v, hv, hd, hl⟩ := ih r (t.removeRow r) (by omega)
          exact ⟨m, v, hv, hd.head (.drop row basic hz), hl⟩

theorem Cleared.of_length_le (h : t.Cleared cols r) (hr : t.rows.length ≤ r) :
    ∀ b ∈ t.rows, ¬ b.hasBasic cols := by
  intro b hb
  obtain ⟨k, hk⟩ := List.getElem?_of_mem hb
  exact h k ((List.getElem?_eq_some_iff.1 hk).1.trans_le hr) b hk

structure Keeps (t : Tableau ℚ) (cols : List ℕ) (x : ℕ × Tableau ℚ) : Prop where
  based : x.2.Based
  width : x.2.width = t.width
  cleared : x.2.Cleared cols x.1

theorem Keeps.drives (h : t.Keeps cols x) (hx : Drives cols x y) : t.Keeps cols y := by
  obtain ⟨hb, hw, hc⟩ := h
  cases hx with
  | @pass r t b row basic =>
      refine ⟨hb, hw, fun k hk d hd => ?_⟩
      rcases Nat.lt_succ_iff_lt_or_eq.1 hk with hlt | rfl
      · exact hc k hlt d hd
      · exact Option.some.inj (row.symm.trans hd) ▸ basic
  | @swap r j t u b row basic col pivot =>
      have hx := exchanged_of_row hb.tol_nonneg row pivot
      refine ⟨hx.based hb, hx.width_eq.trans hw, fun k hk d hd hdb => ?_⟩
      rcases hx.row_cases hd with ⟨-, rfl⟩ | ⟨hkr, e, he, rfl⟩
      · obtain ⟨c, hcm, hcj⟩ := BasicRow.hasBasic_iff.1 hdb
        exact col (Option.some.inj hcj ▸ hcm)
      · exact hc k (by omega) e he hdb
  | @drop r t b row basic zero =>
      refine ⟨⟨hb.tol_nonneg, hb.unit.removeRow r⟩, hw, fun k hk d hd => ?_⟩
      rw [getElem?_removeRow, if_pos hk] at hd
      exact hc k hk d hd

theorem keeps_of_drives (h : Relation.ReflTransGen (Drives cols) (0, t) x) (ht : t.Based) :
    t.Keeps cols x := by
  induction h with
  | refl => exact ⟨ht, rfl, fun k hk => absurd hk (Nat.not_lt_zero k)⟩
  | tail _ hstep ih => exact ih.drives hstep

/-- At a basic solution that is nowhere negative, the columns `cols` are basic at 0 only. -/
structure Settled (t : Tableau ℚ) (cols : List ℕ) : Prop where
  based : t.Based
  nonneg : t.RhsNonneg
  zero : ∀ b ∈ t.rows, b.hasBasic cols → b.row.rhs = 0

namespace Settled

/-- The entry may have either sign here: the row has 0 on the right. -/
theorem exchange (h : t.Settled cols) (hx : t.Exchanged r j b u) (hb : b.hasBasic cols) :
    u.Settled cols := by
  have hb0 : b.row.rhs = 0 := h.zero b (List.mem_of_getElem? hx.row) hb
  have hrow {c : BasicRow ℚ} (hc : c ∈ u.rows) :
      c.row.rhs = 0 ∨ ∃ d ∈ t.rows, c.basic = d.basic ∧ c.row.rhs = d.row.rhs := by
    obtain ⟨k, hk⟩ := List.getElem?_of_mem hc
    rcases hx.row_cases hk with ⟨-, rfl⟩ | ⟨-, d, hd, rfl⟩
    · exact .inl (by rw [Row.rhs_divide, hb0, zero_div])
    · refine .inr ⟨d, List.mem_of_getElem? hd, rfl, ?_⟩
      rw [Row.rhs_addScaled, Row.rhs_divide, hb0, zero_div, mul_zero, add_zero]
  refine ⟨hx.based h.based, fun c hc => ?_, fun c hc hcb => ?_⟩
  · rcases hrow hc with h0 | ⟨d, hd, -, hrhs⟩
    · exact h0.ge
    · rw [hrhs]
      exact h.nonneg d hd
  · rcases hrow hc with h0 | ⟨d, hd, hbas, hrhs⟩
    · exact h0
    · rw [hrhs]
      rw [BasicRow.hasBasic, hbas] at hcb
      exact h.zero d hd hcb

theorem removeRow (h : t.Settled cols) (r : ℕ) : (t.removeRow r).Settled cols where
  based := ⟨h.based.tol_nonneg, h.based.unit.removeRow r⟩
  nonneg b hb := h.nonneg b (List.mem_of_mem_eraseIdx hb)
  zero b hb := h.zero b (List.mem_of_mem_eraseIdx hb)

theorem drives (h : x.2.Settled cols) (hx : Drives cols x y) : y.2.Settled cols := by
  cases hx with
  | pass => exact h
  | swap row basic _ pivot =>
      exact h.exchange (exchanged_of_row h.based.tol_nonneg row pivot) basic
  | drop => exact h.removeRow _

theorem of_drives (h : x.2.Settled cols) (hx : Relation.ReflTransGen (Drives cols) x y) :
    y.2.Settled cols := by
  induction hx with
  | refl => exact h
  | tail _ hstep ih => exact ih.drives hstep

end Settled

/-- What driving the columns `cols` out of the basis keeps of the vertex `t₀`: the basic solution,
where they are 0, and the solutions with 0 there. -/
structure Driven (t₀ : Tableau ℚ) (cols : List ℕ) (t : Tableau ℚ) : Prop where
  vertex : t.Vertex
  zero : ∀ b ∈ t.rows, b.hasBasic cols → b.row.rhs = 0
  point : t.point = t₀.point
  solves : ∀ x, (∀ c ∈ cols, x c = 0) → (t.Solves x ↔ t₀.Solves x)

namespace Driven

theorem settled (h : t₀.Driven cols t) : t.Settled cols := ⟨h.vertex.based, h.vertex.nonneg, h.zero⟩

theorem exchange (h : t₀.Driven cols t) (hx : t.Exchanged r j b u) (hb : b.hasBasic cols) :
    t₀.Driven cols u := by
  have h0 := h.vertex.exact.ge
  obtain ⟨⟨-, hu⟩, hn, hz⟩ := h.settled.exchange hx hb
  refine ⟨⟨hx.tol.trans h.vertex.exact, hu, hn⟩, hz, ?_, ?_⟩
  · rw [← h.point]
    refine point_eq_of_solves h.vertex.unit hu
      ((hx.solves_iff h0 _).2 (solves_point h.vertex.unit)) fun d hd c hc hne => ?_
    obtain ⟨k, hk⟩ := List.getElem?_of_mem hd
    have hkr : k ≠ r := by
      rintro rfl
      obtain rfl := Option.some.inj (hx.row.symm.trans hk)
      exact hne (h.zero b hd hb)
    exact ⟨_, List.mem_of_getElem? (hx.getElem?_of_ne hkr hk), hc⟩
  · intro x hxz
    exact ((hx.equivalent h0 x).1).trans (h.solves x hxz)

theorem removeRow (h : t₀.Driven cols t) (hr : t.rows[r]? = some b) (hb : b.hasBasic cols)
    (hz : ∀ j < t.width, j ∉ cols → b.row.cell j = 0) : t₀.Driven cols (t.removeRow r) := by
  have hm := List.mem_of_getElem? hr
  obtain ⟨⟨-, hu⟩, hn, hz0⟩ := h.settled.removeRow r
  refine ⟨⟨h.vertex.exact, hu, hn⟩, hz0, ?_, ?_⟩
  · rw [← h.point]
    refine point_eq_of_solves h.vertex.unit hu
      (fun d hd => solves_point h.vertex.unit d (List.mem_of_mem_eraseIdx hd)) fun d hd c hc hne => ?_
    have hdr : d ≠ b := by
      rintro rfl
      exact hne (h.zero d hm hb)
    exact ⟨d, mem_removeRow hr hd hdr, hc⟩
  -- The row says nothing about points that are 0 on `cols`.
  · intro x hx
    have hres : b.row.residual x = 0 := by
      rw [Row.residual, h.zero b hm hb, Finset.sum_eq_zero, sub_zero]
      intro j hj
      rw [Finset.mem_range, t.aligned b hm] at hj
      by_cases hjc : j ∈ cols
      · rw [hx j hjc, mul_zero]
      · rw [hz j hj hjc, zero_mul]
    rw [solves_removeRow hr hres]
    exact h.solves x hx

theorem drives (h : t₀.Driven cols x.2) (hx : Drives cols x y) : t₀.Driven cols y.2 := by
  cases hx with
  | pass => exact h
  | @swap r j t u b row basic col pivot =>
      exact h.exchange (exchanged_of_row h.vertex.exact.ge row pivot) basic
  | drop row basic zero =>
      refine h.removeRow row basic fun j hj hjc => abs_nonpos_iff.1 ?_
      rw [← h.vertex.exact]
      exact zero j hj hjc

end Driven

theorem hasPositive_iff : t.hasPositive cols ↔ ∃ b ∈ t.rows, b.hasBasic cols ∧ t.tol < b.row.rhs := by
  simp [hasPositive]

theorem driven_refl (ht : t.Vertex) (h : ¬ t.hasPositive cols) : t.Driven cols t := by
  refine ⟨ht, fun b hb hc => ?_, rfl, fun x _ => Iff.rfl⟩
  refine le_antisymm ?_ (ht.nonneg b hb)
  have hn : ¬ t.tol < b.row.rhs := fun hlt => h (hasPositive_iff.2 ⟨b, hb, hc, hlt⟩)
  rwa [ht.exact, not_lt] at hn

theorem driven_of_drives (h : Relation.ReflTransGen (Drives cols) (r, t) x) (ht : t.Vertex)
    (hpos : ¬ t.hasPositive cols) : t.Driven cols x.2 := by
  induction h with
  | refl => exact driven_refl ht hpos
  | tail _ hstep ih => exact ih.drives hstep

theorem exists_restore (t : Tableau ℚ) (p : Program ℚ) (cols : List ℕ) :
    ∃ m u, (t.restore p cols).result =
        .ok ((u.removeColumns cols p.names).setObjective p.objectiveRow) ∧
      Relation.ReflTransGen (Drives cols) (0, t) (m, u) ∧ u.rows.length ≤ m := by
  obtain ⟨m, u, hu, hd, hl⟩ := exists_driveOutFrom cols t.rows.length 0 t (by omega)
  refine ⟨m, u, ?_, hd, hl⟩
  rw [restore, Logged.result_bind, driveOut, hu]
  rfl

theorem restore_eq {p : Program ℚ} (ht : t.Based) (hu : (t.restore p cols).result = .ok u) :
    ∃ m v, Relation.ReflTransGen (Drives cols) (0, t) (m, v) ∧ v.Based ∧ v.width = t.width ∧
      (∀ b ∈ v.rows, ∀ c, b.basic = some c → c ∉ cols) ∧
      u = (v.removeColumns cols p.names).setObjective p.objectiveRow := by
  obtain ⟨m, v, hv, hd, hl⟩ := t.exists_restore p cols
  obtain ⟨hb, hw, hc⟩ := keeps_of_drives hd ht
  refine ⟨m, v, hd, hb, hw, fun b hm c hbc hcm => ?_, ?_⟩
  · exact hc.of_length_le hl b hm (BasicRow.hasBasic_iff.2 ⟨c, hcm, hbc⟩)
  · rw [hu] at hv
    exact Except.ok.inj hv

end Tableau

end LinProg
