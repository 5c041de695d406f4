import Mathlib.Algebra.Order.Ring.Abs
import LinProg.Proofs.Tableau.Ascent

namespace LinProg

namespace Tableau

/-- Position `k` is the first with an entry within `tol` of 1, and all other entries are within
`tol` of 0. -/
structure NearUnit (tol : ℚ) (l : List ℚ) (k : ℕ) : Prop where
  one : ∃ a, l[k]? = some a ∧ |a - 1| ≤ tol
  first : ∀ i < k, ∀ a, l[i]? = some a → tol < |a - 1|
  zero : ∀ i, i ≠ k → ∀ a, l[i]? = some a → |a| ≤ tol

variable {t : Tableau ℚ} {tol : ℚ} {i j k m r c : ℕ} {b : BasicRow ℚ}

theorem nearUnit_cons_zero {a : ℚ} {l : List ℚ} :
    NearUnit tol (a :: l) 0 ↔ |a - 1| ≤ tol ∧ ∀ x ∈ l, |x| ≤ tol := by
  constructor
  · rintro ⟨⟨b, hb, h1⟩, -, h0⟩
    cases hb
    refine ⟨h1, fun x hx => ?_⟩
    obtain ⟨i, hi⟩ := List.getElem?_of_mem hx
    exact h0 (i + 1) (Nat.succ_ne_zero i) x hi
  · rintro ⟨h1, h0⟩
    refine ⟨⟨a, rfl, h1⟩, fun i hi => absurd hi (Nat.not_lt_zero i), ?_⟩
    intro i hi x hx
    cases i with
    | zero => exact absurd rfl hi
    | succ i => exact h0 x (List.mem_of_getElem? hx)

theorem nearUnit_cons_succ {a : ℚ} {l : List ℚ} :
    NearUnit tol (a :: l) (k + 1) ↔ tol < |a - 1| ∧ |a| ≤ tol ∧ NearUnit tol l k := by
  constructor
  · rintro ⟨h1, hf, h0⟩
    refine ⟨hf 0 k.succ_pos a rfl, h0 0 k.succ_ne_zero.symm a rfl, h1, ?_, ?_⟩
    · exact fun i hi => hf (i + 1) (Nat.succ_lt_succ hi)
    · exact fun i hi => h0 (i + 1) fun he => hi (Nat.succ.inj he)
  · rintro ⟨hf, h0, h⟩
    refine ⟨h.one, ?_, ?_⟩
    · intro i hi x hx
      cases i with
      | zero => cases hx; exact hf
      | succ i => exact h.first i (Nat.lt_of_succ_lt_succ hi) x hx
    · intro i hi x hx
      cases i with
      | zero => cases hx; exact h0
      | succ i => exact h.zero i (fun he => hi (he ▸ rfl)) x hx

theorem unitFrom_some {l : List ℚ} :
    unitFrom tol i (some m) l = some k ↔ m = k ∧ ∀ a ∈ l, |a| ≤ tol := by
  induction l generalizing i with
  | nil => simp [unitFrom]
  | cons a l ih =>
      rw [unitFrom]
      rw [if_neg (by simp)]
      by_cases ha : tol < |a|
      · simp [ha]
      · simp [ha, ih, not_lt.1 ha]

theorem unitFrom_eq_some_iff {l : List ℚ} :
    unitFrom tol i none l = some m ↔ ∃ k, m = i + k ∧ NearUnit tol l k := by
  induction l generalizing i with
  | nil =>
      refine ⟨nofun, ?_⟩
      rintro ⟨k, -, ⟨a, ha, -⟩, -, -⟩
      cases ha
  | cons a l ih =>
      rw [unitFrom]
      rw [scalar_abs, scalar_abs]
      by_cases h1 : |a - 1| ≤ tol
      · rw [if_pos ⟨h1, rfl⟩, unitFrom_some]
        constructor
        · rintro ⟨rfl, h0⟩
          exact ⟨0, rfl, nearUnit_cons_zero.2 ⟨h1, h0⟩⟩
        · rintro ⟨k, rfl, hk⟩
          cases k with
          | zero => exact ⟨rfl, (nearUnit_cons_zero.1 hk).2⟩
          | succ k => exact absurd h1 (not_le.2 (nearUnit_cons_succ.1 hk).1)
      · rw [if_neg fun h => h1 h.1]
        by_cases h0 : tol < |a|
        · rw [if_pos h0]
          refine ⟨nofun, ?_⟩
          rintro ⟨k, -, hk⟩
          cases k with
          | zero => exact absurd (nearUnit_cons_zero.1 hk).1 h1
          | succ k => exact absurd h0 (not_lt.2 (nearUnit_cons_succ.1 hk).2.1)
        · rw [if_neg h0, ih]
          constructor
          · rintro ⟨k, rfl, hk⟩
            exact ⟨k + 1, by omega, nearUnit_cons_succ.2 ⟨not_le.1 h1, not_lt.1 h0, hk⟩⟩
          · rintro ⟨k, rfl, hk⟩
            cases k with
            | zero => exact absurd (nearUnit_cons_zero.1 hk).1 h1
            | succ k => exact ⟨k, by omega, (nearUnit_cons_succ.1 hk).2.2⟩

theorem unitRow?_eq_some_iff : t.unitRow? j = some (r + 1) ↔ NearUnit t.tol (t.column j) (r + 1) := by
  rw [unitRow?]
  rw [Option.filter_eq_some_iff, unitFrom_eq_some_iff]
  constructor
  · rintro ⟨⟨k, hk, hu⟩, -⟩
    rw [Nat.zero_add] at hk
    rwa [hk]
  · intro hu
    exact ⟨⟨r + 1, by omega, hu⟩, by simp⟩

theorem UnitIn.unitRow? (h : t.UnitIn r c) (h0 : 0 ≤ t.tol) (h1 : t.tol < 1)
    (hr : r < t.rows.length) : t.unitRow? c = some (r + 1) := by
  obtain ⟨-, hobj, hcol⟩ := h
  rw [unitRow?_eq_some_iff, column, nearUnit_cons_succ, hobj, zero_sub, abs_neg, abs_one, abs_zero]
  refine ⟨h1, h0, ⟨1, ?_, ?_⟩, ?_, ?_⟩
  · have hb := List.getElem?_eq_getElem hr
    rw [List.getElem?_map, hb, Option.map_some, hcol r _ hb, if_pos rfl]
  · rwa [sub_self, abs_zero]
  · intro k hk a ha
    rw [List.getElem?_map, Option.map_eq_some_iff] at ha
    obtain ⟨b, hb, rfl⟩ := ha
    rwa [hcol k b hb, if_neg hk.ne, zero_sub, abs_neg, abs_one]
  · intro k hk a ha
    rw [List.getElem?_map, Option.map_eq_some_iff] at ha
    obtain ⟨b, hb, rfl⟩ := ha
    rwa [hcol k b hb, if_neg hk, abs_zero]

theorem cell_pos_of_unitRow? (h1 : t.tol < 1) (hb : t.rows[r]? = some b)
    (hj : t.unitRow? j = some (r + 1)) : 0 < b.row.cell j := by
  rw [unitRow?_eq_some_iff, column, nearUnit_cons_succ] at hj
  obtain ⟨-, -, ⟨a, ha, hone⟩, -⟩ := hj
  rw [List.getElem?_map, hb, Option.map_some, Option.some.injEq] at ha
  subst ha
  have hlt := (abs_lt.1 (hone.trans_lt h1)).1
  linarith

theorem unitIn_detectBasis : t.detectBasis.UnitIn r c ↔ t.UnitIn r c := by
  refine and_congr Iff.rfl (and_congr Iff.rfl (forall_congr' fun k => ?_))
  simp only [detectBasis, List.getElem?_mapIdx, Option.map_eq_some_iff, forall_exists_index,
    and_imp]
  constructor
  · intro h b hb
    have hcell := h _ b hb rfl
    exact hcell
  · rintro h _ b hb rfl
    exact h b hb

theorem find?_units_eq_some_iff (f : ℕ → Option ℕ) (n m c : ℕ) :
    ((((List.range n).map f).zipIdx.reverse.find? fun u => u.1 == some m).map (·.2)) = some c ↔
      c < n ∧ f c = some m ∧ ∀ j, c < j → j < n → f j ≠ some m := by
  induction n with
  | zero => simp
  | succ n ih =>
      -- From the end, column `n` is the first one looked at.
      have hsplit : ((List.range (n + 1)).map f).zipIdx.reverse =
          (f n, n) :: ((List.range n).map f).zipIdx.reverse := by
        simp [List.range_succ, List.zipIdx_append]
      rw [hsplit, List.find?_cons]
      by_cases hn : f n = some m
      · simp only [hn, beq_self_eq_true, Option.map_some, Option.some.injEq]
        constructor
        · rintro rfl
          exact ⟨Nat.lt_succ_self _, hn, fun j hj hlt => absurd hlt (by omega)⟩
        · rintro ⟨hc, -, hlast⟩
          by_contra hne
          exact hlast n (by omega) (Nat.lt_succ_self n) hn
      · simp only [beq_eq_false_iff_ne.2 hn, ih]
        constructor
        · rintro ⟨hc, hf, hlast⟩
          refine ⟨hc.trans (Nat.lt_succ_self n), hf, fun j hj hlt => ?_⟩
          rcases Nat.lt_succ_iff_lt_or_eq.1 hlt with hlt | rfl
          · exact hlast j hj hlt
          · exact hn
        · rintro ⟨hc, hf, hlast⟩
          refine ⟨?_, hf, fun j hj hlt => hlast j hj (hlt.trans (Nat.lt_succ_self n))⟩
          rcases Nat.lt_succ_iff_lt_or_eq.1 hc with hlt | rfl
          · exact hlt
          · exact absurd hf hn

theorem basic_detectBasis_eq_some_iff (hb : t.detectBasis.rows[r]? = some b) :
    b.basic = some c ↔ c < t.width ∧ t.unitRow? c = some (r + 1) ∧
      ∀ j, c < j → j < t.width → t.unitRow? j ≠ some (r + 1) := by
  simp only [detectBasis, List.getElem?_mapIdx, Option.map_eq_some_iff] at hb
  obtain ⟨d, -, rfl⟩ := hb
  exact find?_units_eq_some_iff t.unitRow? t.width (r + 1) c

theorem basic_detectBasis (h0 : 0 ≤ t.tol) (h1 : t.tol < 1) {d : BasicRow ℚ}
    (hd : t.rows[r]? = some d) (hb : t.detectBasis.rows[r]? = some b) (hc : t.UnitIn r c)
    (hafter : ∀ j, c < j → j < t.width → d.row.cell j ≤ 0) : b.basic = some c := by
  refine (basic_detectBasis_eq_some_iff hb).2 ⟨hc.1, ?_, ?_⟩
  · exact hc.unitRow? h0 h1 (List.getElem?_eq_some_iff.1 hd).1
  · intro j hj hlt hu
    exact absurd (cell_pos_of_unitRow? h1 hd hu) (not_lt.2 (hafter j hj hlt))

/-- Column `c` is a unit vector with its 1 in row `r`, which is nowhere positive after it, and it is
cleared from the objective row `o`. -/
structure LastUnit (o : Row ℚ) (rows : List (Row ℚ)) (r c : ℕ) : Prop where
  lt : c < o.width
  objective : o.cell c = 0
  column : ∀ k row, rows[k]? = some row → row.cell c = if k = r then 1 else 0
  after : ∀ row, rows[r]? = some row → ∀ j, c < j → j < o.width → row.cell j ≤ 0

variable {labels : List String} {o : Row ℚ} {rows : List (Row ℚ)} {x : ℕ → ℚ}

theorem map_row_ofRows {α : Type} [Scalar α] (labels : List String) {o : Row α}
    {rows : List (Row α)} (tol : α) (hw : ∀ r ∈ rows, r.width = o.width) :
    (ofRows labels o rows tol).rows.map (·.row) = rows := by
  apply List.ext_getElem?
  intro k
  simp only [ofRows, detectBasis, List.getElem?_map, List.getElem?_mapIdx, Option.map_map]
  cases hk : rows[k]? with
  | none => rfl
  | some r =>
      have hr := hw r (List.mem_of_getElem? hk)
      simp only [Option.map_some, Function.comp_apply, ← hr, Row.fit_width]

theorem solves_ofRows (hw : ∀ r ∈ rows, r.width = o.width) :
    (ofRows labels o rows tol).Solves x ↔ ∀ r ∈ rows, r.residual x = 0 := by
  conv_rhs => rw [← map_row_ofRows labels tol hw]
  rw [List.forall_mem_map]
  exact Iff.rfl

theorem LastUnit.basic {tol : ℚ} (h0 : 0 ≤ tol) (h1 : tol < 1)
    (hw : ∀ r ∈ rows, r.width = o.width) (h : LastUnit o rows r c)
    (hb : (ofRows labels o rows tol).rows[r]? = some b) :
    b.basic = some c ∧ (ofRows labels o rows tol).UnitIn r c := by
  have hfit (k : ℕ) (d : BasicRow ℚ)
      (hd : (rows.map fun r => (⟨none, r.fit o.width⟩ : BasicRow ℚ))[k]? = some d) :
      rows[k]? = some d.row := by
    rw [List.getElem?_map, Option.map_eq_some_iff] at hd
    obtain ⟨r, hr, rfl⟩ := hd
    rw [hr, ← hw r (List.mem_of_getElem? hr), Row.fit_width]
  have hd := hb
  simp only [ofRows, detectBasis, List.getElem?_mapIdx, Option.map_eq_some_iff] at hd
  obtain ⟨d, hd, -⟩ := hd
  refine ⟨basic_detectBasis h0 h1 hd hb ?_ (h.after d.row (hfit r d hd)), unitIn_detectBasis.2 ?_⟩
  all_goals exact ⟨h.lt, h.objective, fun k d hd => h.column k d.row (hfit k d hd)⟩

theorem LastUnit.basis {tol : ℚ} (h0 : 0 ≤ tol) (h1 : tol < 1)
    (hw : ∀ r ∈ rows, r.width = o.width) (h : LastUnit o rows r c)
    (hr : r < (ofRows labels o rows tol).rows.length) :
    (ofRows labels o rows tol).basis[r]? = some (some c) := by
  have hb := List.getElem?_eq_getElem hr
  rw [Tableau.basis, List.getElem?_map, hb, Option.map_some, (h.basic h0 h1 hw hb).1]

/-- The rows start with a unit basis if each has a unit column after which it is nowhere positive. -/
theorem hasUnitBasis_ofRows {tol : ℚ} (h0 : 0 ≤ tol) (h1 : tol < 1)
    (hw : ∀ r ∈ rows, r.width = o.width)
    (hu : ∀ r < rows.length, ∃ c, LastUnit o rows r c) :
    (ofRows labels o rows tol).HasUnitBasis := by
  intro r b hb
  have hr := (List.getElem?_eq_some_iff.1 hb).1
  rw [← List.length_map (·.row), map_row_ofRows labels tol hw] at hr
  obtain ⟨c, hc⟩ := hu r hr
  exact ⟨c, hc.basic h0 h1 hw hb⟩

theorem rhsNonneg_ofRows (hw : ∀ r ∈ rows, r.width = o.width) (hn : ∀ r ∈ rows, 0 ≤ r.rhs) :
    (ofRows labels o rows tol).RhsNonneg := by
  intro b hb
  have hm : b.row ∈ (ofRows labels o rows tol).rows.map (·.row) := List.mem_map_of_mem hb
  rw [map_row_ofRows labels tol hw] at hm
  exact hn b.row hm

end Tableau

end LinProg
