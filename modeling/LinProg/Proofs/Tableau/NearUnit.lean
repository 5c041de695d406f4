import Mathlib.Order.Bounds.Defs
import LinProg.Proofs.Tableau.Lookup

namespace LinProg.Tableau

structure DistinctBasis {α : Type} (t : Tableau α) : Prop where
  lt : ∀ r c : ℕ, t.basis[r]? = some (some c) → c < t.width
  unique : ∀ r k c : ℕ, t.basis[r]? = some (some c) → t.basis[k]? = some (some c) → r = k

/-- Up to the tolerance, column `c` is a unit vector with its 1 in constraint row `r`. -/
structure NearUnitIn (t : Tableau ℚ) (r c : ℕ) : Prop where
  lt : c < t.width
  one : ∃ b, t.rows[r]? = some b ∧ |b.row.cell c - 1| ≤ t.tol
  objective : |t.objective.cell c| ≤ t.tol
  zero : ∀ k b, k ≠ r → t.rows[k]? = some b → |b.row.cell c| ≤ t.tol

variable {t : Tableau ℚ} {a tol : ℚ} {r k c : ℕ} {basic : Option ℕ}

theorem lt_abs_sub_one (h : tol < 1 / 2) (ha : |a| ≤ tol) : tol < |a - 1| := by
  have hle := le_abs_self a
  have hone := neg_le_abs (a - 1)
  linarith

theorem NearUnitIn.unique (h1 : t.tol < 1 / 2) (hr : t.NearUnitIn r c) (hk : t.NearUnitIn k c) :
    r = k := by
  by_contra hne
  obtain ⟨b, hb, hone⟩ := hr.one
  exact absurd hone (not_le.2 (lt_abs_sub_one h1 (hk.zero r b hne hb)))

theorem nearUnit_column_iff (h1 : t.tol < 1 / 2) (hc : c < t.width) :
    NearUnit t.tol (t.column c) (r + 1) ↔ t.NearUnitIn r c := by
  have hget (k : ℕ) (a : ℚ) : (t.column c)[k + 1]? = some a ↔
      ∃ b, t.rows[k]? = some b ∧ b.row.cell c = a := by
    rw [column, List.getElem?_cons_succ, List.getElem?_map, Option.map_eq_some_iff]
  constructor
  · rintro ⟨⟨a, ha, hone⟩, -, hzero⟩
    obtain ⟨b, hb, rfl⟩ := (hget r a).1 ha
    refine ⟨hc, ⟨b, hb, hone⟩, hzero 0 r.succ_ne_zero.symm _ rfl, fun k d hk hd => ?_⟩
    exact hzero (k + 1) (fun he => hk (Nat.succ.inj he)) _ ((hget k _).2 ⟨d, hd, rfl⟩)
  · rintro ⟨-, ⟨b, hb, hone⟩, hobj, hzero⟩
    have hother (i : ℕ) (hi : i ≠ r + 1) (a : ℚ) (ha : (t.column c)[i]? = some a) :
        |a| ≤ t.tol := by
      cases i with
      | zero => cases ha; exact hobj
      | succ k =>
          obtain ⟨d, hd, rfl⟩ := (hget k a).1 ha
          exact hzero k d (fun he => hi (he ▸ rfl)) hd
    refine ⟨⟨_, (hget r _).2 ⟨b, hb, rfl⟩, hone⟩, fun i hi a ha => ?_, hother⟩
    exact lt_abs_sub_one h1 (hother i hi.ne a ha)

theorem unitRow?_iff_nearUnitIn (h1 : t.tol < 1 / 2) (hc : c < t.width) :
    t.unitRow? c = some (r + 1) ↔ t.NearUnitIn r c :=
  unitRow?_eq_some_iff.trans (nearUnit_column_iff h1 hc)

theorem isGreatest_of_detectBasis (h1 : t.tol < 1 / 2)
    (h : t.detectBasis.basis[r]? = some basic) :
    basic = some c ↔ IsGreatest {c | t.NearUnitIn r c} c := by
  rw [basis, List.getElem?_map, Option.map_eq_some_iff] at h
  obtain ⟨b, hb, rfl⟩ := h
  rw [basic_detectBasis_eq_some_iff hb]
  constructor
  · rintro ⟨hc, hu, hlast⟩
    refine ⟨(unitRow?_iff_nearUnitIn h1 hc).1 hu, fun j hj => ?_⟩
    by_contra hlt
    exact hlast j (not_le.1 hlt) hj.lt ((unitRow?_iff_nearUnitIn h1 hj.lt).2 hj)
  · rintro ⟨hc, hlast⟩
    refine ⟨hc.lt, (unitRow?_iff_nearUnitIn h1 hc.lt).2 hc, fun j hlt hj hu => ?_⟩
    exact absurd (hlast ((unitRow?_iff_nearUnitIn h1 hj).1 hu)) (not_le.2 hlt)

theorem none_of_detectBasis (h1 : t.tol < 1 / 2) (h : t.detectBasis.basis[r]? = some basic) :
    basic = none ↔ ∀ c, ¬ t.NearUnitIn r c := by
  rw [basis_detectBasis, List.getElem?_map, Option.map_eq_some_iff] at h
  obtain ⟨k, hk, rfl⟩ := h
  obtain ⟨hr, hk⟩ := List.getElem?_eq_some_iff.1 hk
  rw [List.getElem_range] at hk
  subst hk
  rw [List.find?_eq_none]
  constructor
  · intro hn c hc
    refine hn c (List.mem_reverse.2 (List.mem_range.2 hc.lt)) ?_
    exact beq_iff_eq.2 ((unitRow?_iff_nearUnitIn h1 hc.lt).2 hc)
  · intro hn c hc hu
    have hc := List.mem_range.1 (List.mem_reverse.1 hc)
    exact hn c ((unitRow?_iff_nearUnitIn h1 hc).1 (beq_iff_eq.1 hu))

theorem detectBasis?_rowless (n : ℕ) (tol : ℚ) :
    Grid.detectBasis? ⟨n, [], [], tol⟩ = some ⟨n, [], [], tol⟩ := by
  have hscan (l : List ℕ) : l.foldlM (Grid.detect? ⟨n, [], [], tol⟩) [] = some [] := by
    induction l with
    | nil => rfl
    | cons j l ih => exact ih
  exact congrArg (Option.bind · _) (hscan _)

/-- The basis that is found has in each row the last column that counts as a unit vector with its 1
there, and none where there is no such column. -/
theorem nearUnits_of_detectBasis (t : Tableau ℚ) (h1 : t.tol < 1 / 2) :
    t.detectBasis.basis.length = t.rows.length ∧
    (∀ r basic, t.detectBasis.basis[r]? = some basic →
      (∀ c, basic = some c ↔ IsGreatest {c | t.NearUnitIn r c} c) ∧
      (basic = none ↔ ∀ c, ¬ t.NearUnitIn r c)) ∧
    t.detectBasis.DistinctBasis ∧ some t.width ∉ t.detectBasis.basis ∧
    t.grid.detectBasis? = some t.detectBasis.grid ∧
    ∀ n, Grid.detectBasis? ⟨n, [], [], t.tol⟩ = some ⟨n, [], [], t.tol⟩ := by
  have hunit (r c : ℕ) (h : t.detectBasis.basis[r]? = some (some c)) : t.NearUnitIn r c :=
    ((isGreatest_of_detectBasis h1 h).1 rfl).1
  refine ⟨?_, fun r basic h => ⟨fun c => ?_, none_of_detectBasis h1 h⟩, ⟨?_, ?_⟩, fun h => ?_,
    t.detectBasis?_grid, fun n => detectBasis?_rowless n t.tol⟩
  · rw [basis_detectBasis, List.length_map, List.length_range]
  · exact isGreatest_of_detectBasis h1 h
  · exact fun r c h => (hunit r c h).lt
  · exact fun r k c hr hk => (hunit r c hr).unique h1 (hunit k c hk)
  · obtain ⟨r, hr⟩ := List.getElem?_of_mem h
    exact absurd (hunit r t.width hr).lt (lt_irrefl _)

def blurred : Tableau ℚ where
  labels := ["x", "s", "w"]
  objective := ⟨[0, 0, 1 / 8], 0⟩
  rows := [⟨none, ⟨[1, 9 / 10, 1 / 8], 1⟩⟩, ⟨none, ⟨[0, 1 / 8, 7 / 8], 2⟩⟩,
    ⟨none, ⟨[1 / 4, 0, 1 / 4], 1⟩⟩]
  tol := 1 / 4
  aligned := by simp [Row.width]

theorem nearUnits_of_detectBasis_blurred :
    blurred.tol < 1 / 2 ∧ blurred.detectBasis.basis = [some 1, some 2, none] ∧
      IsGreatest {c | blurred.NearUnitIn 0 c} 1 ∧ ∀ c, ¬ blurred.NearUnitIn 2 c := by
  have h1 : blurred.tol < 1 / 2 := by norm_num [blurred]
  have hbasis : blurred.detectBasis.basis = [some 1, some 2, none] := by decide +kernel
  have hfound := (nearUnits_of_detectBasis blurred h1).2.1
  exact ⟨h1, hbasis, ((hfound 0 (some 1) (by rw [hbasis]; rfl)).1 1).1 rfl,
    (hfound 2 none (by rw [hbasis]; rfl)).2.1 rfl⟩

end LinProg.Tableau
