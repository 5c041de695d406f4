import Mathlib.Order.Bounds.Defs
import LinProg.Proofs.Tableau.Choice

namespace LinProg.Tableau

def steepest (t : Tableau ℚ) : Set ℕ :=
  {j | j < t.width ∧ ∀ i < t.width, t.objective.cell j ≤ t.objective.cell i}

/-- The rows of the least ratio in column `j`, among those with an entry above the tolerance. -/
def tightest (t : Tableau ℚ) (j : ℕ) : Set ℕ :=
  {r | ∃ b, t.rows[r]? = some b ∧ t.tol < b.row.cell j ∧
    ∀ c ∈ t.rows, t.tol < c.row.cell j → b.ratio j ≤ c.ratio j}

variable {t : Tableau ℚ} {i j r : ℕ}

theorem isLeast_entering (h : 0 < t.width) : IsLeast t.steepest t.entering := by
  obtain ⟨m, hm⟩ := firstLeast_entering h
  have hlt := entering_lt h
  refine ⟨⟨hlt, fun i hi => cell_entering_le hi⟩, fun k hk => ?_⟩
  by_contra hbefore
  have hleast := hm.lt k (not_le.1 hbefore) _ (Row.getElem?_coeffs _ hk.1)
  have hget := hm.get
  rw [Row.getElem?_coeffs _ hlt] at hget
  rw [← Option.some.inj hget] at hleast
  exact absurd (hk.2 t.entering hlt) (not_le.2 hleast)

theorem leaving_eq_none_iff : t.leaving j = none ↔ t.isUnbounded j := by
  rw [isUnbounded_iff]
  refine ⟨le_of_leaving_eq_none, fun h => ?_⟩
  have hs := leastRatio_rows t j
  rw [leaving]
  generalize leastRatioFrom t.tol j 1 none t.rows = best at hs ⊢
  cases hs with
  | absent => rfl
  | found row entry => exact absurd (h _ (List.mem_of_getElem? row)) (not_le.2 entry)

theorem isLeast_of_leaving (h : t.leaving j = some i) :
    ∃ r, i = r + 1 ∧ IsLeast (t.tightest j) r := by
  have hs := leastRatio_rows t j
  rw [leaving] at h
  generalize leastRatioFrom t.tol j 1 none t.rows = best at hs h
  cases hs with
  | absent => cases h
  | @found r b row entry le lt =>
      obtain rfl := Option.some.inj h
      refine ⟨r, rfl, ⟨b, row, entry, le⟩, ?_⟩
      rintro k ⟨c, hc, hcj, hleast⟩
      by_contra hbefore
      have hlt := lt k (not_le.1 hbefore) c hc hcj
      exact absurd (hleast b (List.mem_of_getElem? row) entry) (not_le.2 hlt)

theorem exists_pivot_of_tightest (hr : r ∈ t.tightest j) (hj : j < t.width) :
    ∃ u, t.pivot (r + 1) j = .ok u := by
  obtain ⟨b, hb, hent, -⟩ := hr
  exact exists_pivot hb hj (hent.trans_le (le_abs_self _))

/-- The column to enter is the first of the least coefficient, the row to leave the first of the
least ratio; there is no such row just where growth is not limited, and the pivot that is chosen is
not refused. -/
theorem first_of_least (t : Tableau ℚ) :
    (t.isOptimal = false →
      IsLeast t.steepest t.entering ∧ t.objective.cell t.entering < -t.tol) ∧
    ∀ j < t.width,
      (t.leaving j = none ↔ t.isUnbounded j = true) ∧
      (t.isUnbounded j = false → ∃ r, t.leaving j = some (r + 1) ∧ IsLeast (t.tightest j) r ∧
        ∃ u, t.pivot (r + 1) j = .ok u) := by
  refine ⟨fun h => ?_, fun j hj => ⟨leaving_eq_none_iff, fun h => ?_⟩⟩
  · obtain ⟨hlt, hneg⟩ := entering_of_not_isOptimal (Bool.eq_false_iff.1 h)
    exact ⟨isLeast_entering ((Nat.zero_le _).trans_lt hlt), hneg⟩
  · have hsome : t.leaving j ≠ none := fun hn => by
      rw [leaving_eq_none_iff.1 hn] at h
      cases h
    obtain ⟨i, hi⟩ := Option.ne_none_iff_exists'.1 hsome
    obtain ⟨r, rfl, hr⟩ := isLeast_of_leaving hi
    exact ⟨r, hi, hr, exists_pivot_of_tightest hr.1 hj⟩

def tied : Tableau ℚ where
  labels := ["x", "y", "z"]
  objective := ⟨[-1, -2, -2], 0⟩
  rows := [⟨none, ⟨[0, 1, 1], 9⟩⟩, ⟨none, ⟨[0, 2, 0], 4⟩⟩, ⟨none, ⟨[1, 1, 0], 2⟩⟩]
  tol := 1 / 2
  aligned := by simp [Row.width]

theorem first_of_least_tied :
    (tied.isOptimal = false ∧ IsLeast tied.steepest 1) ∧
    (1 < tied.width ∧ tied.isUnbounded 1 = false) ∧ IsLeast (tied.tightest 1) 1 ∧
    ∃ u, tied.pivot 2 1 = .ok u := by
  have hopt : tied.isOptimal = false := by decide +kernel
  have hbound : tied.isUnbounded 1 = false := by decide +kernel
  have hent : tied.entering = 1 := by decide +kernel
  have hleave : tied.leaving 1 = some 2 := by decide +kernel
  have hj : 1 < tied.width := by simp [tied, width, Row.width]
  obtain ⟨henter, hlimit⟩ := first_of_least tied
  obtain ⟨r, hr, hleast, hpivot⟩ := (hlimit 1 hj).2 hbound
  obtain rfl : r = 1 := by rw [hleave] at hr; exact (Nat.succ.inj (Option.some.inj hr)).symm
  exact ⟨⟨hopt, hent ▸ (henter hopt).1⟩, ⟨hj, hbound⟩, hleast, hpivot⟩

end LinProg.Tableau
