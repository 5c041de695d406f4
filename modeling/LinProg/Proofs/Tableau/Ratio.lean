import LinProg.Proofs.Tableau.Ascent

namespace LinProg.Tableau

variable {t u : Tableau ℚ} {n : ℕ}

/-- The row to pivot in has the least ratio of all rows with a positive entry, those included whose
entry counts as 0. -/
def PicksLeast (t : Tableau ℚ) : Prop :=
  ∀ r j, t.move = .pivot (r + 1) j → ∀ b ∈ t.rows[r]?,
    ∀ c ∈ t.rows, 0 < c.row.cell j → b.ratio j ≤ c.ratio j

theorem picksLeast_iff {r j : ℕ} (hm : t.move = .pivot (r + 1) j) : t.PicksLeast ↔
    ∀ b ∈ t.rows[r]?, ∀ c ∈ t.rows, 0 < c.row.cell j → b.ratio j ≤ c.ratio j := by
  constructor
  · intro h
    exact h r j hm
  · intro h r' j' hm'
    rw [hm] at hm'
    cases hm'
    exact h

instance : DecidablePred PicksLeast := fun t =>
  match hm : t.move with
  | .pivot (_ + 1) _ => decidable_of_iff _ (picksLeast_iff hm).symm
  | .pivot 0 _ | .optimal | .unbounded => isTrue fun _ _ h => by
      rw [hm] at h
      cases h

theorem picksLeast_of_exact (h : t.tol = 0) : t.PicksLeast := by
  intro r j hm b hb c hc hpos
  have hs := t.shows_move
  rw [hm] at hs
  cases hs with
  | pivot _ _ _ row _ ratio =>
      obtain rfl := Option.some.inj (row.symm.trans hb)
      exact ratio c hc (h ▸ hpos)

theorem Advances.rhsNonneg (h : t.Advances u) (ht : t.Based) (hp : t.PicksLeast)
    (hn : t.RhsNonneg) : u.RhsNonneg := by
  obtain ⟨i, j, hm, hu⟩ := h
  have hs := t.shows_move
  rw [hm] at hs
  cases hs with
  | pivot _ _ _ row entry _ =>
      exact (exchanged_of_row ht.tol_nonneg row hu).rhsNonneg hn (ht.tol_nonneg.trans_lt entry)
        (hp _ _ hm _ row)

theorem rhsNonneg_of_reaches (h : Relation.ReflTransGen Advances t u) (ht : t.Based)
    (hn : t.RhsNonneg) (hp : ∀ v, Relation.ReflTransGen Advances t v → v.PicksLeast) :
    u.RhsNonneg := by
  induction h with
  | refl => exact hn
  | tail hr hstep ih => exact hstep.rhsNonneg (based_of_reaches hr ht).1 (hp _ hr) ih

theorem tol_of_reaches (h : Relation.ReflTransGen Advances t u) (ht : t.Based) : u.tol = t.tol := by
  induction h with
  | refl => rfl
  | tail hr hstep ih =>
      obtain ⟨r, j, b, hx, -⟩ := hstep.exchanged (based_of_reaches hr ht).1.tol_nonneg
      exact hx.tol.trans ih

theorem length_rows_of_reaches (h : Relation.ReflTransGen Advances t u) :
    u.rows.length = t.rows.length := by
  induction h with
  | refl => rfl
  | tail _ hstep ih =>
      obtain ⟨i, j, -, hp⟩ := hstep
      rw [length_rows_of_pivot hp, ih]

def trail : ℕ → Tableau ℚ → List (Tableau ℚ)
  | 0, t => [t]
  | n + 1, t => t :: match t.move with
    | .pivot i j => match t.pivot i j with
      | .ok u => trail n u
      | .error _ => []
    | _ => []

theorem mem_trail_of_reaches (h : (t.ascend n).halt ≠ .exhausted)
    (hr : Relation.ReflTransGen Advances t u) : u ∈ t.trail n := by
  induction n generalizing t with
  | zero =>
      rcases hr.cases_head with rfl | ⟨v, ⟨i, j, hm, -⟩, -⟩
      · exact List.mem_cons_self
      · rw [ascend_of_stops (.exhausted ⟨i, j, hm⟩)] at h
        exact absurd rfl h
  | succ n ih =>
      rcases hr.cases_head with rfl | ⟨v, ⟨i, j, hm, hp⟩, hr⟩
      · exact List.mem_cons_self
      · rw [ascend_of_pivot hm hp] at h
        rw [trail]
        simp only [hm, hp]
        exact List.mem_cons_of_mem _ (ih h hr)

end LinProg.Tableau
