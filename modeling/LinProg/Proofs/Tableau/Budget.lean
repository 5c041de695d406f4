import Mathlib.Data.Nat.Notation
import Mathlib.Logic.Relation
import LinProg.Proofs.Tableau.Pivot

namespace LinProg.Tableau

variable {α : Type} [Scalar α]

def Advances (t u : Tableau α) : Prop := ∃ i j, t.move = .pivot i j ∧ t.pivot i j = .ok u

def WantsPivot (t : Tableau α) : Prop := ∃ i j, t.move = .pivot i j

/-- The first `n` pivots of an ascent without a budget lead from `t` to `u`. -/
inductive Climbs : ℕ → Tableau α → Tableau α → Prop
  | stay (t : Tableau α) : Climbs 0 t t
  | pivot {n : ℕ} {t u v : Tableau α} (step : t.Advances u) (rest : Climbs n u v) :
      Climbs (n + 1) t v

/-- Why an ascent stops at `t` when `left` pivots of its budget are left. -/
inductive Stops (t : Tableau α) : ℕ → Halt → Prop
  | optimal {left : ℕ} (move : t.move = .optimal) : Stops t left .optimal
  | unbounded {left : ℕ} (move : t.move = .unbounded) : Stops t left .unbounded
  | exhausted (wants : t.WantsPivot) : Stops t 0 .exhausted
  | refused {left i j : ℕ} {f : Fault} (move : t.move = .pivot i j)
      (pivot : t.pivot i j = .error f) : Stops t (left + 1) (.refused f)

variable {t u v : Tableau α} {i j k left m n : ℕ} {halt : Halt} {step : PivotStep α}

theorem Climbs.tail (h : Climbs n t u) (step : u.Advances v) : Climbs (n + 1) t v := by
  induction h with
  | stay t => exact .pivot step (.stay v)
  | pivot first _ ih => exact .pivot first (ih step)

theorem Climbs.reaches (h : Climbs n t u) : Relation.ReflTransGen Advances t u := by
  induction h with
  | stay t => exact .refl
  | pivot step _ ih => exact ih.head step

theorem Climbs.of_lt (h : Climbs n t u) (hmn : m < n) : ∃ v, Climbs m t v ∧ v.WantsPivot := by
  induction h generalizing m with
  | stay => cases hmn
  | pivot step _ ih =>
      cases m with
      | zero =>
          obtain ⟨i, j, hm, -⟩ := step
          exact ⟨_, .stay _, i, j, hm⟩
      | succ m =>
          obtain ⟨v, hc, hw⟩ := ih (Nat.lt_of_succ_lt_succ hmn)
          exact ⟨v, .pivot step hc, hw⟩

theorem exists_stops_zero (t : Tableau α) : ∃ halt, t.Stops 0 halt := by
  cases hm : t.move with
  | optimal => exact ⟨_, .optimal hm⟩
  | unbounded => exact ⟨_, .unbounded hm⟩
  | pivot i j => exact ⟨_, .exhausted ⟨i, j, hm⟩⟩

theorem stops_or_pivots (n : ℕ) (t : Tableau α) : (∃ halt, t.Stops (n + 1) halt) ∨
    ∃ i j u, t.move = .pivot i j ∧ t.pivot i j = .ok u := by
  cases hm : t.move with
  | optimal => exact .inl ⟨_, .optimal hm⟩
  | unbounded => exact .inl ⟨_, .unbounded hm⟩
  | pivot i j =>
      cases hp : t.pivot i j with
      | error f => exact .inl ⟨_, .refused hm hp⟩
      | ok u => exact .inr ⟨i, j, u, rfl, hp⟩

theorem ascendFrom_of_stops (h : t.Stops n halt) (done : List (PivotStep α)) :
    ascendFrom done n t = ⟨done.reverse, t, halt⟩ := by
  unfold ascendFrom
  cases h with
  | optimal move | unbounded move => simp only [move]
  | exhausted wants =>
      obtain ⟨i, j, move⟩ := wants
      simp only [move]
  | refused move pivot => simp only [move, pivot]

theorem ascendFrom_of_pivot (hm : t.move = .pivot i j) (hp : t.pivot i j = .ok u)
    (done : List (PivotStep α)) :
    ascendFrom done (n + 1) t = ascendFrom (⟨i, j, u.value⟩ :: done) n u := by
  rw [ascendFrom.eq_def]
  simp only [hm, hp]

theorem ascendFrom_eq (done : List (PivotStep α)) (n : ℕ) (t : Tableau α) :
    ascendFrom done n t =
      ⟨done.reverse ++ (t.ascend n).steps, (t.ascend n).last, (t.ascend n).halt⟩ := by
  induction n generalizing done t with
  | zero =>
      obtain ⟨halt, hs⟩ := exists_stops_zero t
      rw [ascend, ascendFrom_of_stops hs, ascendFrom_of_stops hs, List.reverse_nil,
        List.append_nil]
  | succ n ih =>
      obtain ⟨halt, hs⟩ | ⟨i, j, u, hm, hp⟩ := stops_or_pivots n t
      · rw [ascend, ascendFrom_of_stops hs, ascendFrom_of_stops hs, List.reverse_nil,
          List.append_nil]
      · rw [ascend, ascendFrom_of_pivot hm hp, ascendFrom_of_pivot hm hp, ih, ih [_]]
        simp

theorem ascend_of_stops (h : t.Stops n halt) : t.ascend n = ⟨[], t, halt⟩ :=
  ascendFrom_of_stops h []

theorem ascend_of_pivot (hm : t.move = .pivot i j) (hp : t.pivot i j = .ok u) :
    t.ascend (n + 1) =
      ⟨⟨i, j, u.value⟩ :: (u.ascend n).steps, (u.ascend n).last, (u.ascend n).halt⟩ := by
  rw [ascend, ascendFrom_of_pivot hm hp, ascendFrom_eq]
  rfl

/-- An ascent makes the pivots that it lists, and stops for the reason that it gives. -/
theorem climbs_ascend (n : ℕ) (t : Tableau α) : ∃ left, (t.ascend n).steps.length + left = n ∧
    Climbs (t.ascend n).steps.length t (t.ascend n).last ∧
      (t.ascend n).last.Stops left (t.ascend n).halt := by
  induction n generalizing t with
  | zero =>
      obtain ⟨halt, hs⟩ := exists_stops_zero t
      rw [ascend_of_stops hs]
      exact ⟨0, rfl, .stay t, hs⟩
  | succ n ih =>
      obtain ⟨halt, hs⟩ | ⟨i, j, u, hm, hp⟩ := stops_or_pivots n t
      · rw [ascend_of_stops hs]
        exact ⟨n + 1, Nat.zero_add _, .stay t, hs⟩
      · rw [ascend_of_pivot hm hp]
        obtain ⟨left, hn, hc, hs⟩ := ih u
        exact ⟨left, by rw [List.length_cons]; omega, .pivot ⟨i, j, hm, hp⟩ hc, hs⟩

theorem Climbs.ascend_eq (h : Climbs k t u) (hs : u.Stops left halt) :
    ∃ steps, steps.length = k ∧ t.ascend (k + left) = ⟨steps, u, halt⟩ := by
  induction h with
  | stay t => exact ⟨[], rfl, by rw [Nat.zero_add, ascend_of_stops hs]⟩
  | @pivot k t u v step _ ih =>
      obtain ⟨i, j, hm, hp⟩ := step
      obtain ⟨steps, hl, he⟩ := ih hs
      refine ⟨⟨i, j, u.value⟩ :: steps, by rw [List.length_cons, hl], ?_⟩
      rw [Nat.add_right_comm, ascend_of_pivot hm hp, he]

theorem Climbs.le_of_not_exhausted (h : Climbs k t u) (hn : (t.ascend n).halt ≠ .exhausted) :
    k ≤ n := by
  refine Nat.le_of_not_lt fun hlt => hn ?_
  obtain ⟨v, hc, hw⟩ := h.of_lt hlt
  obtain ⟨steps, -, he⟩ := hc.ascend_eq (.exhausted hw)
  rw [Nat.add_zero] at he
  rw [he]

theorem climbs_of_getElem?_steps (h : (t.ascend n).steps[k]? = some step) :
    ∃ u v, Climbs k t u ∧ u.move = .pivot step.row step.col ∧
      u.pivot step.row step.col = .ok v ∧ v.value = step.value := by
  induction n generalizing t k with
  | zero =>
      obtain ⟨halt, hs⟩ := exists_stops_zero t
      rw [ascend_of_stops hs] at h
      cases h
  | succ n ih =>
      obtain ⟨halt, hs⟩ | ⟨i, j, u, hm, hp⟩ := stops_or_pivots n t
      · rw [ascend_of_stops hs] at h
        cases h
      · rw [ascend_of_pivot hm hp] at h
        cases k with
        | zero =>
            obtain rfl := Option.some.inj h
            exact ⟨t, u, .stay t, hm, hp, rfl⟩
        | succ k =>
            obtain ⟨v, w, hc, hv⟩ := ih h
            exact ⟨v, w, .pivot ⟨i, j, hm, hp⟩ hc, hv⟩

end LinProg.Tableau
