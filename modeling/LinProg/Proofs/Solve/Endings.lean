import LinProg.Proofs.Solve.Course

namespace LinProg

structure Solution.Records {α : Type} [Scalar α] (sol : Solution α) (p : Program α) : Prop where
  owner : sol.owner = p.id
  names : sol.names = p.names
  values : sol.values = sol.final.assignment
  optimum : sol.status = .infeasible → sol.optimum = .undefined

namespace Simplex

variable {α : Type} [Scalar α]

/-- The ways a solve may end, each at a tableau that its run comes to within the limit. -/
inductive Outcome (s : Simplex α) (p : Program α) : Except Fault (Solution α) → Prop
  | missing (objective : p.objective = none) : Outcome s p (.error .missingObjective)
  | exhausted {phase : Phase} {t : Tableau α} (run : p.Run s.tolerance phase s.limit t)
      (wants : t.WantsPivot) : Outcome s p (.error (.pivotLimit s.limit))
  | refused {phase : Phase} {n i j : ℕ} {t : Tableau α} {f : Fault}
      (run : p.Run s.tolerance phase n t) (lt : n < s.limit) (move : t.move = .pivot i j)
      (pivot : t.pivot i j = .error f) : Outcome s p (.error f)
  | unboundedPhaseOne {n : ℕ} {t : Tableau α} (run : p.Run s.tolerance .one n t) (le : n ≤ s.limit)
      (move : t.move = .unbounded) : Outcome s p (.error .unboundedPhaseOne)
  | infeasible {k : Canonical α} {q : Program α} {added : List (Var × ℕ)} {n : ℕ}
      {initial t : Tableau α} (starts : p.Starts s.tolerance .one initial)
      (run : p.Run s.tolerance .one n t) (le : n ≤ s.limit) (canonical : p.canonical? = .ok k)
      (artificials : k.withArtificials = .ok (q, added)) (move : t.move = .optimal)
      (positive : t.hasPositive (added.map (·.1.index))) :
      Outcome s p (.ok ⟨.infeasible, p.id, p.names, .undefined, t.assignment, initial, t⟩)
  | notRestored {k : Canonical α} {cols : List ℕ} {n : ℕ} {t : Tableau α} {f : Fault}
      (handsOver : s.HandsOver p k cols n t) (le : n ≤ s.limit)
      (restore : (t.restore k.program cols).result = .error f) : Outcome s p (.error f)
  | optimal {k : Canonical α} {first : Phase} {n : ℕ} {initial t : Tableau α}
      (starts : p.Starts s.tolerance first initial) (run : p.Run s.tolerance .two n t)
      (le : n ≤ s.limit) (canonical : p.canonical? = .ok k) (move : t.move = .optimal) :
      Outcome s p (.ok ⟨.optimal, p.id, p.names,
        .attained (if k.flipped then -t.value else t.value), t.assignment, initial, t⟩)
  | unbounded {k : Canonical α} {first : Phase} {n : ℕ} {initial t : Tableau α}
      (starts : p.Starts s.tolerance first initial) (run : p.Run s.tolerance .two n t)
      (le : n ≤ s.limit) (canonical : p.canonical? = .ok k) (move : t.move = .unbounded) :
      Outcome s p (.ok ⟨.unbounded, p.id, p.names,
        if k.flipped then .minusInfinity else .plusInfinity, t.assignment, initial, t⟩)

variable {s : Simplex α} {p : Program α} {k : Canonical α} {q : Program α}
variable {added : List (Var × ℕ)} {cols : List ℕ} {phase first : Phase} {m n : ℕ}
variable {initial t u : Tableau α} {halt : Halt} {f : Fault} {sol : Solution α}
variable {r : Except Fault (Solution α)}

theorem outcome_of_optimize (h : p.Run s.tolerance phase n t) (hn : n ≤ s.limit)
    (hf : (s.optimize n t).result = .error f) : s.Outcome p (.error f) := by
  obtain ⟨left, hlen, hc, hs⟩ := Tableau.climbs_ascend (s.limit - n) t
  have hrun := h.climbs hc
  rw [result_optimize] at hf
  generalize t.ascend (s.limit - n) = a at hlen hs hrun hf
  obtain ⟨steps, last, halt⟩ := a
  cases hs with
  | optimal | unbounded => cases hf
  | exhausted wants =>
      obtain rfl := Except.error.inj hf
      have hend : n + steps.length = s.limit := by
        dsimp only at hlen
        omega
      exact .exhausted (hend ▸ hrun) wants
  | refused move pivot =>
      obtain rfl := Except.error.inj hf
      refine .refused hrun ?_ move pivot
      dsimp only at hlen ⊢
      omega

theorem outcome_conclude (hk : p.canonical? = .ok k) (hi : p.Starts s.tolerance first initial)
    (h : p.Run s.tolerance .two n t) (hn : n ≤ s.limit) :
    s.Outcome p (s.conclude p k.flipped n initial t).result := by
  cases ha : (s.optimize n t).result with
  | error f =>
      rw [conclude_of_error ha]
      exact outcome_of_optimize h hn ha
  | ok a =>
      obtain ⟨hrun, hle, hstop⟩ := run_of_optimize h hn ha
      rw [conclude_of_ok ha]
      rcases hstop with ⟨hhalt, hmove⟩ | ⟨hhalt, hmove⟩
      · simp only [hhalt, reduceCtorEq, if_false]
        exact .optimal hi hrun hle hk hmove
      · rw [if_pos hhalt]
        exact .unbounded hi hrun hle hk hmove

theorem outcome_proceed (hk : p.canonical? = .ok k) (hq : k.withArtificials = .ok (q, added))
    (hi : p.Starts s.tolerance .one initial) (h : p.Run s.tolerance .one n t) (hn : n ≤ s.limit)
    (hm : halt = .optimal ∧ t.move = .optimal ∨ halt = .unbounded ∧ t.move = .unbounded) :
    s.Outcome p (s.proceed p k (added.map (·.1.index)) initial n halt t) := by
  rcases hm with ⟨rfl, hm⟩ | ⟨rfl, hm⟩
  · by_cases hpos : t.hasPositive (added.map (·.1.index))
    · rw [proceed_infeasible hpos]
      exact .infeasible hi h hn hk hq hm hpos
    · rw [proceed_restore hpos]
      cases hu : (t.restore k.program (added.map (·.1.index))).result with
      | error f => exact .notRestored (.intro h hk hq hm hpos) hn hu
      | ok u => exact outcome_conclude hk hi (h.restore hk hq hm hpos hu) hn
  · rw [proceed_unbounded]
    exact .unboundedPhaseOne h hn hm

theorem outcome_solve (s : Simplex α) (p : Program α) : s.Outcome p (s.solve p).result := by
  cases ho : p.objective with
  | none =>
      rw [solve, Logged.result_bind, Logged.result_lift, Program.canonical?_none ho]
      exact .missing ho
  | some o =>
      obtain ⟨k, hk, -⟩ := Program.canonical?_eq ho
      cases hn : k.needsPhaseOne with
      | false =>
          have hi : p.Starts s.tolerance .two (k.program.tableau s.tolerance) := .two hk hn
          rw [solve_direct hk hn]
          exact outcome_conclude hk hi (.start hi) (Nat.zero_le _)
      | true =>
          obtain ⟨q, added, hq, -⟩ := k.withArtificials_eq
          have hi : p.Starts s.tolerance .one (q.phaseOneTableau added s.tolerance) :=
            .one hk hn hq
          rw [solve_phaseOne hk hn hq]
          cases ha : (s.optimize 0 (q.phaseOneTableau added s.tolerance)).result with
          | error f => exact outcome_of_optimize (.start hi) (Nat.zero_le _) ha
          | ok a =>
              obtain ⟨hrun, hle, hm⟩ := run_of_optimize (.start hi) (Nat.zero_le _) ha
              rw [Nat.zero_add] at hrun hle
              exact outcome_proceed hk hq hi hrun hle hm

/-- What is left of a solve that has come to `t` after `n` pivots. -/
def resume (s : Simplex α) (p : Program α) (k : Canonical α) (cols : List ℕ)
    (initial : Tableau α) (n : ℕ) (t : Tableau α) : Phase → Except Fault (Solution α)
  | .one => (s.optimize n t).result >>= fun a =>
      s.proceed p k cols initial (n + a.steps.length) a.halt a.last
  | .two => (s.conclude p k.flipped n initial t).result

theorem optimize_of_optimal (hm : t.move = .optimal) :
    (s.optimize n t).result = .ok ⟨[], t, .optimal⟩ := by
  rw [result_optimize, Tableau.ascend_of_stops (.optimal hm), Ascent.verdict]

theorem optimize_of_unbounded (hm : t.move = .unbounded) :
    (s.optimize n t).result = .ok ⟨[], t, .unbounded⟩ := by
  rw [result_optimize, Tableau.ascend_of_stops (.unbounded hm), Ascent.verdict]

theorem optimize_of_wantsPivot (hw : t.WantsPivot) :
    (s.optimize s.limit t).result = .error (.pivotLimit s.limit) := by
  rw [result_optimize, Nat.sub_self, Tableau.ascend_of_stops (.exhausted hw), Ascent.verdict]

theorem optimize_of_refused {i j : ℕ} (hn : n < s.limit) (hm : t.move = .pivot i j)
    (hp : t.pivot i j = .error f) : (s.optimize n t).result = .error f := by
  rw [result_optimize, ← Nat.succ_pred_eq_of_pos (Nat.sub_pos_of_lt hn),
    Tableau.ascend_of_stops (.refused hm hp), Ascent.verdict]

theorem resume_of_error (h : (s.optimize n t).result = .error f) :
    s.resume p k cols initial n t phase = .error f := by
  cases phase with
  | one => rw [resume, h, error_bind]
  | two => exact conclude_of_error h p k.flipped initial

theorem resume_of_advances (h : t.Advances u) (hn : n < s.limit) :
    s.resume p k cols initial n t phase = s.resume p k cols initial (n + 1) u phase := by
  obtain ⟨i, j, hm, hp⟩ := h
  -- The ascent from `t` is that from `u` after one more pivot.
  have hopt : (s.optimize n t).result = (s.optimize (n + 1) u).result.map fun a =>
      ⟨⟨i, j, u.value⟩ :: a.steps, a.last, a.halt⟩ := by
    have hleft : s.limit - n = s.limit - (n + 1) + 1 := by omega
    rw [result_optimize, result_optimize, hleft, Tableau.ascend_of_pivot hm hp]
    obtain ⟨steps, last, halt⟩ := u.ascend (s.limit - (n + 1))
    cases halt with
    | optimal | unbounded | exhausted | refused => rfl
  cases hr : (s.optimize (n + 1) u).result with
  | error f => rw [resume_of_error hr, resume_of_error (by rw [hopt, hr]; rfl)]
  | ok a =>
      rw [hr] at hopt
      cases phase with
      | one =>
          rw [resume, resume, hr, hopt]
          change s.proceed p k cols initial (n + (a.steps.length + 1)) a.halt a.last = _
          rw [Nat.add_comm a.steps.length, ← Nat.add_assoc]
          rfl
      | two =>
          rw [resume, resume, conclude_of_ok hr, conclude_of_ok hopt]

/-- What is left of a solve is the same throughout its run. -/
theorem solve_eq_resume (h : p.Run s.tolerance phase n t) (hn : n ≤ s.limit)
    (hk : p.canonical? = .ok k) (hq : k.withArtificials = .ok (q, added))
    (hi : p.Starts s.tolerance first initial) :
    (s.solve p).result = s.resume p k (added.map (·.1.index)) initial n t phase := by
  induction h with
  | start starts =>
      obtain ⟨rfl, rfl⟩ := hi.unique starts
      cases starts with
      | one hk' needs hq' =>
          obtain rfl := Except.ok.inj (hk.symm.trans hk')
          obtain ⟨rfl, rfl⟩ := Prod.mk.inj (Except.ok.inj (hq.symm.trans hq'))
          rw [solve_phaseOne hk needs hq, resume]
          simp only [Nat.zero_add]
      | two hk' needs =>
          obtain rfl := Except.ok.inj (hk.symm.trans hk')
          exact solve_direct hk needs
  | pivot _ step ih => rw [ih (Nat.le_of_succ_le hn), resume_of_advances step hn]
  | restore _ hk' hq' move zero restore ih =>
      obtain rfl := Except.ok.inj (hk.symm.trans hk')
      obtain ⟨rfl, rfl⟩ := Prod.mk.inj (Except.ok.inj (hq.symm.trans hq'))
      rw [ih hn, resume, optimize_of_optimal move, ok_bind, proceed_restore zero, restore]
      rfl

theorem Outcome.result_eq (h : s.Outcome p r) : (s.solve p).result = r := by
  have hresume {phase : Phase} {n : ℕ} {t : Tableau α} {f : Fault}
      (hrun : p.Run s.tolerance phase n t) (hn : n ≤ s.limit)
      (hf : (s.optimize n t).result = .error f) : (s.solve p).result = .error f := by
    obtain ⟨first, initial, hi⟩ := hrun.starts
    obtain ⟨k, hk, q, added, hq⟩ := hi.canonical
    rw [solve_eq_resume hrun hn hk hq hi, resume_of_error hf]
  cases h with
  | missing objective =>
      rw [solve, Logged.result_bind, Logged.result_lift, Program.canonical?_none objective]
      rfl
  | exhausted run wants => exact hresume run le_rfl (optimize_of_wantsPivot wants)
  | refused run lt move pivot => exact hresume run lt.le (optimize_of_refused lt move pivot)
  | unboundedPhaseOne run le move =>
      obtain ⟨first, initial, hi⟩ := run.starts
      obtain ⟨k, hk, q, added, hq⟩ := hi.canonical
      rw [solve_eq_resume run le hk hq hi, resume, optimize_of_unbounded move, ok_bind,
        proceed_unbounded]
  | infeasible starts run le hk hq move positive =>
      rw [solve_eq_resume run le hk hq starts, resume, optimize_of_optimal move, ok_bind,
        proceed_infeasible positive]
  | notRestored handsOver le restore =>
      cases handsOver with
      | intro run hk hq move zero =>
          obtain ⟨first, initial, hi⟩ := run.starts
          rw [solve_eq_resume run le hk hq hi, resume, optimize_of_optimal move, ok_bind,
            proceed_restore zero, restore, error_bind]
  | @optimal k _ _ _ _ starts run le hk move =>
      obtain ⟨q, added, hq, -⟩ := k.withArtificials_eq
      rw [solve_eq_resume run le hk hq starts, resume, conclude_of_ok (optimize_of_optimal move)]
      simp only [reduceCtorEq, if_false]
  | @unbounded k _ _ _ _ starts run le hk move =>
      obtain ⟨q, added, hq, -⟩ := k.withArtificials_eq
      rw [solve_eq_resume run le hk hq starts, resume,
        conclude_of_ok (optimize_of_unbounded move), if_pos rfl]

theorem solve_eq_iff : (s.solve p).result = r ↔ s.Outcome p r :=
  ⟨fun h => h ▸ s.outcome_solve p, Outcome.result_eq⟩

theorem records_of_solve (h : (s.solve p).result = .ok sol) : sol.Records p := by
  cases solve_eq_iff.1 h with
  | infeasible => exact ⟨rfl, rfl, rfl, fun _ => rfl⟩
  | optimal | unbounded => exact ⟨rfl, rfl, rfl, nofun⟩

theorem starts_initial (h : (s.solve p).result = .ok sol) :
    ∃ first, p.Starts s.tolerance first sol.initial := by
  cases solve_eq_iff.1 h with
  | infeasible starts | optimal starts | unbounded starts => exact ⟨_, starts⟩

theorem visits_final (h : (s.solve p).result = .ok sol) (hst : sol.status ≠ .infeasible) :
    s.Visits p .two sol.final := by
  cases solve_eq_iff.1 h with
  | infeasible => exact absurd rfl hst
  | optimal _ run | unbounded _ run => exact ⟨_, run⟩

end Simplex

end LinProg
