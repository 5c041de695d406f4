import LinProg.Proofs.Solve.Result
import LinProg.Proofs.Tableau.Budget

namespace LinProg

namespace Logged

variable {ε α β : Type} {e e' : ε}

theorem mem_events_bind {x : Logged ε α} {f : α → Logged ε β} :
    e ∈ (x >>= f).events ↔ e ∈ x.events ∨ ∃ a, x.result = .ok a ∧ e ∈ (f a).events := by
  change e ∈ (x.bind f).events ↔ _
  unfold bind
  cases x.result with
  | ok a => simp
  | error f => simp

theorem mem_events_lift_bind {r : Except Fault α} {f : α → Logged ε β} :
    e ∈ ((liftM r : Logged ε α) >>= f).events ↔ ∃ a, r = .ok a ∧ e ∈ (f a).events := by
  rw [mem_events_bind, result_lift]
  exact or_iff_right List.not_mem_nil

theorem mem_events_note_bind {f : Unit → Logged ε β} :
    e ∈ (note e' >>= f).events ↔ e = e' ∨ e ∈ (f ()).events := by
  rw [mem_events_bind, result_note]
  refine or_congr List.mem_singleton ?_
  exact ⟨fun ⟨_, _, h⟩ => h, fun h => ⟨(), rfl, h⟩⟩

end Logged

inductive Phase where
  | one
  | two

namespace Program

variable {α : Type} [Scalar α]

inductive Starts (p : Program α) (tol : α) : Phase → Tableau α → Prop
  | one {k : Canonical α} {q : Program α} {added : List (Var × ℕ)}
      (canonical : p.canonical? = .ok k) (needs : k.needsPhaseOne = true)
      (artificials : k.withArtificials = .ok (q, added)) :
      Starts p tol .one (q.phaseOneTableau added tol)
  | two {k : Canonical α} (canonical : p.canonical? = .ok k) (needs : k.needsPhaseOne = false) :
      Starts p tol .two (k.program.tableau tol)

/-- A solve of `p` without a limit: after `n` pivots of both phases together it looks for a move at
`t`. -/
inductive Run (p : Program α) (tol : α) : Phase → ℕ → Tableau α → Prop
  | start {phase : Phase} {t : Tableau α} (starts : p.Starts tol phase t) : Run p tol phase 0 t
  | pivot {phase : Phase} {n : ℕ} {t u : Tableau α} (run : Run p tol phase n t)
      (step : t.Advances u) : Run p tol phase (n + 1) u
  | restore {k : Canonical α} {q : Program α} {added : List (Var × ℕ)} {n : ℕ} {t u : Tableau α}
      (run : Run p tol .one n t) (canonical : p.canonical? = .ok k)
      (artificials : k.withArtificials = .ok (q, added)) (move : t.move = .optimal)
      (zero : ¬ t.hasPositive (added.map (·.1.index)))
      (restore : (t.restore k.program (added.map (·.1.index))).result = .ok u) :
      Run p tol .two n u

variable {p : Program α} {tol : α} {phase first : Phase} {m n : ℕ} {t u initial : Tableau α}

theorem Starts.unique (h : p.Starts tol phase t) (h' : p.Starts tol first u) :
    phase = first ∧ t = u := by
  cases h with
  | one hk hn hq =>
      cases h' with
      | one hk' _ hq' =>
          obtain rfl := Except.ok.inj (hk.symm.trans hk')
          obtain ⟨rfl, rfl⟩ := Prod.mk.inj (Except.ok.inj (hq.symm.trans hq'))
          exact ⟨rfl, rfl⟩
      | two hk' hn' =>
          obtain rfl := Except.ok.inj (hk.symm.trans hk')
          rw [hn] at hn'
          cases hn'
  | two hk hn =>
      cases h' with
      | one hk' hn' _ =>
          obtain rfl := Except.ok.inj (hk.symm.trans hk')
          rw [hn] at hn'
          cases hn'
      | two hk' _ =>
          obtain rfl := Except.ok.inj (hk.symm.trans hk')
          exact ⟨rfl, rfl⟩

theorem Starts.canonical (h : p.Starts tol phase t) :
    ∃ k, p.canonical? = .ok k ∧ ∃ q added, k.withArtificials = .ok (q, added) := by
  cases h with
  | one hk _ hq => exact ⟨_, hk, _, _, hq⟩
  | @two k hk _ =>
      obtain ⟨q, added, hq, -⟩ := k.withArtificials_eq
      exact ⟨k, hk, q, added, hq⟩

theorem Run.climbs (h : p.Run tol phase n t) (hc : Tableau.Climbs m t u) :
    p.Run tol phase (n + m) u := by
  induction hc generalizing n with
  | stay t => exact h
  | pivot step _ ih =>
      rw [Nat.add_comm _ 1, ← Nat.add_assoc]
      exact ih (h.pivot step)

theorem Run.one_climbs (h : p.Run tol .one n t) {k : Canonical α} {q : Program α}
    {added : List (Var × ℕ)} (hk : p.canonical? = .ok k) (hq : k.withArtificials = .ok (q, added)) :
    k.needsPhaseOne = true ∧ Tableau.Climbs n (q.phaseOneTableau added tol) t := by
  generalize hp : Phase.one = phase at h
  induction h with
  | start starts =>
      cases starts with
      | one hk' needs hq' =>
          obtain rfl := Except.ok.inj (hk.symm.trans hk')
          obtain ⟨rfl, rfl⟩ := Prod.mk.inj (Except.ok.inj (hq.symm.trans hq'))
          exact ⟨needs, .stay _⟩
      | two => cases hp
  | pivot _ step ih => exact ⟨(ih hp).1, (ih hp).2.tail step⟩
  | restore => cases hp

theorem Run.starts (h : p.Run tol phase n t) : ∃ first initial, p.Starts tol first initial := by
  induction h with
  | start starts => exact ⟨_, _, starts⟩
  | pivot _ _ ih | restore _ _ _ _ _ _ ih => exact ih

theorem Run.canonical (h : p.Run tol phase n t) :
    ∃ k, p.canonical? = .ok k ∧ ∃ q added, k.withArtificials = .ok (q, added) := by
  obtain ⟨first, initial, hi⟩ := h.starts
  exact hi.canonical

theorem Run.of_lt (h : p.Run tol phase n t) (hmn : m < n) :
    ∃ phase u, p.Run tol phase m u ∧ u.WantsPivot := by
  induction h with
  | start => cases hmn
  | pivot run step ih =>
      rcases Nat.lt_succ_iff_lt_or_eq.1 hmn with hlt | rfl
      · exact ih hlt
      · obtain ⟨i, j, hm, -⟩ := step
        exact ⟨_, _, run, i, j, hm⟩
  | restore _ _ _ _ _ _ ih => exact ih hmn

end Program

namespace Simplex

variable {α : Type} [Scalar α]

/-- The tableaux at which a phase of a solve without a limit looks for a move. -/
def Visits (s : Simplex α) (p : Program α) (phase : Phase) (t : Tableau α) : Prop :=
  ∃ n, p.Run s.tolerance phase n t

/-- Phase one of a solve of `p` without a limit ends at `t` after `n` pivots, in an optimum without
a positive variable in the artificial columns `cols`. -/
inductive HandsOver (s : Simplex α) (p : Program α) :
    Canonical α → List ℕ → ℕ → Tableau α → Prop
  | intro {k : Canonical α} {q : Program α} {added : List (Var × ℕ)} {n : ℕ} {t : Tableau α}
      (run : p.Run s.tolerance .one n t) (canonical : p.canonical? = .ok k)
      (artificials : k.withArtificials = .ok (q, added)) (move : t.move = .optimal)
      (zero : ¬ t.hasPositive (added.map (·.1.index))) :
      HandsOver s p k (added.map (·.1.index)) n t

/-- The hand-over of a solve within its limit, computed. -/
def handOver? (s : Simplex α) (p : Program α) :
    Option (Canonical α × List ℕ × ℕ × Tableau α) := do
  let k ← p.canonical?.toOption
  let (q, added) ← k.withArtificials.toOption
  let cols := added.map (·.1.index)
  let a := (q.phaseOneTableau added s.tolerance).ascend s.limit
  if k.needsPhaseOne ∧ a.halt = .optimal ∧ ¬ a.last.hasPositive cols then
    some (k, cols, a.steps.length, a.last)
  else none

variable {s : Simplex α} {p : Program α} {k : Canonical α} {phase : Phase}
variable {m n used : ℕ} {initial t u : Tableau α} {step : PivotStep α}

theorem two_climbs (h : p.Run s.tolerance .two n t) (hk : p.canonical? = .ok k) :
    ∃ l t₀, Tableau.Climbs l t₀ t ∧
      (k.needsPhaseOne = false ∧ t₀ = k.program.tableau s.tolerance ∨
        ∃ cols m v, s.HandsOver p k cols m v ∧ (v.restore k.program cols).result = .ok t₀) := by
  generalize hp : Phase.two = phase at h
  induction h with
  | start starts =>
      cases starts with
      | one => cases hp
      | two hk' needs =>
          obtain rfl := Except.ok.inj (hk.symm.trans hk')
          exact ⟨0, _, .stay _, .inl ⟨needs, rfl⟩⟩
  | pivot _ step ih =>
      obtain ⟨l, t₀, hc, hs⟩ := ih hp
      exact ⟨l + 1, t₀, hc.tail step, hs⟩
  | restore run hk' hq move zero restore =>
      obtain rfl := Except.ok.inj (hk.symm.trans hk')
      exact ⟨0, _, .stay _, .inr ⟨_, _, _, .intro run hk hq move zero, restore⟩⟩

theorem Visits.advances (h : s.Visits p phase t) (hu : t.Advances u) : s.Visits p phase u := by
  obtain ⟨n, hn⟩ := h
  exact ⟨n + 1, hn.pivot hu⟩

theorem Visits.reaches (h : s.Visits p phase t)
    (hr : Relation.ReflTransGen Tableau.Advances t u) : s.Visits p phase u := by
  induction hr with
  | refl => exact h
  | tail _ step ih => exact ih.advances step

theorem HandsOver.visits {cols : List ℕ} (h : s.HandsOver p k cols n t) : s.Visits p .one t := by
  cases h with
  | intro run => exact ⟨n, run⟩

theorem HandsOver.run_restore {cols : List ℕ} (h : s.HandsOver p k cols n t)
    (hu : (t.restore k.program cols).result = .ok u) : p.Run s.tolerance .two n u := by
  cases h with
  | intro run canonical artificials move zero =>
      exact run.restore canonical artificials move zero hu

theorem handsOver_of_eq {cols : List ℕ} (h : s.handOver? p = some (k, cols, n, t)) :
    s.HandsOver p k cols n t := by
  cases hk : p.canonical? with
  | error f => simp [handOver?, hk, Except.toOption] at h
  | ok k' =>
      obtain ⟨q, added, hq, -⟩ := k'.withArtificials_eq
      simp only [handOver?, hk, hq, Except.toOption, bind, Option.bind] at h
      split at h
      · next hc =>
          obtain ⟨rfl, rfl, rfl, rfl⟩ : k' = k ∧ _ = cols ∧ _ = n ∧ _ = t := by simpa using h
          obtain ⟨left, -, climbs, hs⟩ :=
            Tableau.climbs_ascend s.limit (q.phaseOneTableau added s.tolerance)
          have hrun := (Program.Run.start (.one hk hc.1 hq)).climbs climbs
          rw [Nat.zero_add] at hrun
          rw [hc.2.1] at hs
          cases hs with
          | optimal move => exact .intro hrun hk hq move hc.2.2
      · cases h

theorem run_of_optimize (h : p.Run s.tolerance phase used t) (hn : used ≤ s.limit) {a : Ascent α}
    (ha : (s.optimize used t).result = .ok a) :
    p.Run s.tolerance phase (used + a.steps.length) a.last ∧ used + a.steps.length ≤ s.limit ∧
      (a.halt = .optimal ∧ a.last.move = .optimal ∨
        a.halt = .unbounded ∧ a.last.move = .unbounded) := by
  obtain ⟨rfl, hhalt⟩ := optimize_eq_ok_iff.1 ha
  obtain ⟨left, hlen, hc, hs⟩ := Tableau.climbs_ascend (s.limit - used) t
  refine ⟨h.climbs hc, by omega, ?_⟩
  rcases hhalt with hh | hh
  · rw [hh] at hs
    cases hs with
    | optimal move => exact .inl ⟨hh, move⟩
  · rw [hh] at hs
    cases hs with
    | unbounded move => exact .inr ⟨hh, move⟩

theorem run_of_mem_events_optimize (h : p.Run s.tolerance phase used t)
    (hm : .pivot m step ∈ (s.optimize used t).events) : ∃ n u v, m = n + 1 ∧
      p.Run s.tolerance phase n u ∧ u.move = .pivot step.row step.col ∧
      u.pivot step.row step.col = .ok v ∧ v.value = step.value := by
  rcases Logged.mem_events_bind.1 hm with hm | ⟨_, -, hm⟩
  · obtain ⟨i, hi, he⟩ := List.mem_mapIdx.1 hm
    obtain ⟨rfl, rfl⟩ := Event.pivot.inj he
    obtain ⟨u, v, hc, hv⟩ := Tableau.climbs_of_getElem?_steps (List.getElem?_eq_getElem hi)
    exact ⟨used + i, u, v, rfl, h.climbs hc, hv⟩
  · split at hm
    · simp [Logged.mem_events_note_bind, pure] at hm
    all_goals simp [Logged.fail, pure] at hm

theorem pivot_not_mem_events_driveOutFrom (cols : List ℕ) (n r : ℕ) (t : Tableau α) :
    .pivot m step ∉ (t.driveOutFrom cols n r).events := by
  induction n generalizing r t with
  | zero => exact List.not_mem_nil
  | succ n ih =>
      rw [Tableau.driveOutFrom]
      cases hr : t.rows[r]? with
      | none => exact List.not_mem_nil
      | some b =>
          by_cases hb : b.hasBasic cols
          · simp only [hb, if_true]
            split
            · rw [Logged.mem_events_lift_bind]
              rintro ⟨u, -, h⟩
              exact ih _ u h
            · rw [Logged.mem_events_note_bind]
              rintro (h | h)
              · cases h
              · exact ih r _ h
          · simp only [hb]
            exact ih (r + 1) t

theorem pivot_not_mem_events_restore (t : Tableau α) (p : Program α) (cols : List ℕ) :
    .pivot m step ∉ (t.restore p cols).events := by
  intro h
  rcases Logged.mem_events_bind.1 h with h | ⟨_, -, h⟩
  · exact pivot_not_mem_events_driveOutFrom cols _ 0 t h
  · cases h

theorem run_of_mem_events_conclude {flipped : Bool} (h : p.Run s.tolerance .two used t)
    (hm : .pivot m step ∈ (s.conclude p flipped used initial t).events) : ∃ n u v, m = n + 1 ∧
      p.Run s.tolerance .two n u ∧ u.move = .pivot step.row step.col ∧
      u.pivot step.row step.col = .ok v ∧ v.value = step.value := by
  rcases Logged.mem_events_bind.1 hm with hm | ⟨_, -, hm⟩
  · exact run_of_mem_events_optimize h hm
  · simp [Logged.mem_events_note_bind, pure] at hm

/-- Every pivot that a solve reports is made at the stage of its run with that number. -/
theorem run_of_mem_events (hm : .pivot m step ∈ (s.solve p).events) : ∃ phase n u v, m = n + 1 ∧
    p.Run s.tolerance phase n u ∧ u.move = .pivot step.row step.col ∧
    u.pivot step.row step.col = .ok v ∧ v.value = step.value := by
  rw [solve, Logged.mem_events_lift_bind] at hm
  obtain ⟨k, hk, hm⟩ := hm
  rcases Logged.mem_events_note_bind.1 hm with hm | hm
  · cases hm
  cases hn : k.needsPhaseOne with
  | false =>
      rw [hn, if_neg Bool.false_ne_true] at hm
      exact ⟨.two, run_of_mem_events_conclude (.start (.two hk hn)) hm⟩
  | true =>
      rw [hn, if_pos rfl, Logged.mem_events_lift_bind] at hm
      obtain ⟨⟨q, added⟩, hq, hm⟩ := hm
      rcases Logged.mem_events_note_bind.1 hm with hm | hm
      · cases hm
      have hrun : p.Run s.tolerance .one 0 (q.phaseOneTableau added s.tolerance) :=
        .start (.one hk hn hq)
      rcases Logged.mem_events_bind.1 hm with hm | ⟨a, ha, hm⟩
      · exact ⟨.one, run_of_mem_events_optimize hrun hm⟩
      · obtain ⟨hlast, -, hstop⟩ := run_of_optimize hrun (Nat.zero_le _) ha
        rw [Nat.zero_add] at hlast
        rcases hstop with ⟨hhalt, hmove⟩ | ⟨hhalt, -⟩
        · simp only [hhalt, reduceCtorEq, if_false] at hm
          by_cases hpos : a.last.hasPositive (added.map (·.1.index))
          · rw [if_pos hpos] at hm
            simp [Logged.mem_events_note_bind, pure] at hm
          · rw [if_neg hpos] at hm
            rcases Logged.mem_events_bind.1 hm with hm | ⟨u, hu, hm⟩
            · exact absurd hm (pivot_not_mem_events_restore _ _ _)
            · exact ⟨.two, run_of_mem_events_conclude (hlast.restore hk hq hmove hpos hu) hm⟩
        · rw [if_pos hhalt] at hm
          cases hm

end Simplex

end LinProg
