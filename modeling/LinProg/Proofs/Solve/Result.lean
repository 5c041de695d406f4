import LinProg.Proofs.Program.Equations
import LinProg.Solve.Solver

namespace LinProg

theorem ok_bind {β γ : Type} (a : β) (f : β → Except Fault γ) : Except.ok a >>= f = f a := rfl

theorem error_bind {β γ : Type} (e : Fault) (f : β → Except Fault γ) :
    Except.error e >>= f = .error e := rfl

theorem exists_ok_of_map_toOption {β γ : Type} {r : Except Fault β} {f : β → γ} {c : γ}
    (h : r.toOption.map f = some c) : ∃ a, r = .ok a ∧ f a = c := by
  cases r with
  | error e => cases h
  | ok a => exact ⟨a, rfl, Option.some.inj h⟩

/-- The fault of a result, as an option: faults can be compared, solutions cannot. -/
def fault? {β : Type} : Except Fault β → Option Fault
  | .ok _ => none
  | .error f => some f

theorem eq_error_of_fault? {β : Type} {r : Except Fault β} {f : Fault} (h : fault? r = some f) :
    r = .error f := by
  cases r with
  | ok a => cases h
  | error g => exact congrArg Except.error (Option.some.inj h)

/-- What an ascent that was given what is left of `limit` comes to. -/
def Ascent.verdict {α : Type} (a : Ascent α) (limit : ℕ) : Except Fault (Ascent α) :=
  match a.halt with
  | .optimal | .unbounded => .ok a
  | .exhausted => .error (.pivotLimit limit)
  | .refused f => .error f

namespace Simplex

variable {α : Type} [Scalar α] {s : Simplex α} {p : Program α} {used : ℕ} {initial t : Tableau α}

theorem result_optimize (s : Simplex α) (used : ℕ) (t : Tableau α) :
    (s.optimize used t).result = (t.ascend (s.limit - used)).verdict s.limit := by
  rw [optimize, Logged.result_bind, Logged.result_notes, Ascent.verdict]
  change Logged.result _ = _
  cases (t.ascend (s.limit - used)).halt <;> rfl

theorem optimize_eq_ok_iff {a : Ascent α} : (s.optimize used t).result = .ok a ↔
    t.ascend (s.limit - used) = a ∧ (a.halt = .optimal ∨ a.halt = .unbounded) := by
  rw [result_optimize, Ascent.verdict]
  constructor
  · intro h
    cases hh : (t.ascend (s.limit - used)).halt with
    | optimal | unbounded =>
        rw [hh] at h
        obtain rfl := Except.ok.inj h
        simp [hh]
    | exhausted | refused =>
        rw [hh] at h
        cases h
  · rintro ⟨rfl, hh | hh⟩ <;> rw [hh]

theorem solve_direct {k : Canonical α} (hk : p.canonical? = .ok k) (hn : k.needsPhaseOne = false) :
    (s.solve p).result = (s.conclude p k.flipped 0 (k.program.tableau s.tolerance)
      (k.program.tableau s.tolerance)).result := by
  simp only [solve, Logged.result_bind, Logged.result_lift, Logged.result_note, hk, ok_bind, hn,
    Bool.false_eq_true, if_false]

/-- What follows phase one, which has halted at `t` after `used` pivots. -/
def proceed (s : Simplex α) (p : Program α) (k : Canonical α) (cols : List ℕ) (initial : Tableau α)
    (used : ℕ) (halt : Halt) (t : Tableau α) : Except Fault (Solution α) :=
  if halt = .unbounded then .error .unboundedPhaseOne
  else if t.hasPositive cols then
    .ok ⟨.infeasible, p.id, p.names, .undefined, t.assignment, initial, t⟩
  else (t.restore k.program cols).result >>= fun u => (s.conclude p k.flipped used initial u).result

theorem solve_phaseOne {k : Canonical α} {q : Program α} {added : List (Var × ℕ)}
    (hk : p.canonical? = .ok k) (hn : k.needsPhaseOne = true)
    (hq : k.withArtificials = .ok (q, added)) :
    (s.solve p).result = (s.optimize 0 (q.phaseOneTableau added s.tolerance)).result >>= fun a =>
      s.proceed p k (added.map (·.1.index)) (q.phaseOneTableau added s.tolerance) a.steps.length
        a.halt a.last := by
  simp only [solve, Logged.result_bind, Logged.result_lift, Logged.result_note, hk, ok_bind, hn,
    if_true, hq]
  congr 1
  funext a
  rw [proceed]
  by_cases hu : a.halt = .unbounded
  · simp only [hu, if_true, Logged.result_fail]
  · simp only [hu, if_false]
    cases a.last.hasPositive (added.map (·.1.index)) with
    | true => rfl
    | false => exact Logged.result_bind _ _

theorem proceed_unbounded (s : Simplex α) (p : Program α) (k : Canonical α) (cols : List ℕ)
    (initial : Tableau α) (used : ℕ) (t : Tableau α) :
    s.proceed p k cols initial used .unbounded t = .error .unboundedPhaseOne := if_pos rfl

theorem proceed_infeasible {k : Canonical α} {cols : List ℕ} (h : t.hasPositive cols) :
    s.proceed p k cols initial used .optimal t =
      .ok ⟨.infeasible, p.id, p.names, .undefined, t.assignment, initial, t⟩ := by
  simp only [proceed, reduceCtorEq, if_false, h, if_true]

theorem proceed_restore {k : Canonical α} {cols : List ℕ} (h : ¬ t.hasPositive cols) :
    s.proceed p k cols initial used .optimal t = (t.restore k.program cols).result >>= fun u =>
      (s.conclude p k.flipped used initial u).result := by
  simp only [proceed, reduceCtorEq, if_false, h]

theorem conclude_of_error {f : Fault} (h : (s.optimize used t).result = .error f)
    (p : Program α) (flipped : Bool) (initial : Tableau α) :
    (s.conclude p flipped used initial t).result = .error f := by
  rw [conclude, Logged.result_bind, h, error_bind]

theorem conclude_of_ok {a : Ascent α} (h : (s.optimize used t).result = .ok a) (p : Program α)
    (flipped : Bool) (initial : Tableau α) :
    (s.conclude p flipped used initial t).result = .ok (if a.halt = .unbounded then
        ⟨.unbounded, p.id, p.names, if flipped then .minusInfinity else .plusInfinity,
          a.last.assignment, initial, a.last⟩
      else ⟨.optimal, p.id, p.names, .attained (if flipped then -a.last.value else a.last.value),
          a.last.assignment, initial, a.last⟩) := by
  rw [conclude, Logged.result_bind, h, ok_bind]
  obtain ⟨steps, last, halt⟩ := a
  cases halt with
  | optimal | unbounded | exhausted | refused => cases flipped <;> rfl

end Simplex

end LinProg
