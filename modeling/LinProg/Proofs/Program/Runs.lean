import Mathlib.Logic.Relation
import LinProg.Proofs.Program.Equations
import LinProg.Proofs.Program.Ledger

namespace LinProg

inductive Call (α : Type) where
  | createVariable (name : String)
  | addConstraint (c : Constraint α)
  | minimize (e : LinExpr α)
  | maximize (e : LinExpr α)
  | simplify

namespace Call

variable {α : Type} [Scalar α]

def run : Call α → Edit α Unit
  | createVariable name => do let _ ← Ledger.createVariable name
  | addConstraint c => Ledger.addConstraint c
  | minimize e => Ledger.setObjective ⟨e, .min⟩
  | maximize e => Ledger.setObjective ⟨e, .max⟩
  | simplify => Ledger.simplify

def apply (p : Program α) : Call α → Except Fault (Program α)
  | createVariable name => (p.addVariable name).map (·.2)
  | addConstraint c => p.addConstraint c
  | minimize e => p.setObjective ⟨e, .min⟩
  | maximize e => p.setObjective ⟨e, .max⟩
  | simplify => .ok p.simplify

structure Keeps (c : Call α) (p q : Program α) : Prop where
  vars : p.vars <+: q.vars
  constraints : p.constraints <+: q.constraints ∨
    c = .simplify ∧ q.constraints = p.constraints.map Constraint.simplify

/-- A call succeeds as it does on the program alone, or it is refused and leaves the ledger as it
was. -/
inductive Ends (c : Call α) (s : Ledger α) : Prop
  | succeeds {t : Ledger α} (run : c.run s = (.ok (), t)) (apply : c.apply s.program = .ok t.program)
      (sound : t.Sound) (keeps : c.Keeps s.program t.program)
  | refused {f : Fault} (name : String)
      (fault : f = .duplicateVariable name ∨ f = .foreignVariable name)
      (run : c.run s = (.error f, s)) (apply : c.apply s.program = .error f)

variable {s : Ledger α}

theorem ends_createVariable (h : s.Sound) (name : String) : (createVariable name).Ends s := by
  have hrun := Ledger.createVariable_eq h name
  cases hadd : s.program.addVariable name with
  | ok r =>
      rw [hadd] at hrun
      refine .succeeds (Edit.bind_of_ok hrun) ?_ (h.createVariable hadd) ⟨?_, ?_⟩
      · rw [apply, hadd]
        rfl
      · obtain ⟨-, -, hq⟩ := Program.addVariable_eq hadd
        rw [hq]
        exact List.prefix_append _ _
      · obtain ⟨-, -, hq⟩ := Program.addVariable_eq hadd
        rw [hq]
        exact .inl List.prefix_rfl
  | error f =>
      rw [hadd] at hrun
      refine .refused name (.inl ?_) (Edit.bind_of_error hrun) ?_
      · exact Program.addVariable_error hadd
      · rw [apply, hadd]
        rfl

theorem ends_of_revise {c : Call α} {e : LinExpr α} {f : Program α → Program α} (h : s.Sound)
    (hrun : c.run = Ledger.revise e f)
    (happly : c.apply s.program = s.program.checkOwned e >>= fun _ => .ok (f s.program))
    (hf : c.apply s.program = .ok (f s.program) → (f s.program).Consistent)
    (hv : (f s.program).vars = s.program.vars)
    (hc : s.program.constraints <+: (f s.program).constraints) : c.Ends s := by
  have hs := Ledger.revise_eq e f s
  rw [← hrun] at hs
  cases ho : s.program.checkOwned e with
  | ok u =>
      rw [ho] at hs happly
      exact .succeeds hs happly (h.of_vars (hf happly) hv) ⟨hv ▸ List.prefix_rfl, .inl hc⟩
  | error g =>
      rw [ho] at hs happly
      obtain ⟨v, rfl⟩ := Program.checkOwned_error ho
      exact .refused v.name (.inr rfl) hs happly

theorem ends (h : s.Sound) (c : Call α) : c.Ends s := by
  cases c with
  | createVariable name => exact ends_createVariable h name
  | addConstraint c =>
      have hrun : (addConstraint c).run = Ledger.revise c.expr fun p : Program α =>
        { p with constraints := p.constraints ++ [{ c with index := p.constraints.length }] } := rfl
      refine ends_of_revise h hrun rfl (fun hq => ?_) rfl (List.prefix_append _ _)
      exact h.toConsistent.addConstraint hq
  | minimize e =>
      have hrun : (minimize e).run = Ledger.revise e fun p : Program α =>
        { p with objective := some ⟨e, .min⟩ } := rfl
      refine ends_of_revise h hrun rfl (fun hq => ?_) rfl List.prefix_rfl
      exact h.toConsistent.setObjective hq
  | maximize e =>
      have hrun : (maximize e).run = Ledger.revise e fun p : Program α =>
        { p with objective := some ⟨e, .max⟩ } := rfl
      refine ends_of_revise h hrun rfl (fun hq => ?_) rfl List.prefix_rfl
      exact h.toConsistent.setObjective hq
  | simplify =>
      exact .succeeds rfl rfl (h.of_vars h.toConsistent.simplify rfl)
        ⟨List.prefix_rfl, .inr ⟨rfl, rfl⟩⟩

end Call

namespace Ledger

variable {α : Type} [Scalar α]

inductive Step : List (Ledger α) → List (Ledger α) → Prop
  | new (w : List (Ledger α)) (name : String) (id : ℕ) : Step w (w ++ [.new name id])
  | clone {w : List (Ledger α)} {s : Ledger α} (h : s ∈ w) : Step w (w ++ [s])
  | call {w : List (Ledger α)} {i : ℕ} {s : Ledger α} (c : Call α) (h : w[i]? = some s) :
      Step w (w.set i (c.run s).2)

abbrev Runs (w : List (Ledger α)) : Prop := Relation.ReflTransGen Step [] w

variable {w w' : List (Ledger α)} {s : Ledger α}

theorem sound_of_step (h : Step w w') (hw : ∀ s ∈ w, s.Sound) : ∀ s ∈ w', s.Sound := by
  cases h with
  | new name id =>
      intro s hs
      rcases List.mem_append.1 hs with hs | hs
      · exact hw s hs
      · exact List.mem_singleton.1 hs ▸ sound_new name id
  | @clone t hm =>
      intro s hs
      rcases List.mem_append.1 hs with hs | hs
      · exact hw s hs
      · exact List.mem_singleton.1 hs ▸ hw t hm
  | @call i t c hi =>
      intro s hs
      have ht := hw t (List.mem_of_getElem? hi)
      rcases List.mem_or_eq_of_mem_set hs with hs | rfl
      · exact hw s hs
      · cases c.ends ht with
        | succeeds run _ sound _ => exact run ▸ sound
        | refused _ _ run _ => exact run ▸ ht

theorem sound_of_runs (h : Runs w) : ∀ s ∈ w, s.Sound := by
  induction h with
  | refl => exact fun s hs => absurd hs List.not_mem_nil
  | tail _ step ih => exact sound_of_step step ih

theorem Runs.exists_call {i : ℕ} {q : Program α} (h : Runs w) (hi : w[i]? = some s) (c : Call α)
    (hq : c.apply s.program = .ok q) : ∃ t, Runs (w.set i t) ∧ t.program = q := by
  cases c.ends (sound_of_runs h s (List.mem_of_getElem? hi)) with
  | succeeds run apply =>
      refine ⟨_, h.tail (.call c hi), ?_⟩
      rw [run]
      exact Except.ok.inj (apply.symm.trans hq)
  | refused _ _ _ apply => cases apply.symm.trans hq

theorem Runs.exists_calls {calls : List (Call α)} {q : Program α} (hr : Runs [s])
    (h : calls.foldlM (fun p c => c.apply p) s.program = .ok q) :
    ∃ t, Runs [t] ∧ t.program = q := by
  induction calls generalizing s with
  | nil => exact ⟨s, hr, Except.ok.inj h⟩
  | cons c calls ih =>
      rw [List.foldlM_cons] at h
      cases hc : c.apply s.program with
      | error f =>
          rw [hc] at h
          cases h
      | ok p =>
          obtain ⟨t, ht, rfl⟩ := hr.exists_call (i := 0) rfl c hc
          rw [hc] at h
          exact ih ht h

theorem exists_runs (name : String) (id : ℕ) {calls : List (Call α)} {q : Program α}
    (h : calls.foldlM (fun p c => c.apply p) (Program.new name id) = .ok q) :
    ∃ s, Runs [s] ∧ s.program = q :=
  Runs.exists_calls (.tail .refl (.new [] name id)) h

/-- What can be seen of a ledger at any time: the program is consistent, and a name leads to the one
variable that has it. -/
structure WellKept (s : Ledger α) : Prop extends s.program.Consistent where
  lookup : ∀ name v, s.lookup name = some v ↔ v ∈ s.program.vars ∧ v.name = name

omit [Scalar α] in
theorem Sound.wellKept (h : s.Sound) : s.WellKept where
  toConsistent := h.toConsistent
  lookup _ _ := h.lookup_eq_some_iff

/-- However programs are built, copied and changed, each of them stays well kept. A call that fails
leaves everything as it was, one that succeeds keeps what was there before, and the canonical form
and the program of phase one, made in place by the same operations, are well kept as well. -/
theorem wellKept_of_runs (h : Runs w) (hs : s ∈ w) :
    s.WellKept ∧
    (∀ c : Call α,
      (∃ t, c.run s = (.ok (), t) ∧ c.apply s.program = .ok t.program ∧
        c.Keeps s.program t.program) ∨
      ∃ f name, (f = .duplicateVariable name ∨ f = .foreignVariable name) ∧
        c.run s = (.error f, s) ∧ c.apply s.program = .error f) ∧
    ∀ o, s.program.objective = some o → ∃ k t added u,
      canonicalize s = (.ok (k.slacks, k.surpluses, k.flipped), t) ∧
      s.program.canonical? = .ok k ∧ k.program = t.program ∧ t.WellKept ∧
      augment (.artificial (k.slacks.map (·.2))) t = (.ok added, u) ∧
      k.withArtificials = .ok (u.program, added) ∧ u.WellKept := by
  have hsound := sound_of_runs h s hs
  refine ⟨hsound.wellKept, fun c => ?_, fun o ho => ?_⟩
  · cases c.ends hsound with
    | succeeds run apply _ keeps => exact .inl ⟨_, run, apply, keeps⟩
    | refused _ fault run apply => exact .inr ⟨_, _, fault, run, apply⟩
  · obtain ⟨slacks, surpluses, t, ht, hst, hk⟩ := canonicalize_eq hsound ho
    obtain ⟨added, u, hu, hsu, haug⟩ := augment_eq hst (Auxiliary.artificial_joins (slacks.map (·.2)))
    exact ⟨_, t, added, u, ht, hk, rfl, hst.wellKept, hu, haug, hsu.wellKept⟩

end Ledger

def Program.raised : Program ℚ where
  name := "raised"
  id := 7
  vars := [⟨"x", 0, 7⟩]
  constraints := [⟨.ofTerms [(⟨"x", 0, 7⟩, 1)] 0, .ge, 2, 0⟩]
  objective := some ⟨.ofTerms [(⟨"x", 0, 7⟩, 1)] 0, .max⟩

namespace Ledger

/-- A copy of a program finds its variable, refuses the name for another one, and refuses a variable
of a program of its own. In place, its canonical form finds a surplus and that of phase one an
artificial variable. -/
theorem wellKept_of_runs_copy : ∃ s : Ledger ℚ, Runs [s, s] ∧ s.program = .raised ∧
    s.lookup "x" = some ⟨"x", 0, 7⟩ ∧ s.lookup "s0" = none ∧
    (Call.createVariable "x").run s = (.error (.duplicateVariable "x"), s) ∧
    (Call.maximize (.ofVar ⟨"y", 0, 8⟩)).run s = (.error (.foreignVariable "y"), s) ∧
    ∃ (k : Canonical ℚ) (t u : Ledger ℚ) (added : List (Var × ℕ)),
      canonicalize s = (.ok (k.slacks, k.surpluses, k.flipped), t) ∧
      augment (.artificial (k.slacks.map (·.2))) t = (.ok added, u) ∧
      t.lookup "s0" = some ⟨"s0", 1, 7⟩ ∧ u.lookup "a0" = some ⟨"a0", 2, 7⟩ := by
  have hbuilt : [.createVariable "x", .addConstraint ⟨.ofTerms [(⟨"x", 0, 7⟩, 1)] 0, .ge, 2, 0⟩,
      .maximize (.ofTerms [(⟨"x", 0, 7⟩, 1)] 0)].foldlM (fun p c => Call.apply p c)
      (Program.new "raised" 7) = .ok .raised := rfl
  obtain ⟨s, hone, hs⟩ := exists_runs "raised" 7 hbuilt
  have hr : Runs [s, s] := hone.tail (.clone List.mem_cons_self)
  obtain ⟨hkept, hcalls, hcanonical⟩ := wellKept_of_runs hr List.mem_cons_self
  obtain ⟨k, t, added, u, ht, hk, hp, hkt, hu, hq, hku⟩ := hcanonical _ (by rw [hs]; rfl)
  have hrefused {c : Call ℚ} {f : Fault} (hf : c.apply .raised = .error f) :
      c.run s = (.error f, s) := by
    rcases hcalls c with ⟨t, -, happly, -⟩ | ⟨g, name, -, hrun, happly⟩
    all_goals rw [hs, hf] at happly
    · cases happly
    · obtain rfl := Except.error.inj happly
      exact hrun
  have hvars : (Program.raised.canonical?.toOption.map fun k =>
      (k.program.vars, k.withArtificials.toOption.map (·.1.vars))) =
      some ([⟨"x", 0, 7⟩, ⟨"s0", 1, 7⟩],
        some [⟨"x", 0, 7⟩, ⟨"s0", 1, 7⟩, ⟨"a0", 2, 7⟩]) := rfl
  rw [← hs, hk] at hvars
  obtain ⟨hcanon, hphase⟩ := Prod.mk.inj (Option.some.inj hvars)
  rw [hq] at hphase
  replace hphase : u.program.vars = _ := Option.some.inj hphase
  refine ⟨s, hr, hs, (hkept.lookup _ _).2 ⟨?_, rfl⟩, ?_, hrefused rfl, hrefused rfl,
    k, t, u, added, ht, hu, (hkt.lookup _ _).2 ⟨?_, rfl⟩, (hku.lookup _ _).2 ⟨?_, rfl⟩⟩
  · rw [hs]
    exact List.mem_cons_self
  · cases hl : s.lookup "s0" with
    | none => rfl
    | some v =>
        obtain ⟨hv, hn⟩ := (hkept.lookup _ _).1 hl
        rw [hs] at hv
        rw [List.mem_singleton.1 hv] at hn
        exact absurd hn (by decide)
  · rw [← hp, hcanon]
    simp
  · rw [hphase]
    simp

end Ledger

end LinProg
