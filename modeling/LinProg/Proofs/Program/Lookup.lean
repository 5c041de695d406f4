import LinProg.Proofs.Program.Ledger

namespace LinProg

/-- A computation that may end with a fault, and that is stuck where an index points past the
end. -/
abbrev Guarded (β : Type) := ExceptT Fault Option β

namespace Guarded

variable {β γ : Type}

def of (r : Except Fault β) : Guarded β := ExceptT.mk (some r)

@[simp]
theorem lift_some_bind (b : β) (f : β → Guarded γ) : (liftM (some b) : Guarded β) >>= f = f b := rfl

@[simp]
theorem of_ok_bind (b : β) (f : β → Guarded γ) : of (.ok b) >>= f = f b := rfl

end Guarded

namespace Ledger

variable {α : Type}

def find? (s : Ledger α) (name : String) : Option (Option Var) :=
  match s.places[name]? with
  | some i => s.program.vars[i]?.map some
  | none => some none

def freshName? (s : Ledger α) (base : String) : Option String := do
  let k ← (List.range (s.program.vars.length + 1)).findM? fun k => do
    return (← s.find? (candidateName base k)).isNone
  return candidateName base (← k)

def create? (s : Ledger α) (name : String) : Guarded (Var × Ledger α) :=
  .of ((createVariable name s).1.map fun v => (v, (createVariable name s).2))

def augmentRow? (a : Auxiliary α) (s : Ledger α) (i : ℕ) :
    Guarded (List (Var × ℕ) × Ledger α) := do
  let c ← (s.program.constraints[i]? : Option (Constraint α))
  if a.wanted i c then
    let (v, s) ← s.create? (← s.freshName? s!"{a.letter}{i}")
    let c ← (s.program.constraints[i]? : Option (Constraint α))
    return ([(v, i)],
      { s with program.constraints := s.program.constraints.set i (a.enter c v) })
  else return ([], s)

def augment? (a : Auxiliary α) (s : Ledger α) : Guarded (List (Var × ℕ) × Ledger α) :=
  (List.range s.program.constraints.length).foldlM (fun x i => do
    let (added, s) ← x.2.augmentRow? a i
    return (x.1 ++ added, s)) ([], s)

def canonicalize? [Scalar α] (s : Ledger α) :
    Guarded (List (Var × ℕ) × List (Var × ℕ) × Bool × Ledger α) := do
  let s := { s with program := s.program.simplify }
  match s.program.objective with
  | none => throw .missingObjective
  | some o =>
    let s := { s with
      program.objective := some o.orient
      program.constraints := s.program.constraints.map .orient }
    let (slacks, s) ← s.augment? .slack
    let (surpluses, s) ← s.augment? .surplus
    return (slacks, surpluses, o.direction == .min, s)

variable {s t : Ledger α} {a : Auxiliary α} {i : ℕ} {c : Constraint α} {name : String}

theorem Sound.find?_eq (h : s.Sound) (name : String) : s.find? name = some (s.lookup name) := by
  rw [find?, lookup]
  cases hi : s.places[name]? with
  | none => rfl
  | some i =>
      rw [h.places] at hi
      have hlt := (List.findIdx?_eq_some_iff_getElem.1 hi).1
      simp [hlt]

theorem Sound.freshName?_eq (h : s.Sound) (base : String) :
    s.freshName? base = some (s.program.freshName base) := by
  have hfree : (fun k => do return (← s.find? (candidateName base k)).isNone) =
      fun k => (pure (s.program.var? (candidateName base k)).isNone : Option Bool) := by
    funext k
    rw [h.find?_eq, h.lookup_eq_var?]
    rfl
  obtain ⟨k, hk⟩ := s.program.exists_find?_free base
  rw [freshName?, hfree, List.findM?_pure, hk, Program.freshName, hk]
  rfl

theorem augmentRow?_eq (h : s.Sound) (a : Auxiliary α) (hi : i < s.program.constraints.length) :
    s.augmentRow? a i =
      .of ((augmentRow a i s).1.map fun added => (added, (augmentRow a i s).2)) := by
  have hc := List.getElem?_eq_getElem hi
  have hcreate := h.createVariable_freshName s!"{a.letter}{i}"
  rw [augmentRow_eq h a hc]
  simp only [augmentRow?, hc, Guarded.lift_some_bind, h.freshName?_eq, create?, hcreate, Except.map,
    Guarded.of_ok_bind]
  split
  · rfl
  · rfl

theorem augmentRow_ok (h : s.Sound) (ha : a.Joins) (hi : i < s.program.constraints.length) :
    ∃ added t, augmentRow a i s = (.ok added, t) ∧ t.Sound ∧
      t.program.constraints.length = s.program.constraints.length := by
  have hc := List.getElem?_eq_getElem hi
  by_cases hw : a.wanted i s.program.constraints[i]
  · obtain ⟨t, ht, hs, hp⟩ := augmentRow_of_wanted h ha hc hw
    exact ⟨_, t, ht, hs, by simp [hp]⟩
  · exact ⟨[], s, augmentRow_of_not_wanted h hc hw, h, rfl⟩

theorem foldlM_augmentRow? (ha : a.Joins) {l : List ℕ} (h : s.Sound)
    (hl : ∀ i ∈ l, i < s.program.constraints.length) (added : List (Var × ℕ)) :
    (l.foldlM (fun x i => do
      let (added, s) ← x.2.augmentRow? a i
      return (x.1 ++ added, s)) (added, s) : Guarded (List (Var × ℕ) × Ledger α)) =
      .of ((augmentRows a l s).1.map fun new => (added ++ new, (augmentRows a l s).2)) := by
  induction l generalizing s added with
  | nil =>
      change _ = Guarded.of (.ok (added ++ [], s))
      rw [List.append_nil]
      rfl
  | cons i l ih =>
      obtain ⟨new, t, ht, hst, hlen⟩ := augmentRow_ok h ha (hl i List.mem_cons_self)
      have hrest := ih hst (fun j hj => hlen ▸ hl j (List.mem_cons_of_mem i hj)) (added ++ new)
      rw [List.foldlM_cons, augmentRow?_eq h a (hl i List.mem_cons_self), augmentRows,
        Edit.bind_of_ok ht, ht]
      refine hrest.trans ?_
      cases hr : augmentRows a l t with
      | mk r u =>
          cases r with
          | ok rest =>
              rw [Edit.bind_of_ok hr]
              exact congrArg (fun l => Guarded.of (.ok (l, u))) (List.append_assoc added new rest)
          | error e =>
              rw [Edit.bind_of_error hr]
              rfl

theorem augment?_eq (h : s.Sound) (ha : a.Joins) :
    ∃ added t, s.augment? a = .of (.ok (added, t)) ∧ t.Sound ∧
      s.program.augment a = .ok (t.program, added) := by
  obtain ⟨added, t, ht, hs, haug⟩ := augment_eq h ha
  have hfold := foldlM_augmentRow? ha h (fun i hi => List.mem_range.1 hi) []
  change augmentRows a (List.range s.program.constraints.length) s = _ at ht
  rw [ht] at hfold
  exact ⟨added, t, hfold, hs, haug⟩

variable [Scalar α] {o : Objective α}

theorem canonicalize?_none (ho : s.program.objective = none) :
    s.canonicalize? = .of (.error .missingObjective) := by
  have ho : s.program.simplify.objective = none := by rw [Program.simplify, ho]; rfl
  rw [canonicalize?]
  simp only [ho]
  rfl

theorem canonicalize?_eq (h : s.Sound) (ho : s.program.objective = some o) :
    ∃ k t, s.canonicalize? = .of (.ok (k.slacks, k.surpluses, k.flipped, t)) ∧ t.Sound ∧
      t.program = k.program ∧ s.program.canonical? = .ok k := by
  have ho' : s.program.simplify.objective = some o.simplify := by rw [Program.simplify, ho]; rfl
  have hp := h.toConsistent.simplify.orient ho'
  obtain ⟨slacks, t, ht, hst, haug⟩ := augment?_eq (h.of_vars hp rfl) Auxiliary.slack_joins
  obtain ⟨surpluses, u, hu, hsu, haug'⟩ := augment?_eq hst Auxiliary.surplus_joins
  refine ⟨⟨u.program, slacks, surpluses, o.direction == .min⟩, u, ?_, hsu, rfl, ?_⟩
  · simp only [canonicalize?, ho', ht, hu, Guarded.of_ok_bind]
    rfl
  · exact (Program.canonical?_of_augment ho' haug haug').trans rfl

end Ledger

end LinProg
