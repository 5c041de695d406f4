import Std.Data.HashMap.Lemmas
import LinProg.Proofs.Program.Canonical

namespace LinProg

/-- A program together with the table in which its variables are looked up by name. -/
structure Ledger (α : Type) where
  program : Program α
  places : Std.HashMap String ℕ

/-- A computation that changes a ledger in place. Where it fails, the changes made so far stay. -/
def Edit (α β : Type) := Ledger α → Except Fault β × Ledger α

namespace Edit

variable {α β γ : Type}

instance : Monad (Edit α) where
  pure b s := (.ok b, s)
  bind x f s := match x s with
    | (.ok b, t) => f b t
    | (.error e, t) => (.error e, t)

instance : MonadLift (Except Fault) (Edit α) := ⟨fun r s => (r, s)⟩

def get : Edit α (Ledger α) := fun s => (.ok s, s)

def modify (f : Ledger α → Ledger α) : Edit α Unit := fun s => (.ok (), f s)

def fail (e : Fault) : Edit α β := fun s => (.error e, s)

theorem bind_of_ok {x : Edit α β} {f : β → Edit α γ} {s t : Ledger α} {b : β}
    (h : x s = (.ok b, t)) : (x >>= f) s = f b t := by
  change (match x s with
    | (.ok b, t) => f b t
    | (.error e, t) => (.error e, t)) = _
  rw [h]

theorem bind_of_error {x : Edit α β} {f : β → Edit α γ} {s t : Ledger α} {e : Fault}
    (h : x s = (.error e, t)) : (x >>= f) s = (.error e, t) := by
  change (match x s with
    | (.ok b, t) => f b t
    | (.error e, t) => (.error e, t)) = _
  rw [h]

end Edit

variable {α : Type}

namespace Ledger

open Edit

def new (name : String) (id : ℕ) : Ledger α := ⟨.new name id, ∅⟩

def lookup (s : Ledger α) (name : String) : Option Var :=
  s.places[name]?.bind fun i => s.program.vars[i]?

def createVariable (name : String) : Edit α Var := do
  let s ← get
  if s.places.contains name then fail (.duplicateVariable name)
  else do
    let v : Var := ⟨name, s.program.vars.length, s.program.id⟩
    modify fun s => { s with places := s.places.insert name v.index }
    modify fun s => { s with program.vars := s.program.vars ++ [v] }
    return v

def revise (e : LinExpr α) (f : Program α → Program α) : Edit α Unit := do
  let s ← get
  s.program.checkOwned e
  modify fun s => { s with program := f s.program }

def addConstraint (c : Constraint α) : Edit α Unit :=
  revise c.expr fun p =>
    { p with constraints := p.constraints ++ [{ c with index := p.constraints.length }] }

def setObjective (o : Objective α) : Edit α Unit :=
  revise o.expr fun p => { p with objective := some o }

def simplify [Scalar α] : Edit α Unit := do
  modify fun s => { s with program.objective := s.program.objective.map .simplify }
  modify fun s => { s with program.constraints := s.program.constraints.map .simplify }

def freshName (s : Ledger α) (base : String) : String :=
  let free k := (s.lookup (candidateName base k)).isNone
  candidateName base (((List.range (s.program.vars.length + 1)).find? free).getD 0)

def augmentRow (a : Auxiliary α) (i : ℕ) : Edit α (List (Var × ℕ)) := do
  let s ← get
  match s.program.constraints[i]? with
  | none => return []
  | some c =>
    if a.wanted i c then do
      let v ← createVariable (s.freshName s!"{a.letter}{i}")
      modify fun s =>
        { s with program.constraints := s.program.constraints.set i (a.enter c v) }
      return [(v, i)]
    else return []

def augmentRows (a : Auxiliary α) : List ℕ → Edit α (List (Var × ℕ))
  | [] => return []
  | i :: is => do
    let added ← augmentRow a i
    let rest ← augmentRows a is
    return added ++ rest

def augment (a : Auxiliary α) : Edit α (List (Var × ℕ)) := do
  let s ← get
  augmentRows a (List.range s.program.constraints.length)

def canonicalize [Scalar α] :
    Edit α (List (Var × ℕ) × List (Var × ℕ) × Bool) := do
  simplify
  let s ← get
  match s.program.objective with
  | none => fail .missingObjective
  | some o => do
    modify fun s => { s with program.objective := some o.orient }
    modify fun s => { s with program.constraints := s.program.constraints.map .orient }
    let slacks ← augment .slack
    let surpluses ← augment .surplus
    return (slacks, surpluses, o.direction == .min)

/-- What every operation keeps: the program is consistent, and the table has the position of each
name. -/
structure Sound (s : Ledger α) : Prop extends s.program.Consistent where
  places : ∀ name, s.places[name]? = s.program.vars.findIdx? fun v => v.name == name

variable {s t : Ledger α} {name : String} {v : Var}

theorem Sound.lookup_eq_var? (h : s.Sound) (name : String) :
    s.lookup name = s.program.var? name := by
  rw [lookup, h.places, Program.var?, List.find?_eq_bind_findIdx?_getElem?]

theorem Sound.lookup_eq_some_iff (h : s.Sound) :
    s.lookup name = some v ↔ v ∈ s.program.vars ∧ v.name = name := by
  rw [h.lookup_eq_var?, Program.var?]
  constructor
  · intro hv
    exact ⟨List.mem_of_find?_eq_some hv, by simpa using List.find?_some hv⟩
  · rintro ⟨hv, rfl⟩
    cases hw : s.program.vars.find? fun w => w.name == v.name with
    | none => exact absurd (List.find?_eq_none.1 hw v hv) (by simp)
    | some w =>
        have hn : w.name = v.name := by simpa using List.find?_some hw
        rw [List.inj_on_of_nodup_map h.names (List.mem_of_find?_eq_some hw) hv hn]

theorem sound_new (name : String) (id : ℕ) : (new name id : Ledger α).Sound where
  toConsistent := Program.consistent_new name id
  places _ := Std.HashMap.getElem?_empty

theorem createVariable_eq (h : s.Sound) (name : String) :
    createVariable name s = match s.program.addVariable name with
      | .ok (v, p) => (.ok v, ⟨p, s.places.insert name v.index⟩)
      | .error e => (.error e, s) := by
  have hc : s.places.contains name = (s.program.var? name).isSome := by
    rw [Std.HashMap.contains_eq_isSome_getElem?, h.places, Program.var?,
      List.findIdx?_isSome, List.isSome_find?]
  change (if s.places.contains name then fail (.duplicateVariable name) else _ : Edit α Var) s = _
  rw [Program.addVariable, hc]
  cases (s.program.var? name).isSome with
  | true => rfl
  | false => rfl

theorem revise_eq (e : LinExpr α) (f : Program α → Program α) (s : Ledger α) :
    revise e f s = match s.program.checkOwned e with
      | .ok _ => (.ok (), { s with program := f s.program })
      | .error e => (.error e, s) := by
  change (liftM (s.program.checkOwned e) >>= _ : Edit α Unit) s = _
  cases s.program.checkOwned e with
  | ok u => rfl
  | error e => rfl

theorem Sound.of_vars (h : s.Sound) {p : Program α} (hp : p.Consistent)
    (hv : p.vars = s.program.vars) : (⟨p, s.places⟩ : Ledger α).Sound where
  toConsistent := hp
  places name := hv ▸ h.places name

theorem Sound.createVariable (h : s.Sound) {p : Program α}
    (ha : s.program.addVariable name = .ok (v, p)) :
    (⟨p, s.places.insert name v.index⟩ : Ledger α).Sound where
  toConsistent := h.toConsistent.addVariable ha
  places other := by
    obtain ⟨hn, rfl, rfl⟩ := Program.addVariable_eq ha
    rw [Std.HashMap.getElem?_insert, h.places, List.findIdx?_append, List.findIdx?_singleton]
    by_cases he : name = other
    · subst he
      have hnone : s.program.vars.findIdx? (fun v => v.name == name) = none := by
        refine List.findIdx?_eq_none_iff.2 fun v hv => ?_
        exact beq_false_of_ne fun he => hn (he ▸ List.mem_map_of_mem hv)
      rw [hnone]
      simp
    · simp [he]

end Ledger

namespace Program

variable {p : Program α} {c d : Constraint α} {i : ℕ}

theorem Consistent.set (hp : p.Consistent) (hc : p.constraints[i]? = some c)
    (hi : d.index = c.index) (hd : ∀ v ∈ d.expr.vars, p.owns v) :
    ({ p with constraints := p.constraints.set i d } : Program α).Consistent where
  position := hp.position
  names := hp.names
  row k hk := by
    have hk' : k < p.constraints.length := by simpa using hk
    obtain ⟨hlt, rfl⟩ := List.getElem?_eq_some_iff.1 hc
    rw [List.getElem_set]
    split
    · next he => exact he ▸ hi.trans (hp.row i hlt)
    · exact hp.row k hk'
  constraints e he v hv := by
    rcases List.mem_or_eq_of_mem_set he with he | rfl
    · exact hp.constraints e he v hv
    · exact hd v hv
  objective := hp.objective

theorem Consistent.map (hp : p.Consistent) {f : Constraint α → Constraint α}
    (hi : ∀ c, (f c).index = c.index) (hf : ∀ c, (f c).expr.vars ⊆ c.expr.vars) :
    ({ p with constraints := p.constraints.map f } : Program α).Consistent where
  position := hp.position
  names := hp.names
  row k hk := by
    rw [List.getElem_map, hi]
    exact hp.row k (by simpa using hk)
  constraints e he v hv := by
    obtain ⟨c, hc, rfl⟩ := List.mem_map.1 he
    exact hp.constraints c hc v (hf c hv)
  objective := hp.objective

end Program

namespace Ledger

variable {s t : Ledger α} {a : Auxiliary α} {i : ℕ} {c : Constraint α}

theorem Sound.freshName_eq (h : s.Sound) (base : String) :
    s.freshName base = s.program.freshName base := by
  simp only [freshName, Program.freshName, h.lookup_eq_var?]

theorem Sound.createVariable_freshName (h : s.Sound) (base : String) :
    let v : Var := ⟨s.program.freshName base, s.program.vars.length, s.program.id⟩
    Ledger.createVariable (s.program.freshName base) s = (.ok v,
      ⟨{ s.program with vars := s.program.vars ++ [v] }, s.places.insert v.name v.index⟩) := by
  intro v
  rw [createVariable_eq h, s.program.addVariable_freshName]

theorem augmentRow_eq (h : s.Sound) (a : Auxiliary α) (hc : s.program.constraints[i]? = some c) :
    let v : Var :=
      ⟨s.program.freshName s!"{a.letter}{i}", s.program.vars.length, s.program.id⟩
    augmentRow a i s = if a.wanted i c then
        (.ok [(v, i)], ⟨{ s.program with
          vars := s.program.vars ++ [v]
          constraints := s.program.constraints.set i (a.enter c v) },
          s.places.insert v.name v.index⟩)
      else (.ok [], s) := by
  intro v
  change (match s.program.constraints[i]? with
    | none => pure []
    | some c => if a.wanted i c then _ else pure [] : Edit α (List (Var × ℕ))) s = _
  rw [hc]
  dsimp only
  split
  · rw [h.freshName_eq]
    exact Edit.bind_of_ok (h.createVariable_freshName _)
  · rfl

theorem augmentRow_of_wanted (h : s.Sound) (ha : a.Joins) (hc : s.program.constraints[i]? = some c)
    (hw : a.wanted i c) :
    let v : Var :=
      ⟨s.program.freshName s!"{a.letter}{i}", s.program.vars.length, s.program.id⟩
    ∃ t, augmentRow a i s = (.ok [(v, i)], t) ∧ t.Sound ∧ t.program = { s.program with
      vars := s.program.vars ++ [v], constraints := s.program.constraints.set i (a.enter c v) } := by
  intro v
  have hs := h.createVariable (s.program.addVariable_freshName s!"{a.letter}{i}")
  have hown (u : Var) (hu : u ∈ (a.enter c v).expr.vars) :
      ({ s.program with vars := s.program.vars ++ [v] } : Program α).owns u := by
    rcases ha.vars c v u hu with hu | rfl
    · obtain ⟨ho, hi⟩ := Program.owns_iff.1 (h.constraints c (List.mem_of_getElem? hc) u hu)
      exact Program.owns_iff.2 ⟨ho, by rw [List.length_append]; exact Nat.lt_add_right _ hi⟩
    · exact Program.owns_iff.2 ⟨rfl, by simp [v]⟩
  refine ⟨⟨_, s.places.insert v.name v.index⟩, ?_,
    hs.of_vars (hs.toConsistent.set hc (ha.index c v) hown) rfl, rfl⟩
  rw [augmentRow_eq h a hc, if_pos hw]

theorem augmentRow_of_not_wanted (h : s.Sound) (hc : s.program.constraints[i]? = some c)
    (hw : ¬ a.wanted i c) : augmentRow a i s = (.ok [], s) := by
  rw [augmentRow_eq h a hc, if_neg hw]

/-- Walking the rows in place does what `Program.augmentFrom` does to the constraints that are
still ahead. -/
theorem augmentRows_eq (ha : a.Joins) {cs done : List (Constraint α)} (h : s.Sound)
    (hcs : s.program.constraints = done ++ cs) {p : Program α} (hv : p.vars = s.program.vars)
    (hid : p.id = s.program.id) :
    ∃ added ds t, augmentRows a (List.range' done.length cs.length) s = (.ok added, t) ∧ t.Sound ∧
      p.augmentFrom a done.length cs = .ok ({ p with vars := t.program.vars }, ds, added) ∧
      t.program = { s.program with vars := t.program.vars, constraints := done ++ ds } := by
  induction cs generalizing s done p with
  | nil =>
      refine ⟨[], [], s, rfl, h, ?_, ?_⟩
      · rw [Program.augmentFrom, ← hv]
      · rw [← hcs]
  | cons c cs ih =>
      have hc : s.program.constraints[done.length]? = some c := by simp [hcs]
      rw [List.length_cons, List.range'_succ, augmentRows, Program.augmentFrom]
      by_cases hw : a.wanted done.length c
      · obtain ⟨t, ht, hs, hp⟩ := augmentRow_of_wanted h ha hc hw
        set v : Var := ⟨s.program.freshName s!"{a.letter}{done.length}", s.program.vars.length,
          s.program.id⟩
        have hvar : (⟨p.freshName s!"{a.letter}{done.length}", p.vars.length, p.id⟩ : Var) = v := by
          simp only [Program.freshName, Program.var?, hv, hid, v]
        have hcs' : t.program.constraints = (done ++ [a.enter c v]) ++ cs := by
          simp [hp, hcs]
        obtain ⟨added, ds, u, hu, hsu, haug, hpu⟩ :=
          ih hs hcs' (p := { p with vars := p.vars ++ [v] }) (by simp [hp, hv]) (by simp [hp, hid])
        rw [List.length_append, List.length_singleton] at hu haug
        refine ⟨(v, done.length) :: added, a.enter c v :: ds, u, ?_, hsu, ?_, ?_⟩
        · rw [Edit.bind_of_ok ht, Edit.bind_of_ok hu]
          rfl
        · rw [if_pos hw, Program.addVariable_freshName, hvar]
          change Except.bind (Program.augmentFrom a _ _ cs) _ = _
          rw [haug]
          rfl
        · rw [hpu, hp]
          simp
      · have hcs' : s.program.constraints = (done ++ [c]) ++ cs := by simp [hcs]
        obtain ⟨added, ds, u, hu, hsu, haug, hpu⟩ := ih h hcs' hv hid
        rw [List.length_append, List.length_singleton] at hu haug
        refine ⟨added, c :: ds, u, ?_, hsu, ?_, ?_⟩
        · rw [Edit.bind_of_ok (augmentRow_of_not_wanted h hc hw), Edit.bind_of_ok hu]
          rfl
        · rw [if_neg hw, haug]
          rfl
        · rw [hpu]
          simp

theorem augment_eq (h : s.Sound) (ha : a.Joins) :
    ∃ added t, augment a s = (.ok added, t) ∧ t.Sound ∧
      s.program.augment a = .ok (t.program, added) := by
  obtain ⟨added, ds, t, ht, hs, haug, hp⟩ :=
    augmentRows_eq ha h (List.nil_append s.program.constraints).symm rfl rfl
  refine ⟨added, t, ?_, hs, ?_⟩
  · rw [← ht, List.length_nil, ← List.range_eq_range']
    rfl
  · rw [hp, Program.augment]
    change Except.bind (s.program.augmentFrom a 0 s.program.constraints) _ = _
    rw [List.length_nil] at haug
    rw [haug]
    rfl

end Ledger

namespace Program

variable [Scalar α] {p : Program α}

theorem Consistent.orient (hp : p.Consistent) {o : Objective α} (ho : p.objective = some o) :
    ({ p with
      objective := some o.orient
      constraints := p.constraints.map Constraint.orient } : Program α).Consistent := by
  have hinvert (e : LinExpr α) : (e.scale (-1)).vars ⊆ e.vars :=
    e.vars_scale (-1) ▸ List.Subset.refl _
  have hc := hp.map (f := Constraint.orient) (fun c => by unfold Constraint.orient; split <;> rfl)
    fun c => by
      unfold Constraint.orient
      split
      · exact hinvert c.expr
      · exact List.Subset.refl _
  refine ⟨hc.position, hc.names, hc.row, hc.constraints, ?_⟩
  rintro o' ho' v hv
  obtain rfl := Option.some.inj ho'
  refine hp.objective o ho v ?_
  unfold Objective.orient at hv
  split at hv
  · exact hv
  · exact hinvert o.expr hv

theorem canonical?_of_augment {q r : Program α} {o : Objective α}
    {slacks surpluses : List (Var × ℕ)} (ho : p.simplify.objective = some o)
    (hs : Program.augment { p.simplify with
      objective := some o.orient
      constraints := p.simplify.constraints.map Constraint.orient } .slack = .ok (q, slacks))
    (hu : q.augment .surplus = .ok (r, surpluses)) :
    p.canonical? = .ok ⟨r, slacks, surpluses, o.direction == .min⟩ := by
  rw [canonical?]
  simp only [ho]
  change Except.bind (augment _ .slack) _ = _
  rw [hs]
  change Except.bind (augment _ .surplus) _ = _
  rw [hu]
  rfl

end Program

namespace Ledger

variable [Scalar α] {s : Ledger α} {o : Objective α}

theorem canonicalize_eq (h : s.Sound) (ho : s.program.objective = some o) :
    ∃ slacks surpluses t, canonicalize s = (.ok (slacks, surpluses, o.direction == .min), t) ∧
      t.Sound ∧ s.program.canonical? = .ok ⟨t.program, slacks, surpluses, o.direction == .min⟩ := by
  have ho' : s.program.simplify.objective = some o.simplify := by rw [Program.simplify, ho]; rfl
  have hp := h.toConsistent.simplify.orient ho'
  obtain ⟨slacks, t, ht, hst, haug⟩ := augment_eq (h.of_vars hp rfl) Auxiliary.slack_joins
  obtain ⟨surpluses, u, hu, hsu, haug'⟩ := augment_eq hst Auxiliary.surplus_joins
  refine ⟨slacks, surpluses, u, ?_, hsu, ?_⟩
  · change (match s.program.simplify.objective with
      | none => Edit.fail .missingObjective
      | some o => do
        Edit.modify fun s => { s with program.objective := some o.orient }
        Edit.modify fun s => { s with program.constraints := s.program.constraints.map .orient }
        let slacks ← augment .slack
        let surpluses ← augment .surplus
        pure (slacks, surpluses, o.direction == .min) :
      Edit α (List (Var × ℕ) × List (Var × ℕ) × Bool)) ⟨s.program.simplify, s.places⟩ = _
    rw [ho']
    exact (Edit.bind_of_ok ht).trans (Edit.bind_of_ok hu)
  · exact (Program.canonical?_of_augment ho' haug haug').trans rfl

end Ledger

end LinProg
