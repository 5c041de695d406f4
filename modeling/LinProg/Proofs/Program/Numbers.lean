import Mathlib.Logic.Function.Basic
import LinProg.Proofs.Program.Ledger
import LinProg.Proofs.Program.Equations
import LinProg.Proofs.Program.Rows

namespace LinProg

variable {α : Type}

def LinExpr.numbers (e : LinExpr α) : List (ℕ × α) × α :=
  (e.terms.toList.map fun a => (a.1.index, a.2), e.constant)

def Constraint.numbers (c : Constraint α) : (List (ℕ × α) × α) × Relation × α × ℕ :=
  (c.expr.numbers, c.relation, c.bound, c.index)

def Objective.numbers (o : Objective α) : (List (ℕ × α) × α) × Direction :=
  (o.expr.numbers, o.direction)

/-- Everything there is to a program but its name, its identity and the names of its variables. -/
def Program.numbers (p : Program α) :
    ℕ × List ((List (ℕ × α) × α) × Relation × α × ℕ) ×
      Option ((List (ℕ × α) × α) × Direction) :=
  (p.vars.length, p.constraints.map (·.numbers), p.objective.map (·.numbers))

def places (added : List (Var × ℕ)) : List (ℕ × ℕ) := added.map fun e => (e.1.index, e.2)

theorem map_eq_of_factorsThrough {β γ δ : Type} {f : β → γ} {g : β → δ}
    (h : g.FactorsThrough f) {l m : List β} (hlm : l.map f = m.map f) : l.map g = m.map g := by
  induction l generalizing m with
  | nil =>
      obtain rfl := List.map_eq_nil_iff.1 hlm.symm
      rfl
  | cons a l ih =>
      obtain ⟨b, m, rfl, hb, hm⟩ := List.map_eq_cons_iff.1 hlm.symm
      rw [List.map_cons, List.map_cons, h hb.symm, ih hm.symm]

namespace LinExpr

variable [Scalar α] {e f : LinExpr α}

theorem numbers_scale (e : LinExpr α) (k : α) :
    (e.scale k).numbers = (e.numbers.1.map fun a => (a.1, a.2 * k), e.numbers.2 * k) := by
  simp [numbers, scale, Terms.scale]

theorem numbers_simplify (e : LinExpr α) :
    e.simplify.numbers = (e.numbers.1.filter fun a => a.2 != 0, e.numbers.2) := by
  rw [numbers, numbers, List.filter_map]
  rfl

theorem insert_eq_append {v : Var} {c : α} {ts : List (Var × α)}
    (h : ∀ a ∈ ts, a.1.index < v.index) : Terms.insert v c ts = ts ++ [(v, 0 + c)] := by
  induction ts with
  | nil => rfl
  | cons a ts ih =>
      obtain ⟨w, d⟩ := a
      have hlt : w.index < v.index := h (w, d) List.mem_cons_self
      have hwv : w < v := .inl hlt
      have hvw : ¬ v < w := by rw [Var.lt_iff]; omega
      rw [Terms.insert, if_neg hvw, if_pos hwv, ih fun a ha => h a (List.mem_cons_of_mem _ ha)]
      rfl

theorem numbers_addVar {v : Var} (h : e.Within v.index) :
    (e.addVar v).numbers = (e.numbers.1 ++ [(v.index, 0 + 1)], e.numbers.2) := by
  rw [numbers, addVar, Terms.add]
  simp only [insert_eq_append h, List.map_append, List.map_cons, List.map_nil, numbers]

theorem numbers_subVar {v : Var} (h : e.Within v.index) :
    (e.subVar v).numbers = (e.numbers.1 ++ [(v.index, 0 + -1)], e.numbers.2) := by
  rw [numbers, subVar, Terms.add]
  simp only [insert_eq_append h, List.map_append, List.map_cons, List.map_nil, numbers]

theorem dense_eq_of_numbers (h : e.numbers = f.numbers) (n : ℕ) : e.dense n = f.dense n := by
  have hd (e : LinExpr α) : e.dense n = (List.range n).map fun j =>
      e.numbers.1.foldl (fun s a => if a.1 = j then s + a.2 else s) 0 := by
    simp only [dense, numbers, List.foldl_map]
  rw [hd, hd, h]

end LinExpr

namespace Constraint

variable [Scalar α] {c d : Constraint α}

theorem numbers_simplify (h : c.numbers = d.numbers) : c.simplify.numbers = d.simplify.numbers := by
  obtain ⟨he, hr, hb, hi⟩ := by simpa only [numbers, Prod.mk.injEq] using h
  simp only [numbers, simplify, LinExpr.numbers_simplify, he, hr, hb, hi]

theorem numbers_orient (h : c.numbers = d.numbers) : c.orient.numbers = d.orient.numbers := by
  obtain ⟨he, hr, hb, hi⟩ := by simpa only [numbers, Prod.mk.injEq] using h
  rw [orient, orient, hb]
  split
  · simp only [numbers, invert, LinExpr.numbers_scale, he, hr, hb, hi]
  · exact h

end Constraint

namespace Objective

variable [Scalar α] {o o' : Objective α}

theorem numbers_simplify (h : o.numbers = o'.numbers) : o.simplify.numbers = o'.simplify.numbers := by
  obtain ⟨he, hd⟩ := by simpa only [numbers, Prod.mk.injEq] using h
  simp only [numbers, simplify, LinExpr.numbers_simplify, he, hd]

theorem numbers_orient (h : o.numbers = o'.numbers) : o.orient.numbers = o'.orient.numbers := by
  obtain ⟨he, hd⟩ := by simpa only [numbers, Prod.mk.injEq] using h
  rw [orient, orient, hd]
  split
  · exact h
  · simp only [numbers, invert, LinExpr.numbers_scale, he, hd]

end Objective

namespace Auxiliary

/-- Whether the names play no part in which constraints want a variable and how it enters them. -/
structure Nameless (a : Auxiliary α) : Prop where
  wanted : ∀ i c d, c.numbers = d.numbers → a.wanted i c = a.wanted i d
  enter : ∀ c d u v, c.numbers = d.numbers → u.index = v.index → c.expr.Within u.index →
    d.expr.Within v.index → (a.enter c u).numbers = (a.enter d v).numbers

variable [Scalar α]

theorem slack_nameless : (slack : Auxiliary α).Nameless where
  wanted i c d h := by
    obtain ⟨-, hr, -⟩ := by simpa only [Constraint.numbers, Prod.mk.injEq] using h
    simp only [slack, hr]
  enter c d u v h hi hc hd := by
    obtain ⟨he, -, hb, hx⟩ := by simpa only [Constraint.numbers, Prod.mk.injEq] using h
    simp only [Constraint.numbers, slack, LinExpr.numbers_addVar hc, LinExpr.numbers_addVar hd, he,
      hi, hb, hx]

theorem surplus_nameless : (surplus : Auxiliary α).Nameless where
  wanted i c d h := by
    obtain ⟨-, hr, -⟩ := by simpa only [Constraint.numbers, Prod.mk.injEq] using h
    simp only [surplus, hr]
  enter c d u v h hi hc hd := by
    obtain ⟨he, -, hb, hx⟩ := by simpa only [Constraint.numbers, Prod.mk.injEq] using h
    simp only [Constraint.numbers, surplus, LinExpr.numbers_subVar hc, LinExpr.numbers_subVar hd,
      he, hi, hb, hx]

theorem artificial_nameless (covered : List ℕ) :
    (artificial covered : Auxiliary α).Nameless where
  wanted _ _ _ _ := rfl
  enter c d u v h hi hc hd := by
    obtain ⟨he, hr, hb, hx⟩ := by simpa only [Constraint.numbers, Prod.mk.injEq] using h
    simp only [Constraint.numbers, artificial, LinExpr.numbers_addVar hc,
      LinExpr.numbers_addVar hd, he, hi, hr, hb, hx]

end Auxiliary

theorem Entered.numbers_eq {a : Auxiliary α} (ha : a.Nameless) {id id' i n : ℕ}
    {cs ds cs' ds' : List (Constraint α)} {added added' : List (Var × ℕ)}
    (h : Entered a id i n cs ds added) (h' : Entered a id' i n cs' ds' added')
    (hcs : cs.map (·.numbers) = cs'.map (·.numbers)) (hw : ∀ c ∈ cs, c.expr.Within n)
    (hw' : ∀ c ∈ cs', c.expr.Within n) :
    ds.map (·.numbers) = ds'.map (·.numbers) ∧ places added = places added' := by
  induction h generalizing cs' ds' added' with
  | nil i n =>
      cases h' with
      | nil => exact ⟨rfl, rfl⟩
      | got | passed => cases hcs
  | @got i n c cs ds added name hwant _ ih =>
      cases h' with
      | nil => cases hcs
      | @got _ _ c' cs' ds' added' name' _ ht =>
          obtain ⟨hc, hcs⟩ := List.cons_eq_cons.1 hcs
          obtain ⟨hds, hadded⟩ := ih ht hcs
            (fun d hd => (hw d (List.mem_cons_of_mem _ hd)).mono (Nat.le_succ n))
            fun d hd => (hw' d (List.mem_cons_of_mem _ hd)).mono (Nat.le_succ n)
          have henter := ha.enter c c' ⟨name, n, id⟩ ⟨name', n, id'⟩ hc rfl
            (hw c List.mem_cons_self) (hw' c' List.mem_cons_self)
          exact ⟨List.cons_eq_cons.2 ⟨henter, hds⟩, List.cons_eq_cons.2 ⟨rfl, hadded⟩⟩
      | passed hnot _ =>
          obtain ⟨hc, -⟩ := List.cons_eq_cons.1 hcs
          exact absurd ((ha.wanted i _ _ hc).symm.trans hwant) hnot
  | @passed i n c cs ds added hnot _ ih =>
      cases h' with
      | nil => cases hcs
      | got name' hwant _ =>
          obtain ⟨hc, -⟩ := List.cons_eq_cons.1 hcs
          exact absurd ((ha.wanted i _ _ hc).trans hwant) hnot
      | passed _ ht =>
          obtain ⟨hc, hcs⟩ := List.cons_eq_cons.1 hcs
          obtain ⟨hds, hadded⟩ := ih ht hcs (fun d hd => hw d (List.mem_cons_of_mem _ hd))
            fun d hd => hw' d (List.mem_cons_of_mem _ hd)
          exact ⟨List.cons_eq_cons.2 ⟨hc, hds⟩, hadded⟩

namespace Program

variable [Scalar α] {p q : Program α} {o o' : Objective α} {k l : Canonical α}

theorem Consistent.within_oriented (hp : p.Consistent) (ho : p.objective = some o) :
    ∀ c ∈ p.oriented, c.expr.Within p.vars.length := by
  have ho : p.simplify.objective = some o.simplify := by rw [Program.simplify, ho]; rfl
  have hcs : p.simplify.constraints.map Constraint.orient = p.oriented := by
    simp [Program.simplify, oriented]
  intro c hc
  exact within_of_owns ((hp.simplify.orient ho).constraints c (hcs ▸ hc))

theorem numbers_oriented (h : p.numbers = q.numbers) :
    p.oriented.map (·.numbers) = q.oriented.map (·.numbers) := by
  obtain ⟨-, hcs, -⟩ := by simpa only [numbers, Prod.mk.injEq] using h
  rw [oriented, oriented, List.map_map, List.map_map]
  refine map_eq_of_factorsThrough (fun c d hcd => ?_) hcs
  exact Constraint.numbers_orient (Constraint.numbers_simplify hcd)

omit [Scalar α] in
theorem objective_eq_none_iff (h : p.numbers = q.numbers) :
    p.objective = none ↔ q.objective = none := by
  obtain ⟨-, -, ho⟩ := by simpa only [numbers, Prod.mk.injEq] using h
  rw [← Option.map_eq_none_iff (f := Objective.numbers), ho, Option.map_eq_none_iff]

end Program

/-- Canonical forms with the same numbers, and the same rows for the variables that were added. -/
structure Canonical.SameNumbers (k l : Canonical α) : Prop where
  program : k.program.numbers = l.program.numbers
  slacks : places k.slacks = places l.slacks
  flipped : k.flipped = l.flipped
  left : ∀ c ∈ k.program.constraints, c.expr.Within k.program.vars.length
  right : ∀ c ∈ l.program.constraints, c.expr.Within l.program.vars.length

namespace Program

variable [Scalar α] {p q : Program α} {o o' : Objective α} {k l : Canonical α}

theorem HasCanonical.within_of_consistent (h : p.HasCanonical o k) (hp : p.Consistent)
    (ho : p.objective = some o) :
    ∀ c ∈ k.program.constraints, c.expr.Within k.program.vars.length := by
  obtain ⟨ds, hs, hu⟩ := h.entered
  have hw := hu.within_of_joins Auxiliary.surplus_joins
    (hs.within_of_joins Auxiliary.slack_joins (hp.within_oriented ho))
  have hl : k.program.vars.length = p.vars.length + k.slacks.length + k.surpluses.length := by
    simp [h.vars, Nat.add_assoc]
  rwa [← hl] at hw

theorem HasCanonical.sameNumbers (hk : p.HasCanonical o k) (hl : q.HasCanonical o' l)
    (hp : p.Consistent) (hq : q.Consistent) (ho : p.objective = some o)
    (ho' : q.objective = some o') (h : p.numbers = q.numbers) : k.SameNumbers l := by
  have hor := numbers_oriented h
  obtain ⟨hn, -, hobj⟩ := by simpa only [numbers, Prod.mk.injEq] using h
  have hobj : o.numbers = o'.numbers := by simpa [ho, ho'] using hobj
  obtain ⟨ds, hs, hu⟩ := hk.entered
  obtain ⟨es, ht, hv⟩ := hl.entered
  have hws := hs.within_of_joins Auxiliary.slack_joins (hp.within_oriented ho)
  have hwt := ht.within_of_joins Auxiliary.slack_joins (hq.within_oriented ho')
  rw [← hn] at ht hv hwt
  obtain ⟨hds, hslacks⟩ := hs.numbers_eq Auxiliary.slack_nameless ht hor (hp.within_oriented ho)
    (hn ▸ hq.within_oriented ho')
  have hlen : k.slacks.length = l.slacks.length := by
    simpa [places] using congrArg List.length hslacks
  rw [← hlen] at hv hwt
  obtain ⟨hcs, hsurpluses⟩ := hu.numbers_eq Auxiliary.surplus_nameless hv hds hws hwt
  have hlen' : k.surpluses.length = l.surpluses.length := by
    simpa [places] using congrArg List.length hsurpluses
  refine ⟨?_, hslacks, ?_, hk.within_of_consistent hp ho, hl.within_of_consistent hq ho'⟩
  · have hobj' := Objective.numbers_orient (Objective.numbers_simplify hobj)
    simp only [numbers, hk.vars, hl.vars, hk.objective, hl.objective, List.length_append,
      List.length_map, hn, hlen, hlen', hcs, Option.map_some, hobj']
  · rw [hk.flipped, hl.flipped, (Prod.mk.inj hobj).2]

end Program

namespace Canonical

variable [Scalar α] {k l : Canonical α}

omit [Scalar α] in
theorem SameNumbers.length_vars (h : k.SameNumbers l) :
    k.program.vars.length = l.program.vars.length := congrArg Prod.fst h.program

omit [Scalar α] in
theorem SameNumbers.constraints (h : k.SameNumbers l) :
    k.program.constraints.map (·.numbers) = l.program.constraints.map (·.numbers) :=
  congrArg (·.2.1) h.program

omit [Scalar α] in
theorem SameNumbers.needsPhaseOne_eq (h : k.SameNumbers l) :
    k.needsPhaseOne = l.needsPhaseOne := by
  have hs : k.slacks.length = l.slacks.length := by
    simpa [places] using congrArg List.length h.slacks
  have hc : k.program.constraints.length = l.program.constraints.length := by
    simpa using congrArg List.length h.constraints
  rw [needsPhaseOne, needsPhaseOne, hs, hc]

theorem SameNumbers.artificials (h : k.SameNumbers l) {p q : Program α}
    {added added' : List (Var × ℕ)} (hp : k.HasArtificials p added)
    (hq : l.HasArtificials q added') :
    p.vars.length = q.vars.length ∧
      p.constraints.map (·.numbers) = q.constraints.map (·.numbers) ∧
      places added = places added' := by
  have hcovered : k.slacks.map (·.2) = l.slacks.map (·.2) := by
    simpa [places, Function.comp_def] using congrArg (List.map (·.2)) h.slacks
  have he := hq.entered
  rw [← hcovered, ← h.length_vars] at he
  obtain ⟨hcs, hadded⟩ := hp.entered.numbers_eq (Auxiliary.artificial_nameless _) he h.constraints
    h.left (h.length_vars ▸ h.right)
  refine ⟨?_, hcs, hadded⟩
  have hlen : added.length = added'.length := by simpa [places] using congrArg List.length hadded
  rw [hp.vars, hq.vars, List.length_append, List.length_append, List.length_map, List.length_map,
    h.length_vars, hlen]

end Canonical

namespace Program

variable [Scalar α] {p q : Program α} {added added' : List (Var × ℕ)}

theorem rows_eq_of_numbers (hn : p.vars.length = q.vars.length)
    (hcs : p.constraints.map (·.numbers) = q.constraints.map (·.numbers)) : p.rows = q.rows := by
  rw [rows, rows, hn]
  refine map_eq_of_factorsThrough (fun c d h => ?_) hcs
  obtain ⟨he, -, hb, -⟩ := by simpa only [Constraint.numbers, Prod.mk.injEq] using h
  rw [hb, LinExpr.dense_eq_of_numbers he]

theorem objectiveRow_eq_of_numbers (h : p.numbers = q.numbers) :
    p.objectiveRow = q.objectiveRow := by
  obtain ⟨hn, -, ho⟩ := by simpa only [numbers, Prod.mk.injEq] using h
  have hneg {e f : LinExpr α} (he : e.numbers = f.numbers) : (-e).numbers = (-f).numbers := by
    change (e.scale (-1)).numbers = (f.scale (-1)).numbers
    rw [LinExpr.numbers_scale, LinExpr.numbers_scale, he]
  rw [objectiveRow, objectiveRow, hn]
  cases hp : p.objective with
  | none =>
      rw [(objective_eq_none_iff h).1 hp]
  | some o =>
      cases hq : q.objective with
      | none => rw [(objective_eq_none_iff h).2 hq] at hp; cases hp
      | some o' =>
          have ho : o.numbers = o'.numbers := by simpa [hp, hq] using ho
          have he : o.expr.numbers = o'.expr.numbers := (Prod.mk.inj ho).1
          have hconst : o.expr.constant = o'.expr.constant := congrArg Prod.snd he
          simp only [LinExpr.dense_eq_of_numbers (hneg he), hconst]

theorem phaseOneRow_eq_of_numbers (hn : p.vars.length = q.vars.length)
    (hcs : p.constraints.map (·.numbers) = q.constraints.map (·.numbers))
    (hadded : places added = places added') : p.phaseOneRow added = q.phaseOneRow added' := by
  have hplaces (p : Program α) (added : List (Var × ℕ)) : p.phaseOneRow added =
      (places added).foldl (fun o a => p.rows[a.2]?.elim o (o.addScaled (-1)))
        ⟨(List.range p.vars.length).map fun j =>
          if (places added).any fun a => a.1 == j then 1 else 0, 0⟩ := by
    rw [phaseOneRow_eq, artificialRow, places, List.foldl_map]
    simp only [List.any_map]
    rfl
  rw [hplaces, hplaces, rows_eq_of_numbers hn hcs, hn, hadded]

end Program

end LinProg
