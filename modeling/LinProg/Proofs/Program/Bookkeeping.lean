import LinProg.Proofs.Program.Completion
import LinProg.Proofs.Program.Numbers
import LinProg.Proofs.Program.Rewritten

namespace LinProg

section Consistent

variable {α : Type}

theorem Ledger.exists_sound {p : Program α} (hp : p.Consistent) :
    ∃ places, (⟨p, places⟩ : Ledger α).Sound := by
  have htable (vars : List Var) (hn : (vars.map (·.name)).Nodup) :
      ∃ m : Std.HashMap String ℕ, ∀ name, m[name]? = vars.findIdx? fun v => v.name == name := by
    induction vars using List.reverseRecOn with
    | nil => exact ⟨∅, fun _ => Std.HashMap.getElem?_empty⟩
    | append_singleton vars v ih =>
        rw [List.map_append, List.nodup_append] at hn
        obtain ⟨m, hm⟩ := ih hn.1
        refine ⟨m.insert v.name vars.length, fun name => ?_⟩
        rw [Std.HashMap.getElem?_insert, hm, List.findIdx?_append, List.findIdx?_singleton]
        by_cases he : v.name = name
        · subst he
          have hnone : vars.findIdx? (fun w => w.name == v.name) = none := by
            refine List.findIdx?_eq_none_iff.2 fun w hw => beq_false_of_ne ?_
            exact hn.2.2 _ (List.mem_map_of_mem hw) _ List.mem_cons_self
          simp [hnone]
        · simp [he]
  obtain ⟨places, h⟩ := htable p.vars hp.names
  exact ⟨places, hp, h⟩

variable [Scalar α]

theorem Program.Consistent.canonical {p : Program α} (hp : p.Consistent) {o : Objective α}
    (ho : p.objective = some o) {k : Canonical α} (hk : p.canonical? = .ok k) :
    k.program.Consistent := by
  obtain ⟨places, hs⟩ := Ledger.exists_sound hp
  obtain ⟨slacks, surpluses, t, -, ht, hk'⟩ := Ledger.canonicalize_eq hs ho
  obtain rfl := Except.ok.inj (hk.symm.trans hk')
  exact ht.toConsistent

theorem Program.Consistent.withArtificials {k : Canonical α} (hk : k.program.Consistent)
    {q : Program α} {added : List (Var × ℕ)} (hq : k.withArtificials = .ok (q, added)) :
    q.Consistent := by
  obtain ⟨places, hs⟩ := Ledger.exists_sound hk
  obtain ⟨added', t, -, ht, haug⟩ := Ledger.augment_eq hs (Auxiliary.artificial_joins _)
  obtain ⟨rfl, rfl⟩ := Prod.mk.inj (Except.ok.inj (hq.symm.trans haug))
  exact ht.toConsistent

end Consistent

namespace LinExpr

def Nonzero (e : LinExpr ℚ) : Prop := ∀ a ∈ e.terms.toList, a.2 ≠ 0

variable {e : LinExpr ℚ} {n : ℕ} {v : Var}

theorem nonzero_simplify (e : LinExpr ℚ) : e.simplify.Nonzero := fun a ha => by
  simpa using (List.mem_filter.1 ha).2

theorem Nonzero.scale_neg_one (h : e.Nonzero) : (e.scale (-1)).Nonzero := fun a ha => by
  obtain ⟨b, hb, rfl⟩ := List.mem_map.1 ha
  simpa using h b hb

theorem Nonzero.simplify_eq (h : e.Nonzero) : e.simplify = e := by
  ext1
  · ext1
    exact List.filter_eq_self.2 fun a ha => by simpa using h a ha
  · rfl

theorem get?_of_within (h : e.Within n) (hv : n ≤ v.index) : e.terms.get? v = none := by
  rw [Terms.get?, Option.map_eq_none_iff, List.find?_eq_none]
  intro a ha he
  have hlt := h a ha
  have hi := (Var.beq_iff.1 he).1
  omega

end LinExpr

namespace Constraint

variable {c : Constraint ℚ}

theorem nonzero_orient (h : c.expr.Nonzero) : c.orient.expr.Nonzero := by
  rw [orient]
  split
  · exact h.scale_neg_one
  · exact h

theorem relation_orient (c : Constraint ℚ) :
    c.orient.relation = if c.bound < 0 then c.relation.flip else c.relation := by
  rw [orient]
  split
  · rfl
  · rfl

theorem orient_eq (h : 0 ≤ c.bound) : c.orient = c := if_neg (not_lt.2 h)

theorem relation_orient_eq_le : c.orient.relation = .le ↔
    c.relation = .le ∧ 0 ≤ c.bound ∨ c.relation = .ge ∧ c.bound < 0 := by
  rw [relation_orient, ← not_lt]
  cases c.relation <;> split <;> simp_all [Relation.flip]

theorem relation_orient_eq_ge : c.orient.relation = .ge ↔
    c.relation = .ge ∧ 0 ≤ c.bound ∨ c.relation = .le ∧ c.bound < 0 := by
  rw [relation_orient, ← not_lt]
  cases c.relation <;> split <;> simp_all [Relation.flip]

theorem relation_orient_eq_eq : c.orient.relation = .eq ↔ c.relation = .eq := by
  rw [relation_orient]
  cases c.relation <;> split <;> simp_all [Relation.flip]

end Constraint

theorem Objective.nonzero_orient {o : Objective ℚ} (h : o.expr.Nonzero) :
    o.orient.expr.Nonzero := by
  rw [orient]
  split
  · exact h
  · exact h.scale_neg_one

theorem Objective.direction_orient (o : Objective ℚ) : o.orient.direction = .max := by
  rw [orient]
  split
  · assumption
  · next h => rw [invert, h]; rfl

/-- Whether a variable past all others enters as the last term of a constraint, with coefficient
`w`. -/
def Auxiliary.Appends (a : Auxiliary ℚ) (w : ℚ) : Prop :=
  ∀ c v, c.expr.Within v.index →
    (a.enter c v).expr.terms.toList = c.expr.terms.toList ++ [(v, w)]

theorem Auxiliary.slack_appends : (slack : Auxiliary ℚ).Appends 1 := fun c v h => by
  change Terms.insert v 1 c.expr.terms.toList = _
  rw [LinExpr.insert_eq_append h, zero_add]

theorem Auxiliary.surplus_appends : (surplus : Auxiliary ℚ).Appends (-1) := fun c v h => by
  change Terms.insert v (-1) c.expr.terms.toList = _
  rw [LinExpr.insert_eq_append h, zero_add]

namespace Entered

variable {a : Auxiliary ℚ} {w : ℚ} {id i n k : ℕ} {cs ds : List (Constraint ℚ)}
variable {added : List (Var × ℕ)} {d : Constraint ℚ}

theorem row_terms (h : Entered a id i n cs ds added) (ha : a.Appends w)
    (hcs : ∀ c ∈ cs, c.expr.Within n) (hd : ds[k]? = some d) :
    ∃ c, cs[k]? = some c ∧
      ((∃ v, (v, i + k) ∈ added ∧ n ≤ v.index ∧
        d.expr.terms.toList = c.expr.terms.toList ++ [(v, w)]) ∨
      ((∀ e ∈ added, e.2 ≠ i + k) ∧ d = c)) := by
  obtain ⟨c, hc, ⟨v, hv, rfl⟩ | hno⟩ := h.of_row hd
  · have hn := (h.index_lt _ hv).1
    exact ⟨c, hc, .inl ⟨v, hv, hn, ha c v ((hcs c (List.mem_of_getElem? hc)).mono hn)⟩⟩
  · exact ⟨c, hc, .inr hno⟩

theorem nonzero (h : Entered a id i n cs ds added) (ha : a.Appends w) (hw : w ≠ 0)
    (hcs : ∀ c ∈ cs, c.expr.Within n) (hnz : ∀ c ∈ cs, c.expr.Nonzero) :
    ∀ d ∈ ds, d.expr.Nonzero := by
  intro d hd
  obtain ⟨k, hk⟩ := List.getElem?_of_mem hd
  obtain ⟨c, hc, ⟨v, -, -, ht⟩ | ⟨-, rfl⟩⟩ := h.row_terms ha hcs hk
  · intro b hb
    rw [ht] at hb
    rcases List.mem_append.1 hb with hb | hb
    · exact hnz c (List.mem_of_getElem? hc) b hb
    · rwa [List.mem_singleton.1 hb]
  · exact hnz d (List.mem_of_getElem? hc)

theorem get?_of_mem (h : Entered a id i n cs ds added) (ha : a.Appends w)
    (hcs : ∀ c ∈ cs, c.expr.Within n) {e : Var × ℕ} (he : e ∈ added) (hd : ds[k]? = some d) :
    d.expr.terms.get? e.1 = if i + k = e.2 then some w else none := by
  obtain ⟨c, hc, hrow⟩ := h.row_terms ha hcs hd
  have hnone : c.expr.terms.get? e.1 = none :=
    LinExpr.get?_of_within (hcs c (List.mem_of_getElem? hc)) (h.index_lt e he).1
  rcases hrow with ⟨v, hv, -, ht⟩ | ⟨hno, rfl⟩
  · have hiff : v == e.1 ↔ i + k = e.2 := by
      rw [Var.beq_iff]
      constructor
      · exact fun hi => congrArg Prod.snd (h.eq_of_index_eq hv he hi.1)
      · intro hr
        have hve := h.eq_of_row_eq hv he hr
        exact ⟨congrArg (·.1.index) hve, congrArg (·.1.owner) hve⟩
    rw [Terms.get?, Option.map_eq_none_iff] at hnone
    rw [Terms.get?, ht, List.find?_append, hnone, Option.none_or, List.find?_singleton]
    simp only [hiff]
    split
    · rfl
    · rfl
  · rw [hnone, if_neg (hno e he).symm]

theorem get?_of_lt (h : Entered a id i n cs ds added) (ha : a.Appends w)
    (hcs : ∀ c ∈ cs, c.expr.Within n) {v : Var} (hv : v.index < n) (hd : ds[k]? = some d) :
    ∃ c, cs[k]? = some c ∧ d.expr.terms.get? v = c.expr.terms.get? v := by
  obtain ⟨c, hc, ⟨u, -, hn, ht⟩ | ⟨-, rfl⟩⟩ := h.row_terms ha hcs hd
  · have hne : (u == v) = false := Bool.eq_false_iff.2 fun he => by
      have hi := (Var.beq_iff.1 he).1
      omega
    refine ⟨c, hc, ?_⟩
    rw [Terms.get?, ht, List.find?_append, List.find?_singleton, hne, Terms.get?]
    simp
  · exact ⟨d, hc, rfl⟩

theorem eq_of_not_wanted {α : Type} {a : Auxiliary α} {cs ds : List (Constraint α)}
    (h : Entered a id i n cs ds added) (hn : ∀ c ∈ cs, ∀ i, ¬ a.wanted i c) :
    ds = cs ∧ added = [] := by
  induction h with
  | nil => exact ⟨rfl, rfl⟩
  | got _ hw => exact absurd hw (hn _ List.mem_cons_self _)
  | passed _ _ ih =>
      obtain ⟨rfl, rfl⟩ := ih fun c hc => hn c (List.mem_cons_of_mem _ hc)
      exact ⟨rfl, rfl⟩

end Entered

namespace Program

/-- Equations with nonnegative bounds and an objective to be maximized, all without terms that
are 0. -/
structure IsCanonical (q : Program ℚ) : Prop where
  equation : ∀ d ∈ q.constraints, d.relation = .eq
  bound : ∀ d ∈ q.constraints, 0 ≤ d.bound
  nonzero : ∀ d ∈ q.constraints, d.expr.Nonzero
  objective : ∃ o, q.objective = some o ∧ o.direction = .max ∧ o.expr.Nonzero

/-- The variable is a term of the constraint in row `r`, with coefficient `w`, and of no other. -/
structure OnlyIn (q : Program ℚ) (v : Var) (r : ℕ) (w : ℚ) : Prop where
  row : ∃ d, q.constraints[r]? = some d ∧ d.expr.contains v ∧ d.expr.coefficient v = w
  other : ∀ i d, q.constraints[i]? = some d → i ≠ r → ¬ d.expr.contains v

variable {p q : Program ℚ} {o : Objective ℚ} {k : Canonical ℚ}

theorem onlyIn_of_get? {v : Var} {r : ℕ} {w : ℚ} (hr : r < q.constraints.length)
    (h : ∀ i d, q.constraints[i]? = some d →
      d.expr.terms.get? v = if i = r then some w else none) : q.OnlyIn v r w where
  row := by
    have hd := List.getElem?_eq_getElem hr
    have hg := h r _ hd
    rw [if_pos rfl] at hg
    refine ⟨_, hd, ?_, ?_⟩
    · rw [LinExpr.contains, hg]
      rfl
    · rw [LinExpr.coefficient, hg]
      rfl
  other i d hd hi := by
    rw [LinExpr.contains, h i d hd, if_neg hi]
    simp

theorem IsCanonical.canonical?_eq (h : q.IsCanonical) :
    q.canonical? = .ok ⟨q, [], [], false⟩ := by
  obtain ⟨o, ho, hmax, hnz⟩ := h.objective
  have horient : o.simplify.orient = o := by
    have hs : o.simplify = o := by
      ext1
      · exact hnz.simplify_eq
      · rfl
    rw [hs, Objective.orient, hmax]
  have hcs : q.oriented = q.constraints := by
    refine (List.map_congr_left fun d hd => ?_).trans (List.map_id _)
    have hs : d.simplify = d := by rw [Constraint.simplify, (h.nonzero d hd).simplify_eq]
    rw [hs, Constraint.orient_eq (h.bound d hd)]
    rfl
  have haug (a : Auxiliary ℚ) (ha : ∀ c i, c.relation = .eq → ¬ a.wanted i c) :
      q.augment a = .ok (q, []) := by
    obtain ⟨ds, added, hq, he⟩ := augment_eq q a
    obtain ⟨rfl, rfl⟩ := he.eq_of_not_wanted fun c hc i => ha c i (h.equation c hc)
    rw [hq, List.map_nil, List.append_nil]
  have hbase : ({ q with
      objective := some o.simplify.orient, constraints := q.oriented } : Program ℚ) = q := by
    rw [horient, hcs, ← ho]
  rw [canonical?_eq_bind ho, hbase,
    haug .slack fun c i hc => by simp [Auxiliary.slack, hc]]
  change q.augment .surplus >>= _ = _
  rw [haug .surplus fun c i hc => by simp [Auxiliary.surplus, hc], hmax]
  rfl

theorem nonzero_oriented (p : Program ℚ) : ∀ c ∈ p.oriented, c.expr.Nonzero := by
  intro c hc
  obtain ⟨c, -, rfl⟩ := List.mem_map.1 hc
  exact Constraint.nonzero_orient c.expr.nonzero_simplify

namespace HasCanonical

theorem isCanonical (h : p.HasCanonical o k) (hp : p.Consistent) (ho : p.objective = some o) :
    k.program.IsCanonical := by
  obtain ⟨ds, hs, hu⟩ := h.entered
  have hw := hp.within_oriented ho
  have hwd := hs.within_of_joins Auxiliary.slack_joins hw
  refine ⟨h.relation_eq, fun d hd => ?_, ?_, _, h.objective, Objective.direction_orient _,
    Objective.nonzero_orient o.expr.nonzero_simplify⟩
  · obtain ⟨d', hd', hb', -⟩ := hu.exists_bound Auxiliary.surplus_weighs d hd
    obtain ⟨c, hc, hb, -⟩ := hs.exists_bound Auxiliary.slack_weighs d' hd'
    rw [hb', hb]
    exact p.bound_oriented_nonneg c hc
  · have hnz := hs.nonzero Auxiliary.slack_appends one_ne_zero hw p.nonzero_oriented
    exact hu.nonzero Auxiliary.surplus_appends (by norm_num) hwd hnz

theorem onlyIn_slack (h : p.HasCanonical o k) (hp : p.Consistent) (ho : p.objective = some o)
    {e : Var × ℕ} (he : e ∈ k.slacks) : k.program.OnlyIn e.1 e.2 1 := by
  obtain ⟨ds, hs, hu⟩ := h.entered
  obtain ⟨c, -, -, hd⟩ := h.slack_row he
  have hw := hp.within_oriented ho
  refine onlyIn_of_get? (List.getElem?_eq_some_iff.1 hd).1 fun i d hd => ?_
  obtain ⟨d', hd', hg⟩ := hu.get?_of_lt Auxiliary.surplus_appends
    (hs.within_of_joins Auxiliary.slack_joins hw) (hs.index_lt e he).2 hd
  rw [hg, hs.get?_of_mem Auxiliary.slack_appends hw he hd', Nat.zero_add]

theorem onlyIn_surplus (h : p.HasCanonical o k) (hp : p.Consistent) (ho : p.objective = some o)
    {e : Var × ℕ} (he : e ∈ k.surpluses) : k.program.OnlyIn e.1 e.2 (-1) := by
  obtain ⟨ds, hs, hu⟩ := h.entered
  obtain ⟨c, -, -, hd⟩ := h.surplus_row he
  refine onlyIn_of_get? (List.getElem?_eq_some_iff.1 hd).1 fun i d hd => ?_
  rw [hu.get?_of_mem Auxiliary.surplus_appends
    (hs.within_of_joins Auxiliary.slack_joins (hp.within_oriented ho)) he hd, Nat.zero_add]

theorem rows_increase (h : p.HasCanonical o k) :
    k.slacks.Pairwise (·.2 < ·.2) ∧ k.surpluses.Pairwise (·.2 < ·.2) := by
  obtain ⟨ds, hs, hu⟩ := h.entered
  exact ⟨hs.rows_increase, hu.rows_increase⟩

theorem exists_slack_iff (h : p.HasCanonical o k) {i : ℕ} {c : Constraint ℚ}
    (hc : p.oriented[i]? = some c) : (∃ v, (v, i) ∈ k.slacks) ↔ c.relation = .le := by
  constructor
  · rintro ⟨v, hv⟩
    obtain ⟨c', hc', hr, -⟩ := h.slack_row hv
    rw [hc] at hc'
    exact Option.some.inj hc' ▸ hr
  · intro hr
    rcases h.row_cases hc with ⟨-, v, hv, -⟩ | ⟨hge, -⟩ | ⟨heq, -⟩
    · exact ⟨v, hv⟩
    · rw [hr] at hge; cases hge
    · rw [hr] at heq; cases heq

theorem exists_surplus_iff (h : p.HasCanonical o k) {i : ℕ} {c : Constraint ℚ}
    (hc : p.oriented[i]? = some c) : (∃ v, (v, i) ∈ k.surpluses) ↔ c.relation = .ge := by
  constructor
  · rintro ⟨v, hv⟩
    obtain ⟨c', hc', hr, -⟩ := h.surplus_row hv
    rw [hc] at hc'
    exact Option.some.inj hc' ▸ hr
  · intro hr
    rcases h.row_cases hc with ⟨hle, -⟩ | ⟨-, v, hv, -⟩ | ⟨heq, -⟩
    · rw [hr] at hle; cases hle
    · exact ⟨v, hv⟩
    · rw [hr] at heq; cases heq

theorem needsPhaseOne_iff (h : p.HasCanonical o k) :
    k.needsPhaseOne ↔ ∃ r < k.program.constraints.length, ∀ e ∈ k.slacks, e.2 ≠ r := by
  constructor
  · exact k.exists_row_without_slack
  · rintro ⟨r, hr, hno⟩
    by_contra hn
    obtain ⟨e, he, her⟩ := h.exists_slack (Bool.eq_false_iff.2 hn) hr
    exact hno e he her

end HasCanonical

/-- The canonical form is canonical, and its books are in order: the variables of the program come
first, the slacks and then the surplus variables after them, each list by row; each of them is a
term of the one constraint it is listed with; and which constraints have one is a matter of their
relations and the signs of their bounds. -/
theorem canonical?_books (hp : p.Consistent) (ho : p.objective = some o) :
    ∃ k, p.canonical? = .ok k ∧ k.program.IsCanonical ∧
      k.program.vars = p.vars ++ k.slacks.map (·.1) ++ k.surpluses.map (·.1) ∧
      k.slacks.Pairwise (·.2 < ·.2) ∧ k.surpluses.Pairwise (·.2 < ·.2) ∧
      (∀ e ∈ k.slacks, k.program.OnlyIn e.1 e.2 1) ∧
      (∀ e ∈ k.surpluses, k.program.OnlyIn e.1 e.2 (-1)) ∧
      k.program.constraints.length = p.constraints.length ∧
      (∀ i c, p.constraints[i]? = some c →
        ((∃ v, (v, i) ∈ k.slacks) ↔
          c.relation = .le ∧ 0 ≤ c.bound ∨ c.relation = .ge ∧ c.bound < 0) ∧
        ((∃ v, (v, i) ∈ k.surpluses) ↔
          c.relation = .ge ∧ 0 ≤ c.bound ∨ c.relation = .le ∧ c.bound < 0) ∧
        ((¬ ∃ v, (v, i) ∈ k.slacks ++ k.surpluses) ↔ c.relation = .eq)) ∧
      (k.needsPhaseOne ↔ ∃ r < k.program.constraints.length, ∀ e ∈ k.slacks, e.2 ≠ r) ∧
      k.program.canonical? = .ok ⟨k.program, [], [], false⟩ := by
  obtain ⟨k, hk, h⟩ := canonical?_eq ho
  obtain ⟨hinc, hinc'⟩ := h.rows_increase
  have hcanon := h.isCanonical hp ho
  refine ⟨k, hk, hcanon, ?_, hinc, hinc', fun e he => h.onlyIn_slack hp ho he,
    fun e he => h.onlyIn_surplus hp ho he, ?_, fun i c hc => ?_, h.needsPhaseOne_iff,
    hcanon.canonical?_eq⟩
  · rw [h.vars, List.map_append, List.append_assoc]
  · rw [h.length_constraints, oriented, List.length_map]
  · have hoc : p.oriented[i]? = some c.simplify.orient := by
      rw [oriented, List.getElem?_map, hc]
      rfl
    have hs := h.exists_slack_iff hoc
    have hu := h.exists_surplus_iff hoc
    refine ⟨hs.trans Constraint.relation_orient_eq_le, hu.trans Constraint.relation_orient_eq_ge, ?_⟩
    have hsplit : (∃ v, (v, i) ∈ k.slacks ++ k.surpluses) ↔
        (∃ v, (v, i) ∈ k.slacks) ∨ ∃ v, (v, i) ∈ k.surpluses := by
      simp only [List.mem_append, exists_or]
    have heq : c.simplify.orient.relation = .eq ↔ c.relation = .eq :=
      Constraint.relation_orient_eq_eq
    rw [hsplit, hs, hu, ← heq]
    cases c.simplify.orient.relation <;> simp

theorem canonical?_books_blend : ∃ k, blend.canonical? = .ok k ∧ (∃ v, (v, 0) ∈ k.slacks) ∧
    (∃ v, (v, 1) ∈ k.surpluses) ∧ (¬ ∃ v, (v, 2) ∈ k.slacks ++ k.surpluses) ∧ k.needsPhaseOne ∧
    k.program.canonical? = .ok ⟨k.program, [], [], false⟩ := by
  obtain ⟨k, hk, -, -, -, -, -, -, hlen, hrow, hone, hfix⟩ := canonical?_books blend_valid.1 rfl
  obtain ⟨hslack, -, -⟩ := hrow 0 _ rfl
  obtain ⟨-, hsurplus, -⟩ := hrow 1 _ rfl
  obtain ⟨-, -, hnone⟩ := hrow 2 _ rfl
  have hnone := hnone.2 rfl
  refine ⟨k, hk, hslack.2 (.inr ⟨rfl, by decide⟩), hsurplus.2 (.inl ⟨rfl, by decide⟩), hnone, ?_,
    hfix⟩
  refine hone.2 ⟨2, by rw [hlen]; decide, fun e he her => hnone ⟨e.1, ?_⟩⟩
  exact her ▸ List.mem_append_left _ he

end Program

end LinProg
