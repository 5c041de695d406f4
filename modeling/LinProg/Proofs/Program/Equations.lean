import LinProg.Proofs.Program.Canonical

namespace LinProg

/-- Equations to start the simplex method from: all constants are in the bounds, and no bound is
negative. -/
structure Program.Standard (q : Program ℚ) : Prop where
  within : ∀ c ∈ q.constraints, c.expr.Within q.vars.length
  constant : ∀ c ∈ q.constraints, c.expr.constant = 0
  bound : ∀ c ∈ q.constraints, 0 ≤ c.bound

theorem Canonical.exists_row_without_slack {α : Type} {k : Canonical α}
    (hn : k.needsPhaseOne = true) :
    ∃ r < k.program.constraints.length, ∀ e ∈ k.slacks, e.2 ≠ r := by
  by_contra! h
  have hsub : List.range k.program.constraints.length ⊆ k.slacks.map (·.2) := fun r hr => by
    obtain ⟨e, he, rfl⟩ := h r (List.mem_range.1 hr)
    exact List.mem_map_of_mem he
  have hle := (List.subperm_of_subset List.nodup_range hsub).length_le
  rw [List.length_range, List.length_map] at hle
  exact Nat.not_lt.2 hle (of_decide_eq_true hn)

/-- The program `q` has the artificial variables `added` beside those of `k`. -/
structure Canonical.HasArtificials {α : Type} [Scalar α] (k : Canonical α) (q : Program α)
    (added : List (Var × ℕ)) : Prop where
  vars : q.vars = k.program.vars ++ added.map (·.1)
  entered : Entered (.artificial (k.slacks.map (·.2))) k.program.id 0 k.program.vars.length
    k.program.constraints q.constraints added

theorem Canonical.withArtificials_eq {α : Type} [Scalar α] (k : Canonical α) :
    ∃ q added, k.withArtificials = .ok (q, added) ∧ k.HasArtificials q added := by
  obtain ⟨ds, added, h, he⟩ :=
    Program.augment_eq k.program (.artificial (k.slacks.map (·.2)))
  exact ⟨_, added, h, rfl, he⟩

theorem Canonical.hasArtificials_of_eq {α : Type} [Scalar α] {k : Canonical α} {q : Program α}
    {added : List (Var × ℕ)} (hq : k.withArtificials = .ok (q, added)) :
    k.HasArtificials q added := by
  obtain ⟨q', added', hq', h⟩ := k.withArtificials_eq
  rw [hq] at hq'
  obtain ⟨rfl, rfl⟩ := Prod.mk.inj (Except.ok.inj hq')
  exact h

namespace Canonical.HasArtificials

variable {α : Type} [Scalar α] {k : Canonical α} {q : Program α} {added : List (Var × ℕ)}

theorem length_vars (h : k.HasArtificials q added) :
    q.vars.length = k.program.vars.length + added.length := by
  simp [h.vars]

theorem exists_index (h : k.HasArtificials q added) {j : ℕ} (hj : k.program.vars.length ≤ j)
    (hlt : j < q.vars.length) : ∃ e ∈ added, e.1.index = j := by
  have hl := h.length_vars
  have he := List.getElem?_eq_getElem (l := added) (i := j - k.program.vars.length) (by omega)
  refine ⟨_, List.mem_of_getElem? he, ?_⟩
  rw [(h.entered.position he).1]
  omega

theorem mem_cols (h : k.HasArtificials q added) (j : ℕ) :
    j ∈ added.map (·.1.index) ↔
      k.program.vars.length ≤ j ∧ j < k.program.vars.length + added.length := by
  constructor
  · intro hj
    obtain ⟨e, he, rfl⟩ := List.mem_map.1 hj
    exact h.entered.index_lt e he
  · rintro ⟨hle, hlt⟩
    obtain ⟨e, he, rfl⟩ := h.exists_index hle (h.length_vars.symm ▸ hlt)
    exact List.mem_map_of_mem he

theorem artificial_lt (h : k.HasArtificials q added) {e : Var × ℕ} (he : e ∈ added) :
    e.1.index < q.vars.length := by
  rw [h.length_vars]
  exact (h.entered.index_lt e he).2

theorem row_lt (h : k.HasArtificials q added) {e : Var × ℕ} (he : e ∈ added) :
    e.2 < q.constraints.length := by
  obtain ⟨j, c, hj, -, -, hd⟩ := h.entered.of_mem e he
  rw [hj, Nat.zero_add]
  exact (List.getElem?_eq_some_iff.1 hd).1

end Canonical.HasArtificials

namespace Entered

variable {a : Auxiliary ℚ} {w : ℚ} {id i n : ℕ} {cs ds : List (Constraint ℚ)}
variable {added : List (Var × ℕ)}

theorem map_gap (h : Entered a id i n cs ds added) (hw : a.Weighs w) {x : ℕ → ℚ}
    (hx : ∀ e ∈ added, x e.1.index = 0) : ds.map (·.gap x) = cs.map (·.gap x) := by
  apply List.ext_getElem?
  intro k
  simp only [List.getElem?_map]
  cases hd : ds[k]? with
  | none =>
      rw [List.getElem?_eq_none_iff, h.length_eq] at hd
      rw [List.getElem?_eq_none hd]
  | some d =>
      obtain ⟨c, hc, ⟨v, hv, rfl⟩ | ⟨-, rfl⟩⟩ := h.of_row hd
      · rw [hc, Option.map_some, Option.map_some, hw.gap, hx _ hv, mul_zero, sub_zero]
      · rw [hc]

end Entered

namespace Program.HasCanonical

variable {p : Program ℚ} {o : Objective ℚ} {k : Canonical ℚ}

theorem standard (h : p.HasCanonical o k) (hp : p.Valid) : k.program.Standard := by
  obtain ⟨ds, hs, hu⟩ := h.entered
  have hrow (d : Constraint ℚ) (hd : d ∈ k.program.constraints) :
      ∃ c ∈ p.oriented, d.bound = c.bound ∧ d.expr.constant = c.expr.constant := by
    obtain ⟨d', hd', hb', hc'⟩ := hu.exists_bound Auxiliary.surplus_weighs d hd
    obtain ⟨c, hc, hb, hcc⟩ := hs.exists_bound Auxiliary.slack_weighs d' hd'
    exact ⟨c, hc, hb'.trans hb, hc'.trans hcc⟩
  refine ⟨h.within hp, fun d hd => ?_, fun d hd => ?_⟩
  · obtain ⟨c, hc, -, hcc⟩ := hrow d hd
    rw [hcc, hp.constant_oriented c hc]
  · obtain ⟨c, hc, hb, -⟩ := hrow d hd
    rw [hb]
    exact p.bound_oriented_nonneg c hc

theorem slack_lt (h : p.HasCanonical o k) {e : Var × ℕ} (he : e ∈ k.slacks) :
    p.vars.length ≤ e.1.index ∧ e.1.index < k.program.vars.length := by
  obtain ⟨ds, hs, -⟩ := h.entered
  have hi := hs.index_lt e he
  have hl : k.program.vars.length = p.vars.length + (k.slacks.length + k.surpluses.length) := by
    simp [h.vars]
  omega

theorem coeffAt_entry (h : p.HasCanonical o k) (hp : p.Valid) {e : (Var × ℕ) × ℚ}
    (he : e ∈ k.entries) {r : ℕ} {d : Constraint ℚ} (hd : k.program.constraints[r]? = some d) :
    d.expr.coeffAt e.1.1.index = if r = e.1.2 then e.2 else 0 := by
  obtain ⟨ds, hs, hu⟩ := h.entered
  rcases List.mem_append.1 he with hm | hm
  · obtain ⟨e, hes, rfl⟩ := List.mem_map.1 hm
    obtain ⟨c, hc, hcoeff⟩ :=
      hu.coeffAt_of_lt Auxiliary.surplus_weighs (hs.index_lt e hes).2 hd
    rw [hcoeff, hs.coeffAt_index Auxiliary.slack_weighs hp.within_oriented hes hc, Nat.zero_add]
  · obtain ⟨e, heu, rfl⟩ := List.mem_map.1 hm
    have hw := hs.within Auxiliary.slack_weighs hp.within_oriented
    rw [hu.coeffAt_index Auxiliary.surplus_weighs hw heu hd, Nat.zero_add]

theorem coeffAt_slack (h : p.HasCanonical o k) (hp : p.Valid) {e : Var × ℕ} (he : e ∈ k.slacks)
    {r : ℕ} {d : Constraint ℚ} (hd : k.program.constraints[r]? = some d) :
    d.expr.coeffAt e.1.index = if r = e.2 then 1 else 0 :=
  h.coeffAt_entry hp (List.mem_append_left _ (List.mem_map_of_mem he)) hd

theorem exists_entry_of_index (h : p.HasCanonical o k) {j : ℕ} (hj : p.vars.length ≤ j)
    (hlt : j < k.program.vars.length) : ∃ e ∈ k.entries, e.1.1.index = j := by
  have hl := h.length_vars
  have he := List.getElem?_eq_getElem (l := k.entries) (i := j - p.vars.length) (by omega)
  refine ⟨_, List.mem_of_getElem? he, ?_⟩
  rw [h.position he]
  omega

/-- Past its slack a constraint has at most a surplus variable, never a positive coefficient. -/
theorem coeffAt_nonpos_of_slack_lt (h : p.HasCanonical o k) (hp : p.Valid) {e : Var × ℕ}
    (he : e ∈ k.slacks) {j : ℕ} (hj : e.1.index < j) (hlt : j < k.program.vars.length)
    {d : Constraint ℚ} (hd : k.program.constraints[e.2]? = some d) : d.expr.coeffAt j ≤ 0 := by
  obtain ⟨f, hf, rfl⟩ := h.exists_entry_of_index ((h.slack_lt he).1.trans hj.le) hlt
  rw [h.coeffAt_entry hp hf hd]
  split
  · next hr =>
      rcases List.mem_append.1 hf with hm | hm
      · obtain ⟨f, hfs, rfl⟩ := List.mem_map.1 hm
        obtain ⟨ds, hs, -⟩ := h.entered
        exact absurd hj (hs.eq_of_row_eq he hfs hr ▸ lt_irrefl _)
      · obtain ⟨f, -, rfl⟩ := List.mem_map.1 hm
        norm_num
  · exact le_rfl

theorem exists_slack (h : p.HasCanonical o k) (hn : k.needsPhaseOne = false) {r : ℕ}
    (hr : r < k.program.constraints.length) : ∃ e ∈ k.slacks, e.2 = r := by
  obtain ⟨ds, hs, hu⟩ := h.entered
  have hl : p.oriented.length ≤ k.slacks.length := by
    rw [← h.length_constraints]
    simpa [Canonical.needsPhaseOne] using hn
  have hc := List.getElem?_eq_getElem (h.length_constraints ▸ hr)
  rcases hs.row_cases hc with ⟨-, v, hv, -⟩ | ⟨hw, -⟩
  · exact ⟨_, hv, Nat.zero_add r⟩
  · exact absurd (hs.wanted_of_length_le hl hc) hw

end Program.HasCanonical

namespace Canonical.HasArtificials

variable {p q : Program ℚ} {o : Objective ℚ} {k : Canonical ℚ} {added : List (Var × ℕ)}

theorem standard (h : k.HasArtificials q added) (hk : k.program.Standard) : q.Standard := by
  have hw := Auxiliary.artificial_weighs (k.slacks.map (·.2))
  refine ⟨?_, fun d hd => ?_, fun d hd => ?_⟩
  · rw [h.length_vars]
    exact h.entered.within hw hk.within
  · obtain ⟨c, hc, -, hcc⟩ := h.entered.exists_bound hw d hd
    rw [hcc, hk.constant c hc]
  · obtain ⟨c, hc, hb, -⟩ := h.entered.exists_bound hw d hd
    rw [hb]
    exact hk.bound c hc

theorem gap_eq_zero_iff (h : k.HasArtificials q added) {x : ℕ → ℚ}
    (hx : ∀ e ∈ added, x e.1.index = 0) :
    (∀ d ∈ q.constraints, d.gap x = 0) ↔ ∀ c ∈ k.program.constraints, c.gap x = 0 := by
  have hm := h.entered.map_gap (Auxiliary.artificial_weighs _) hx
  have hall (l : List (Constraint ℚ)) :
      (∀ d ∈ l, d.gap x = 0) ↔ ∀ g ∈ l.map (·.gap x), g = 0 := by simp
  rw [hall, hm, ← hall]

theorem coeffAt_slack (h : k.HasArtificials q added) (hk : p.HasCanonical o k) (hp : p.Valid)
    {e : Var × ℕ} (he : e ∈ k.slacks) {r : ℕ} {d : Constraint ℚ}
    (hd : q.constraints[r]? = some d) : d.expr.coeffAt e.1.index = if r = e.2 then 1 else 0 := by
  obtain ⟨c, hc, hcoeff⟩ :=
    h.entered.coeffAt_of_lt (Auxiliary.artificial_weighs _) (hk.slack_lt he).2 hd
  rw [hcoeff, hk.coeffAt_slack hp he hc]

theorem coeffAt_artificial (h : k.HasArtificials q added) (hk : k.program.Standard)
    {e : Var × ℕ} (he : e ∈ added) {r : ℕ} {d : Constraint ℚ}
    (hd : q.constraints[r]? = some d) : d.expr.coeffAt e.1.index = if r = e.2 then 1 else 0 := by
  rw [h.entered.coeffAt_index (Auxiliary.artificial_weighs _) hk.within he hd, Nat.zero_add]

theorem row_ne (h : k.HasArtificials q added) {e f : Var × ℕ} (he : e ∈ k.slacks)
    (hf : f ∈ added) : e.2 ≠ f.2 := by
  obtain ⟨r, c, -, -, hw, -⟩ := h.entered.of_mem f hf
  intro hr
  have hm : f.2 ∈ k.slacks.map (·.2) := hr ▸ List.mem_map_of_mem he
  simp only [Auxiliary.artificial, Bool.not_eq_true', List.contains_eq_mem,
    decide_eq_false_iff_not] at hw
  exact hw hm

theorem coeffAt_nonpos_of_slack_lt (h : k.HasArtificials q added) (hk : p.HasCanonical o k)
    (hp : p.Valid) {e : Var × ℕ} (he : e ∈ k.slacks) {j : ℕ} (hj : e.1.index < j)
    (hlt : j < q.vars.length) {d : Constraint ℚ} (hd : q.constraints[e.2]? = some d) :
    d.expr.coeffAt j ≤ 0 := by
  by_cases hjk : j < k.program.vars.length
  · obtain ⟨c, hc, hcoeff⟩ := h.entered.coeffAt_of_lt (Auxiliary.artificial_weighs _) hjk hd
    rw [hcoeff]
    exact hk.coeffAt_nonpos_of_slack_lt hp he hj hjk hc
  · obtain ⟨f, hf, rfl⟩ := h.exists_index (not_lt.1 hjk) hlt
    rw [h.coeffAt_artificial (hk.standard hp) hf hd, if_neg (h.row_ne he hf)]

theorem coeffAt_eq_zero_of_artificial_lt (h : k.HasArtificials q added)
    (hk : k.program.Standard) {e : Var × ℕ} (he : e ∈ added) {j : ℕ} (hj : e.1.index < j)
    (hlt : j < q.vars.length) {d : Constraint ℚ} (hd : q.constraints[e.2]? = some d) :
    d.expr.coeffAt j = 0 := by
  obtain ⟨f, hf, rfl⟩ := h.exists_index ((h.entered.index_lt e he).1.trans hj.le) hlt
  rw [h.coeffAt_artificial hk hf hd, if_neg]
  intro hr
  exact absurd hj (h.entered.eq_of_row_eq he hf hr ▸ lt_irrefl _)

theorem exists_entry (h : k.HasArtificials q added) {r : ℕ} (hr : r < q.constraints.length) :
    (∃ e ∈ k.slacks, e.2 = r) ∨ ∃ e ∈ added, e.2 = r := by
  have hc := List.getElem?_eq_getElem (h.entered.length_eq ▸ hr)
  rcases h.entered.row_cases hc with ⟨-, v, hv, -⟩ | ⟨hw, -⟩
  · exact .inr ⟨_, hv, Nat.zero_add r⟩
  · refine .inl ?_
    have hm : r ∈ k.slacks.map (·.2) := by simpa [Auxiliary.artificial] using hw
    obtain ⟨e, he, hr⟩ := List.mem_map.1 hm
    exact ⟨e, he, hr⟩

end Canonical.HasArtificials

end LinProg
