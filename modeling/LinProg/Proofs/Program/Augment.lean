import LinProg.Proofs.Expr.Vars
import LinProg.Proofs.Program.Feasible
import LinProg.Proofs.Program.FreshName

namespace LinProg

variable {α : Type}

/-- Whether a variable enters constraints without another one coming in or the row changing. -/
structure Auxiliary.Joins (a : Auxiliary α) : Prop where
  index : ∀ c v, (a.enter c v).index = c.index
  vars : ∀ c v, ∀ u ∈ (a.enter c v).expr.vars, u ∈ c.expr.vars ∨ u = v

namespace Auxiliary

variable [Scalar α]

theorem slack_joins : (slack : Auxiliary α).Joins where
  index _ _ := rfl
  vars _ _ _ h := LinExpr.mem_vars_addVar h

theorem surplus_joins : (surplus : Auxiliary α).Joins where
  index _ _ := rfl
  vars _ _ _ h := LinExpr.mem_vars_subVar h

theorem artificial_joins (covered : List ℕ) : (artificial covered : Auxiliary α).Joins where
  index _ _ := rfl
  vars _ _ _ h := LinExpr.mem_vars_addVar h

end Auxiliary

/-- What has become of the constraints `cs`, the first of them in row `i`, when each one that wants
a variable has got the next variable from position `n` on. -/
inductive Entered (a : Auxiliary α) (id : ℕ) :
    ℕ → ℕ → List (Constraint α) → List (Constraint α) → List (Var × ℕ) → Prop
  | nil (i n : ℕ) : Entered a id i n [] [] []
  | got {i n : ℕ} {c : Constraint α} {cs ds : List (Constraint α)} {added : List (Var × ℕ)}
      (name : String) (hw : a.wanted i c) (h : Entered a id (i + 1) (n + 1) cs ds added) :
      Entered a id i n (c :: cs) (a.enter c ⟨name, n, id⟩ :: ds) ((⟨name, n, id⟩, i) :: added)
  | passed {i n : ℕ} {c : Constraint α} {cs ds : List (Constraint α)} {added : List (Var × ℕ)}
      (hw : ¬ a.wanted i c) (h : Entered a id (i + 1) n cs ds added) :
      Entered a id i n (c :: cs) (c :: ds) added

namespace Program

theorem augmentFrom_eq (a : Auxiliary α) (p : Program α) (i : ℕ) (cs : List (Constraint α)) :
    ∃ ds added, p.augmentFrom a i cs =
        .ok ({ p with vars := p.vars ++ added.map (·.1) }, ds, added) ∧
      Entered a p.id i p.vars.length cs ds added := by
  induction cs generalizing p i with
  | nil => exact ⟨[], [], by simp [augmentFrom], .nil _ _⟩
  | cons c cs ih =>
      rw [augmentFrom]
      by_cases hw : a.wanted i c
      · simp only [hw, if_true, addVariable_freshName]
        obtain ⟨ds, added, he, h⟩ := ih { p with vars := p.vars ++ [_] } (i + 1)
        refine ⟨_, _, ?_, .got (p.freshName s!"{a.letter}{i}") hw (by simpa using h)⟩
        change Except.bind (augmentFrom a _ _ cs) _ = _
        rw [he]
        simp [Except.bind, pure, Except.pure]
      · simp only [hw]
        obtain ⟨ds, added, he, h⟩ := ih p (i + 1)
        refine ⟨_, _, ?_, .passed hw h⟩
        change Except.bind (augmentFrom a _ _ cs) _ = _
        rw [he]
        rfl

theorem augment_eq (p : Program α) (a : Auxiliary α) :
    ∃ ds added, p.augment a =
        .ok ({ p with vars := p.vars ++ added.map (·.1), constraints := ds }, added) ∧
      Entered a p.id 0 p.vars.length p.constraints ds added := by
  obtain ⟨ds, added, he, h⟩ := augmentFrom_eq a p 0 p.constraints
  refine ⟨ds, added, ?_, h⟩
  rw [augment]
  rw [he]
  rfl

end Program

namespace Entered

variable {a : Auxiliary α} {id i n : ℕ} {cs ds : List (Constraint α)} {added : List (Var × ℕ)}

theorem length_eq (h : Entered a id i n cs ds added) : ds.length = cs.length := by
  induction h with
  | nil => rfl
  | got _ _ _ ih | passed _ _ ih => simp [ih]

theorem length_added_le (h : Entered a id i n cs ds added) : added.length ≤ cs.length := by
  induction h with
  | nil => simp
  | got _ _ _ ih => simpa using ih
  | passed _ _ ih => exact ih.trans (by simp)

theorem wanted_of_length_le (h : Entered a id i n cs ds added) (hl : cs.length ≤ added.length) :
    ∀ {k : ℕ} {c : Constraint α}, cs[k]? = some c → a.wanted (i + k) c := by
  induction h with
  | nil => simp
  | got _ hw _ ih =>
      intro k c hc
      cases k with
      | zero => cases hc; exact hw
      | succ k =>
          have hw := ih (by simpa using hl) hc
          rwa [Nat.succ_add_eq_add_succ] at hw
  | passed _ h =>
      have := h.length_added_le
      simp only [List.length_cons] at hl
      omega

theorem position (h : Entered a id i n cs ds added) :
    ∀ {k : ℕ} {e : Var × ℕ}, added[k]? = some e → e.1.index = n + k ∧ e.1.owner = id := by
  induction h with
  | nil => simp
  | got _ _ _ ih =>
      intro k e he
      cases k with
      | zero => cases he; simp
      | succ k =>
          have hi := ih he
          rwa [Nat.succ_add_eq_add_succ] at hi
  | passed _ _ ih => exact ih

theorem le_row (h : Entered a id i n cs ds added) : ∀ e ∈ added, i ≤ e.2 := by
  induction h with
  | nil => simp
  | got _ _ _ ih =>
      rintro e he
      rcases List.mem_cons.1 he with rfl | he
      · exact le_rfl
      · exact (Nat.le_succ _).trans (ih e he)
  | passed _ _ ih => exact fun e he => (Nat.le_succ _).trans (ih e he)

theorem rows_increase (h : Entered a id i n cs ds added) :
    added.Pairwise fun e f => e.2 < f.2 := by
  induction h with
  | nil => exact .nil
  | got _ _ h ih => exact .cons (fun e he => h.le_row e he) ih
  | passed _ _ ih => exact ih

theorem nodup_rows (h : Entered a id i n cs ds added) : (added.map (·.2)).Nodup :=
  List.pairwise_map.2 (h.rows_increase.imp fun hlt => hlt.ne)

theorem eq_of_row_eq (h : Entered a id i n cs ds added) {e f : Var × ℕ} (he : e ∈ added)
    (hf : f ∈ added) (hr : e.2 = f.2) : e = f :=
  List.inj_on_of_nodup_map h.nodup_rows he hf hr

theorem eq_of_index_eq (h : Entered a id i n cs ds added) {e f : Var × ℕ} (he : e ∈ added)
    (hf : f ∈ added) (hv : e.1.index = f.1.index) : e = f := by
  obtain ⟨j, hj⟩ := List.getElem?_of_mem he
  obtain ⟨k, hk⟩ := List.getElem?_of_mem hf
  have hjk : j = k := by
    have h1 := (h.position hj).1
    have h2 := (h.position hk).1
    omega
  rw [hjk, hk] at hj
  exact (Option.some.inj hj).symm

theorem row_cases (h : Entered a id i n cs ds added) :
    ∀ {k : ℕ} {c : Constraint α}, cs[k]? = some c →
      (a.wanted (i + k) c ∧ ∃ v, (v, i + k) ∈ added ∧ ds[k]? = some (a.enter c v)) ∨
      (¬ a.wanted (i + k) c ∧ (∀ e ∈ added, e.2 ≠ i + k) ∧ ds[k]? = some c) := by
  induction h with
  | nil => simp
  | got name hw h ih =>
      intro k c hc
      cases k with
      | zero => cases hc; exact .inl ⟨hw, _, List.mem_cons_self, rfl⟩
      | succ k =>
          rcases ih hc with ⟨hw, v, hv, hd⟩ | ⟨hw, hv, hd⟩
          · rw [Nat.succ_add_eq_add_succ] at hw hv
            exact .inl ⟨hw, v, List.mem_cons_of_mem _ hv, hd⟩
          · rw [Nat.succ_add_eq_add_succ] at hw hv
            refine .inr ⟨hw, ?_, hd⟩
            intro e he
            rcases List.mem_cons.1 he with rfl | he
            · dsimp only; omega
            · exact hv e he
  | passed hw h ih =>
      intro k c hc
      cases k with
      | zero =>
          cases hc
          -- The variables still to come are those of later rows.
          refine .inr ⟨hw, fun e he => ?_, rfl⟩
          have := h.le_row e he
          omega
      | succ k =>
          have h := ih hc
          rwa [Nat.succ_add_eq_add_succ] at h

theorem of_row (h : Entered a id i n cs ds added) {k : ℕ} {d : Constraint α}
    (hd : ds[k]? = some d) : ∃ c, cs[k]? = some c ∧
      ((∃ v, (v, i + k) ∈ added ∧ d = a.enter c v) ∨ ((∀ e ∈ added, e.2 ≠ i + k) ∧ d = c)) := by
  have hk : k < cs.length := by
    rw [← h.length_eq]
    exact (List.getElem?_eq_some_iff.1 hd).1
  have hc := List.getElem?_eq_getElem hk
  refine ⟨_, hc, ?_⟩
  rcases h.row_cases hc with ⟨-, v, hv, hd'⟩ | ⟨-, hn, hd'⟩
  · rw [hd] at hd'
    exact .inl ⟨v, hv, Option.some.inj hd'⟩
  · rw [hd] at hd'
    exact .inr ⟨hn, Option.some.inj hd'⟩

theorem index_lt (h : Entered a id i n cs ds added) :
    ∀ e ∈ added, n ≤ e.1.index ∧ e.1.index < n + added.length := by
  intro e he
  obtain ⟨k, hk⟩ := List.getElem?_of_mem he
  have hl := (List.getElem?_eq_some_iff.1 hk).1
  have hi := (h.position hk).1
  omega

theorem within_of_joins (h : Entered a id i n cs ds added) (ha : a.Joins)
    (hcs : ∀ c ∈ cs, c.expr.Within n) : ∀ d ∈ ds, d.expr.Within (n + added.length) := by
  intro d hd b hb
  obtain ⟨k, hk⟩ := List.getElem?_of_mem hd
  have hb : b.1 ∈ d.expr.vars := List.mem_map_of_mem hb
  have hold {c : Constraint α} (hc : cs[k]? = some c) (hb : b.1 ∈ c.expr.vars) :
      b.1.index < n + added.length := by
    obtain ⟨a, ha, he⟩ := List.mem_map.1 hb
    exact Nat.lt_add_right _ (he ▸ hcs c (List.mem_of_getElem? hc) a ha)
  obtain ⟨c, hc, ⟨v, hv, rfl⟩ | ⟨-, rfl⟩⟩ := h.of_row hk
  · rcases ha.vars c v b.1 hb with hb | hb
    · exact hold hc hb
    · exact hb ▸ (h.index_lt _ hv).2
  · exact hold hc hb

theorem of_mem (h : Entered a id i n cs ds added) :
    ∀ e ∈ added, ∃ k c, e.2 = i + k ∧ cs[k]? = some c ∧ a.wanted e.2 c ∧
      ds[k]? = some (a.enter c e.1) := by
  induction h with
  | nil => simp
  | got name hw h ih =>
      intro e he
      rcases List.mem_cons.1 he with rfl | he
      · exact ⟨0, _, rfl, rfl, hw, rfl⟩
      · obtain ⟨k, c, hr, hc, hw, hd⟩ := ih e he
        exact ⟨k + 1, c, by omega, hc, hw, hd⟩
  | passed _ _ ih =>
      intro e he
      obtain ⟨k, c, hr, hc, hw, hd⟩ := ih e he
      exact ⟨k + 1, c, by omega, hc, hw, hd⟩

end Entered

end LinProg
