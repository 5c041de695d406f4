import LinProg.Proofs.Tableau.Residual

namespace LinProg

def BasicRow.ratio (b : BasicRow ℚ) (j : ℕ) : ℚ := b.row.rhs / b.row.cell j

namespace Tableau

/-- The entry `m` stands first at position `i` among the least of the list. -/
structure FirstLeast (l : List ℚ) (i : ℕ) (m : ℚ) : Prop where
  get : l[i]? = some m
  le : ∀ a ∈ l, m ≤ a
  lt : ∀ k < i, ∀ a, l[k]? = some a → m < a

/-- What a scan for the least ratio in column `j` has found among the rows `l`: no entry above
`tol`, or the first row of the least ratio with its number and ratio. -/
inductive LeastRatio (tol : ℚ) (j : ℕ) (l : List (BasicRow ℚ)) : Option (ℕ × ℚ) → Prop
  | absent (h : ∀ b ∈ l, b.row.cell j ≤ tol) : LeastRatio tol j l none
  | found {r : ℕ} {b : BasicRow ℚ} (row : l[r]? = some b) (entry : tol < b.row.cell j)
      (le : ∀ c ∈ l, tol < c.row.cell j → b.ratio j ≤ c.ratio j)
      (lt : ∀ k < r, ∀ c, l[k]? = some c → tol < c.row.cell j → b.ratio j < c.ratio j) :
      LeastRatio tol j l (some (r + 1, b.ratio j))

variable {t u : Tableau ℚ} {tol m : ℚ} {i j r k : ℕ} {b : BasicRow ℚ}

theorem FirstLeast.append {l cs : List ℚ} (h : FirstLeast l i m) (hcs : ∀ a ∈ cs, m ≤ a) :
    FirstLeast (l ++ cs) i m := by
  have hi := (List.getElem?_eq_some_iff.1 h.get).1
  refine ⟨by rw [List.getElem?_append_left hi, h.get], ?_, ?_⟩
  · intro a ha
    rcases List.mem_append.1 ha with ha | ha
    · exact h.le a ha
    · exact hcs a ha
  · intro k hk a ha
    rw [List.getElem?_append_left (hk.trans hi)] at ha
    exact h.lt k hk a ha

theorem firstLeast_leastFrom (l cs : List ℚ) (h : FirstLeast l i m) :
    ∃ a, FirstLeast (l ++ cs) (leastFrom i m l.length cs) a := by
  induction cs generalizing l i m with
  | nil => exact ⟨m, by rwa [List.append_nil]⟩
  | cons c cs ih =>
      have hl : l.length + 1 = (l ++ [c]).length := by simp
      rw [leastFrom]
      rw [List.append_cons]
      split
      · next hc =>
          rw [hl]
          refine ih (l ++ [c]) ⟨by simp, ?_, ?_⟩
          · intro a ha
            rcases List.mem_append.1 ha with ha | ha
            · exact hc.le.trans (h.le a ha)
            · exact (List.mem_singleton.1 ha).ge
          · intro k hk a ha
            rw [List.getElem?_append_left hk] at ha
            exact hc.trans_le (h.le a (List.mem_of_getElem? ha))
      · next hc =>
          rw [hl]
          exact ih (l ++ [c]) (h.append (by simpa using hc))

theorem firstLeast_entering (h : 0 < t.width) :
    ∃ m, FirstLeast t.objective.coeffs t.entering m := by
  rw [entering]
  split
  · next hn => simp [width, Row.width, hn] at h
  · next c cs hc =>
      rw [hc]
      refine firstLeast_leastFrom [c] cs ⟨rfl, by simp, ?_⟩
      intro k hk
      omega

theorem entering_lt (h : 0 < t.width) : t.entering < t.width := by
  obtain ⟨m, hm⟩ := firstLeast_entering h
  exact (List.getElem?_eq_some_iff.1 hm.get).1

theorem cell_entering_le (h : j < t.width) : t.objective.cell t.entering ≤ t.objective.cell j := by
  have h0 : 0 < t.width := (Nat.zero_le j).trans_lt h
  obtain ⟨m, hm⟩ := firstLeast_entering h0
  have he := hm.get
  rw [Row.getElem?_coeffs _ (entering_lt h0)] at he
  rw [Option.some.inj he]
  exact hm.le _ (List.mem_of_getElem? (Row.getElem?_coeffs _ h))

namespace LeastRatio

variable {l : List (BasicRow ℚ)} {best : Option (ℕ × ℚ)} {q : ℚ}

theorem le_of_mem (h : LeastRatio tol j l (some (i, q))) :
    ∀ c ∈ l, tol < c.row.cell j → q ≤ c.ratio j := by
  cases h with
  | found _ _ le _ => exact le

theorem keep (h : LeastRatio tol j l (some (i, q))) (hb : tol < b.row.cell j → q ≤ b.ratio j) :
    LeastRatio tol j (l ++ [b]) (some (i, q)) := by
  cases h with
  | found row entry le lt =>
      have hr := (List.getElem?_eq_some_iff.1 row).1
      refine .found (by rw [List.getElem?_append_left hr, row]) entry ?_ ?_
      · intro c hc
        rcases List.mem_append.1 hc with hc | hc
        · exact le c hc
        · rw [List.mem_singleton.1 hc]
          exact hb
      · intro k hk c hc
        rw [List.getElem?_append_left (hk.trans hr)] at hc
        exact lt k hk c hc

theorem skip (h : LeastRatio tol j l best) (hb : b.row.cell j ≤ tol) :
    LeastRatio tol j (l ++ [b]) best := by
  cases h with
  | absent h => exact .absent (by simpa [or_imp, forall_and] using ⟨h, hb⟩)
  | found row entry le lt =>
      exact (LeastRatio.found row entry le lt).keep fun hlt => absurd hb (not_le.2 hlt)

theorem take (hb : tol < b.row.cell j) (h : ∀ c ∈ l, tol < c.row.cell j → b.ratio j < c.ratio j) :
    LeastRatio tol j (l ++ [b]) (some (l.length + 1, b.ratio j)) := by
  refine .found (by simp) hb ?_ ?_
  · intro c hc hcj
    rcases List.mem_append.1 hc with hc | hc
    · exact (h c hc hcj).le
    · rw [List.mem_singleton.1 hc]
  · intro k hk c hc
    rw [List.getElem?_append_left hk] at hc
    exact h c (List.mem_of_getElem? hc)

end LeastRatio

theorem leastRatio_leastRatioFrom (l bs : List (BasicRow ℚ)) {best : Option (ℕ × ℚ)}
    (h : LeastRatio tol j l best) :
    LeastRatio tol j (l ++ bs) (leastRatioFrom tol j (l.length + 1) best bs) := by
  induction bs generalizing l best with
  | nil => rwa [List.append_nil]
  | cons b bs ih =>
      have hl : l.length + 1 = (l ++ [b]).length := by simp
      rw [List.append_cons]
      rw [leastRatioFrom]
      split
      · next hb =>
          rw [hl]
          exact ih (l ++ [b]) (h.skip hb)
      · next hb =>
          rw [not_le] at hb
          rw [hl]
          apply ih
          rw [← hl]
          cases best with
          | none =>
              change LeastRatio tol j (l ++ [b]) (some (l.length + 1, b.ratio j))
              cases h with
              | absent h => exact .take hb fun c hc hcj => absurd (h c hc) (not_le.2 hcj)
          | some best =>
              obtain ⟨i, q⟩ := best
              change LeastRatio tol j (l ++ [b]) (if decide (q ≤ b.ratio j) = true
                then some (i, q) else some (l.length + 1, b.ratio j))
              by_cases hq : q ≤ b.ratio j
              · rw [if_pos (decide_eq_true hq)]
                exact h.keep fun _ => hq
              · rw [if_neg (by simpa using hq)]
                exact .take hb fun c hc hcj => (not_le.1 hq).trans_le (h.le_of_mem c hc hcj)

theorem leastRatio_rows (t : Tableau ℚ) (j : ℕ) :
    LeastRatio t.tol j t.rows (leastRatioFrom t.tol j 1 none t.rows) :=
  leastRatio_leastRatioFrom [] t.rows (.absent (by simp))

theorem isOptimal_iff : t.isOptimal ↔ ∀ j < t.width, -t.tol ≤ t.objective.cell j := by
  simp only [isOptimal, List.all_eq_true, decide_eq_true_eq]
  constructor
  · intro h j hj
    exact h _ (List.mem_of_getElem? (Row.getElem?_coeffs _ hj))
  · intro h a ha
    obtain ⟨j, hj, rfl⟩ := List.getElem_of_mem ha
    have hc := Row.getElem?_coeffs t.objective hj
    rw [List.getElem?_eq_getElem hj] at hc
    rw [Option.some.inj hc]
    exact h j hj

theorem isUnbounded_iff : t.isUnbounded j ↔ ∀ b ∈ t.rows, b.row.cell j ≤ t.tol := by
  simp [isUnbounded]

theorem entering_of_not_isOptimal (h : ¬ t.isOptimal) :
    t.entering < t.width ∧ t.objective.cell t.entering < -t.tol := by
  rw [isOptimal_iff] at h
  push Not at h
  obtain ⟨j, hj, hneg⟩ := h
  exact ⟨entering_lt ((Nat.zero_le j).trans_lt hj), (cell_entering_le hj).trans_lt hneg⟩

theorem le_of_leaving_eq_none (h : t.leaving j = none) : ∀ b ∈ t.rows, b.row.cell j ≤ t.tol := by
  have hs := leastRatio_rows t j
  rw [Option.map_eq_none_iff.1 h] at hs
  cases hs with
  | absent h => exact h

theorem move_eq_unbounded_iff (t : Tableau ℚ) : t.move = .unbounded ↔ t.entering < t.width ∧
    t.objective.cell t.entering < -t.tol ∧ ∀ b ∈ t.rows, b.row.cell t.entering ≤ t.tol := by
  constructor
  · intro hm
    rw [move] at hm
    split at hm
    · cases hm
    · next h =>
        obtain ⟨hlt, hneg⟩ := entering_of_not_isOptimal h
        refine ⟨hlt, hneg, ?_⟩
        split at hm
        · next hu => exact isUnbounded_iff.1 hu
        · split at hm
          · cases hm
          · next hl => exact le_of_leaving_eq_none hl
  · rintro ⟨hlt, hneg, hfree⟩
    rw [move, if_neg fun h => absurd (isOptimal_iff.1 h _ hlt) (not_le.2 hneg),
      if_pos (isUnbounded_iff.2 hfree)]

inductive Shows (t : Tableau ℚ) : Move → Prop
  | optimal (h : ∀ j < t.width, -t.tol ≤ t.objective.cell j) : Shows t .optimal
  | unbounded {j : ℕ} (lt : j < t.width) (neg : t.objective.cell j < -t.tol)
      (free : ∀ b ∈ t.rows, b.row.cell j ≤ t.tol) : Shows t .unbounded
  | pivot {r j : ℕ} {b : BasicRow ℚ} (lt : j < t.width) (neg : t.objective.cell j < -t.tol)
      (least : ∀ i < t.width, t.objective.cell j ≤ t.objective.cell i)
      (row : t.rows[r]? = some b) (entry : t.tol < b.row.cell j)
      (ratio : ∀ c ∈ t.rows, t.tol < c.row.cell j → b.ratio j ≤ c.ratio j) :
      Shows t (.pivot (r + 1) j)

theorem shows_move (t : Tableau ℚ) : t.Shows t.move := by
  rw [move]
  split
  · next h => exact .optimal (isOptimal_iff.1 h)
  · next h =>
      obtain ⟨hlt, hent⟩ := entering_of_not_isOptimal h
      split
      · next hu => exact .unbounded hlt hent (isUnbounded_iff.1 hu)
      · have hs := leastRatio_rows t t.entering
        rw [leaving]
        generalize leastRatioFrom t.tol t.entering 1 none t.rows = best at hs ⊢
        cases hs with
        | absent h => exact .unbounded hlt hent h
        | found row entry le lt =>
            exact .pivot hlt hent (fun i hi => cell_entering_le hi) row entry le

end Tableau

end LinProg
