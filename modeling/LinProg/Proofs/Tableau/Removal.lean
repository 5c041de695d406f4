import Mathlib.Data.List.Induction
import LinProg.Proofs.Tableau.NearUnit
import LinProg.Proofs.Tableau.Undo

namespace LinProg

variable {α β γ : Type}

def dropAt (ps : List ℕ) (l : List β) : List β := (l.zipIdx.filter (·.2 ∉ ps)).map (·.1)

/-- Where position `c` comes to stand when the positions `ps` are gone. -/
def landing (ps : List ℕ) (c : ℕ) : ℕ := (List.range c).countP (· ∉ ps)

variable {ps : List ℕ} {l : List β} {a : β} {c n : ℕ}

-- The inductions are from the end: an entry added there leaves the positions of the others alone.

theorem dropAt_concat (ps : List ℕ) (l : List β) (a : β) :
    dropAt ps (l ++ [a]) = dropAt ps l ++ if l.length ∈ ps then [] else [a] := by
  rw [dropAt, List.zipIdx_append, List.filter_append, List.map_append]
  by_cases h : l.length ∈ ps
  · simp [dropAt, h]
  · simp [dropAt, h]

theorem dropAt_map (f : β → γ) : dropAt ps (l.map f) = (dropAt ps l).map f := by
  rw [dropAt, dropAt, List.zipIdx_map, List.filter_map, List.map_map, List.map_map]
  rfl

theorem landing_succ (ps : List ℕ) (c : ℕ) :
    landing ps (c + 1) = landing ps c + if c ∈ ps then 0 else 1 := by
  rw [landing, List.range_succ, List.countP_append, List.countP_singleton, landing]
  by_cases h : c ∈ ps
  · simp [h]
  · simp [h]

theorem landing_mono (ps : List ℕ) (h : c ≤ n) : landing ps c ≤ landing ps n := by
  induction h with
  | refl => exact le_rfl
  | step _ ih => rw [landing_succ]; exact Nat.le_add_right_of_le ih

theorem landing_lt (hc : c ∉ ps) (h : c < n) : landing ps c < landing ps n := by
  have hs := landing_mono ps (Nat.succ_le_of_lt h)
  rw [Nat.succ_eq_add_one, landing_succ, if_neg hc] at hs
  exact hs

theorem length_dropAt (ps : List ℕ) (l : List β) : (dropAt ps l).length = landing ps l.length := by
  induction l using List.reverseRecOn with
  | nil => rfl
  | append_singleton l a ih =>
      rw [dropAt_concat, List.length_append, ih, List.length_append, List.length_singleton,
        landing_succ]
      split
      · rfl
      · rfl

theorem dropAt_range (ps : List ℕ) (n : ℕ) :
    dropAt ps (List.range n) = (List.range n).filter (· ∉ ps) := by
  induction n with
  | zero => rfl
  | succ n ih =>
      rw [List.range_succ, dropAt_concat, ih, List.filter_append, List.length_range]
      by_cases h : n ∈ ps
      · simp [h]
      · simp [h]

theorem dropAt_replicate (ps : List ℕ) (n : ℕ) (a : β) :
    dropAt ps (List.replicate n a) = List.replicate (landing ps n) a := by
  refine List.eq_replicate_iff.2 ⟨by rw [length_dropAt, List.length_replicate], fun b hb => ?_⟩
  obtain ⟨x, hx, rfl⟩ := List.mem_map.1 hb
  exact List.eq_of_mem_replicate (List.fst_mem_of_mem_zipIdx (List.mem_of_mem_filter hx))

theorem getElem?_dropAt (hc : c ∉ ps) (l : List β) : (dropAt ps l)[landing ps c]? = l[c]? := by
  by_cases h : c < l.length
  · induction l using List.reverseRecOn with
    | nil => cases h
    | append_singleton l a ih =>
        rw [dropAt_concat]
        rcases Nat.lt_succ_iff_lt_or_eq.1 (by simpa using h) with h | rfl
        · rw [List.getElem?_append_left h, List.getElem?_append_left, ih h]
          rw [length_dropAt]
          exact landing_lt hc h
        · rw [if_neg hc, ← length_dropAt, List.getElem?_concat_length, List.getElem?_concat_length]
  · have hlen := landing_mono ps (not_lt.1 h)
    rw [List.getElem?_eq_none (not_lt.1 h), List.getElem?_eq_none (by rwa [length_dropAt])]

/-- A write at a position that goes is lost, any other lands with its position. -/
theorem dropAt_set (ps : List ℕ) (l : List β) (c : ℕ) (a : β) :
    dropAt ps (l.set c a) = if c ∈ ps then dropAt ps l else (dropAt ps l).set (landing ps c) a := by
  by_cases h : c < l.length
  · induction l using List.reverseRecOn with
    | nil => cases h
    | append_singleton l b ih =>
        rcases Nat.lt_succ_iff_lt_or_eq.1 (by simpa using h) with h | rfl
        · rw [List.set_append_left _ _ h, dropAt_concat, dropAt_concat, ih h, List.length_set]
          by_cases hc : c ∈ ps
          · rw [if_pos hc, if_pos hc]
          · rw [if_neg hc, if_neg hc, List.set_append_left]
            rw [length_dropAt]
            exact landing_lt hc h
        · rw [List.set_append_right _ _ le_rfl, Nat.sub_self, List.set_cons_zero, dropAt_concat,
            dropAt_concat]
          by_cases hc : l.length ∈ ps
          · rw [if_pos hc, if_pos hc, if_pos hc]
          · rw [if_neg hc, if_neg hc, if_neg hc, ← length_dropAt, List.set_append_right _ _ le_rfl,
              Nat.sub_self, List.set_cons_zero]
  · have hlen := landing_mono ps (not_lt.1 h)
    rw [List.set_eq_of_length_le (not_lt.1 h)]
    split
    · rfl
    · rw [List.set_eq_of_length_le (by rwa [length_dropAt])]

theorem idxOf?_dropAt_range (ps : List ℕ) (h : c < n) :
    (dropAt ps (List.range n)).idxOf? c = if c ∈ ps then none else some (landing ps c) := by
  rw [dropAt_range]
  split
  · next hc => exact List.idxOf?_eq_none_iff.2 (by simp [hc])
  · next hc =>
      have hget := getElem?_dropAt hc (List.range n)
      rw [dropAt_range, List.getElem?_range h] at hget
      obtain ⟨hlt, he⟩ := List.getElem?_eq_some_iff.1 hget
      refine List.idxOf?_eq_some_iff.2 ⟨hlt, he, fun j hj hje => hj.ne ?_⟩
      exact (List.nodup_range.filter _).getElem_inj_iff.1 (hje.trans he.symm)

namespace Row

variable {r s : Row α} {cols : List ℕ}

def without (cols : List ℕ) (r : Row α) : Row α := ⟨dropAt cols r.coeffs, r.rhs⟩

theorem cells_injective (h : r.cells = s.cells) : r = s := by
  obtain ⟨hc, hr⟩ := List.append_inj' h rfl
  exact Row.ext hc (List.singleton_inj.1 hr)

theorem cells_eq_map (r : Row α) : r.cells = (List.range (r.width + 1)).map r.cell := by
  refine List.ext_getElem (by simp [length_cells]) fun j hj _ => ?_
  have hle : j ≤ r.width := by
    rw [length_cells] at hj
    exact Nat.lt_succ_iff.1 hj
  rw [List.getElem_map, List.getElem_range, ← Option.some_inj, ← List.getElem?_eq_getElem hj,
    getElem?_cells hle]

theorem width_without (cols : List ℕ) (r : Row α) :
    (r.without cols).width = landing cols r.width := length_dropAt cols r.coeffs

theorem cell_without (hc : c ∉ cols) (r : Row α) :
    (r.without cols).cell (landing cols c) = r.cell c := by
  rw [cell, cell, List.getD_eq_getElem?_getD, List.getD_eq_getElem?_getD, without,
    getElem?_dropAt hc]

theorem cells_without (h : r.width ∉ cols) : (r.without cols).cells = dropAt cols r.cells := by
  rw [cells, cells, dropAt_concat]
  exact congrArg _ (if_neg h).symm

theorem ofCells_eq_without [Scalar α] (h : r.width ∉ cols) :
    ofCells ((dropAt cols (List.range (r.width + 1))).length - 1)
      ((dropAt cols (List.range (r.width + 1))).map r.cell) = r.without cols := by
  have hlen : (dropAt cols (List.range (r.width + 1))).length = landing cols r.width + 1 := by
    rw [length_dropAt, List.length_range, landing_succ, if_neg h]
  apply cells_injective
  rw [cells_ofCells (by rw [List.length_map, hlen, Nat.add_sub_cancel]), cells_without h,
    cells_eq_map, dropAt_map]

end Row

def BasicRow.without (cols : List ℕ) (b : BasicRow α) : BasicRow α where
  basic := b.basic.bind fun c => if c ∈ cols then none else some (landing cols c)
  row := b.row.without cols

namespace Tableau

theorem place_without (cols : List ℕ) (x : List α) (b : BasicRow α) :
    place (dropAt cols x) (b.without cols) = dropAt cols (place x b) := by
  rw [place, place, BasicRow.without]
  cases b.basic with
  | none => rfl
  | some c =>
      dsimp only
      rw [dropAt_set, Option.bind_some]
      by_cases hc : c ∈ cols
      · rw [if_pos hc, if_pos hc]
      · rw [if_neg hc, if_neg hc]
        rfl

theorem set_foldl_place {l : List (BasicRow α)} (h : ∀ b ∈ l, b.basic ≠ some c) (x : List α)
    (a : α) : (l.foldl place x).set c a = l.foldl place (x.set c a) := by
  induction l generalizing x with
  | nil => rfl
  | cons b l ih =>
      have hb : (place x b).set c a = place (x.set c a) b := by
        rw [place, place]
        split
        · next i hi =>
            exact List.set_comm _ _ fun he => h b List.mem_cons_self (he ▸ hi)
        · rfl
      rw [List.foldl_cons, List.foldl_cons, ih fun d hd => h d (List.mem_cons_of_mem b hd), hb]

variable {t : Tableau α} {r k : ℕ} {b : BasicRow α} {cols : List ℕ}

theorem getElem?_basis (h : t.rows[r]? = some b) : t.basis[r]? = some b.basic := by
  rw [basis, List.getElem?_map, h, Option.map_some]

variable [Scalar α]

theorem filter_contains_eq (cols : List ℕ) (n : ℕ) :
    ((List.range n).filter fun j => !cols.contains j) = dropAt cols (List.range n) := by
  rw [dropAt_range]
  exact List.filter_congr fun j _ => by simp

theorem objective_eq_without (hw : t.width ∉ cols) (labels : List String) :
    (t.removeColumns cols labels).objective = t.objective.without cols := by
  simp only [removeColumns, filter_contains_eq]
  exact Row.ofCells_eq_without hw

/-- Where only variable columns are basic, dropping columns drops them from each row and takes its
basic column to where it lands. -/
theorem rows_eq_without (h : t.Fits t.width) (hw : t.width ∉ cols) (labels : List String) :
    (t.removeColumns cols labels).rows = t.rows.map (·.without cols) := by
  simp only [removeColumns, filter_contains_eq]
  refine List.map_congr_left fun b hb => ?_
  have hwb : b.row.width = t.width := t.aligned b hb
  rw [BasicRow.without, ← Row.ofCells_eq_without (hwb ▸ hw), hwb]
  congr 1
  cases hc : b.basic with
  | none => rfl
  | some c => exact idxOf?_dropAt_range cols (Nat.lt_succ_of_lt (h.basic b hb c hc))

theorem width_eq_landing (hw : t.width ∉ cols) (labels : List String) :
    (t.removeColumns cols labels).width = landing cols t.width := by
  rw [width, objective_eq_without hw, Row.width_without, width]

theorem assignment_removeColumns (h : t.Fits t.width) (hw : t.width ∉ cols) (labels : List String) :
    (t.removeColumns cols labels).assignment = dropAt cols t.assignment := by
  rw [assignment_eq, assignment_eq, rows_eq_without h hw, width_eq_landing hw, ← dropAt_replicate,
    List.foldl_map]
  exact List.foldl_hom (dropAt cols) fun x b => place_without cols x b

theorem column_removeColumns (h : t.Fits t.width) (hw : t.width ∉ cols) (labels : List String)
    {c : ℕ} (hc : c ∉ cols) :
    (t.removeColumns cols labels).column (landing cols c) = t.column c := by
  rw [column, column, objective_eq_without hw, rows_eq_without h hw, Row.cell_without hc,
    List.map_map]
  congr 1
  exact List.map_congr_left fun b _ => Row.cell_without hc b.row

omit [Scalar α] in
theorem DistinctBasis.ne_basic (h : t.DistinctBasis) {c : ℕ} (hb : t.rows[r]? = some b)
    (hc : b.basic = some c) : (∀ d ∈ t.rows.take r, d.basic ≠ some c) ∧
      ∀ d ∈ t.rows.drop (r + 1), d.basic ≠ some c := by
  have hother (k : ℕ) (d : BasicRow α) (hd : t.rows[k]? = some d) (hdc : d.basic = some c) :
      k = r := by
    refine h.unique k r c ?_ ?_
    · rw [getElem?_basis hd, hdc]
    · rw [getElem?_basis hb, hc]
  constructor
  · intro d hd hdc
    obtain ⟨k, hk⟩ := List.getElem?_of_mem hd
    rw [List.getElem?_take] at hk
    split at hk
    · next hlt => exact hlt.ne (hother k d hk hdc)
    · cases hk
  · intro d hd hdc
    obtain ⟨k, hk⟩ := List.getElem?_of_mem hd
    rw [List.getElem?_drop] at hk
    have heq := hother _ d hk hdc
    omega

theorem assignment_removeRow (h : t.DistinctBasis) (hb : t.rows[r]? = some b) :
    (t.removeRow r).assignment = b.basic.elim t.assignment fun c => t.assignment.set c 0 := by
  have hrest : (t.removeRow r).assignment = (t.rows.drop (r + 1)).foldl place
      ((t.rows.take r).foldl place (List.replicate t.width 0)) := by
    rw [← List.foldl_append, ← List.eraseIdx_eq_take_drop_succ]
    rfl
  rw [hrest, assignment_split hb, place]
  cases hc : b.basic with
  | none => rfl
  | some c =>
      obtain ⟨hbefore, hafter⟩ := h.ne_basic hb hc
      dsimp only [Option.elim_some]
      rw [set_foldl_place hafter, List.set_set, set_foldl_place hbefore, List.set_replicate_self]

theorem basis_removeColumns (h : t.Fits t.width) (hw : t.width ∉ cols) (labels : List String) :
    (t.removeColumns cols labels).basis = t.basis.map fun basic =>
      basic.bind fun c => if c ∈ cols then none else some (landing cols c) := by
  rw [basis, rows_eq_without h hw, basis, List.map_map, List.map_map]
  rfl

namespace DistinctBasis

omit [Scalar α] in
theorem fits (h : t.DistinctBasis) : t.Fits t.width := by
  refine ⟨rfl, fun b hb c hc => ?_⟩
  obtain ⟨r, hr⟩ := List.getElem?_of_mem hb
  exact h.lt r c (by rw [getElem?_basis hr, hc])

omit [Scalar α] in
theorem removeRow (h : t.DistinctBasis) (r : ℕ) : (t.removeRow r).DistinctBasis := by
  have hget (k : ℕ) : (t.removeRow r).basis[k]? = t.basis[if k < r then k else k + 1]? := by
    rw [basis, List.getElem?_map, getElem?_removeRow, basis, List.getElem?_map]
  constructor
  · intro k c hk
    rw [hget] at hk
    exact h.lt _ c hk
  · intro k m c hk hm
    rw [hget] at hk hm
    have heq := h.unique _ _ c hk hm
    split at heq <;> split at heq <;> omega

theorem removeColumns (h : t.DistinctBasis) (hw : t.width ∉ cols) (labels : List String) :
    (t.removeColumns cols labels).DistinctBasis := by
  have hget (k c : ℕ) (hk : (t.removeColumns cols labels).basis[k]? = some (some c)) :
      ∃ e, t.basis[k]? = some (some e) ∧ e ∉ cols ∧ c = landing cols e := by
    rw [basis_removeColumns h.fits hw, List.getElem?_map, Option.map_eq_some_iff] at hk
    obtain ⟨basic, hbasic, hbind⟩ := hk
    obtain ⟨e, rfl, he⟩ := Option.bind_eq_some_iff.1 hbind
    split at he
    · cases he
    · next hmem => exact ⟨e, hbasic, hmem, (Option.some.inj he).symm⟩
  constructor
  · intro k c hk
    obtain ⟨e, he, hmem, rfl⟩ := hget k c hk
    rw [width_eq_landing hw]
    exact landing_lt hmem (h.lt k e he)
  · intro k m c hk hm
    obtain ⟨e, he, hmem, rfl⟩ := hget k c hk
    obtain ⟨f, hf, hmem', hland⟩ := hget m _ hm
    -- two columns that stay never land on one
    rcases Nat.lt_trichotomy e f with hlt | rfl | hlt
    · exact absurd hland (landing_lt hmem hlt).ne
    · exact h.unique k m e he hf
    · exact absurd hland (landing_lt hmem' hlt).ne'

end DistinctBasis

theorem removeRow_removeColumns (t : Tableau α) (r : ℕ) (cols : List ℕ) (labels : List String) :
    (t.removeRow r).removeColumns cols labels = (t.removeColumns cols labels).removeRow r := by
  ext1
  · rfl
  · rfl
  · exact (List.eraseIdx_map _ _ _).symm
  · rfl

/-- What is left of a tableau without some columns or without a row is as it was: the basic solution
loses the entries of the columns, or has 0 where the row's basic column is, and rows and columns
stand where they land, with the same entries and the same basis. -/
theorem rest_of_removal (h : t.DistinctBasis) (hw : t.width ∉ cols) (labels : List String)
    (hb : t.rows[r]? = some b) :
    (t.removeColumns cols labels).assignment = dropAt cols t.assignment ∧
    (t.removeColumns cols labels).width = landing cols t.width ∧
    (∀ c ∉ cols, (t.removeColumns cols labels).column (landing cols c) = t.column c) ∧
    (∀ (k : ℕ) (basic : Option ℕ), t.basis[k]? = some basic →
      (t.removeColumns cols labels).basis[k]? =
        some (basic.bind fun c => if c ∈ cols then none else some (landing cols c))) ∧
    (t.removeRow r).assignment = b.basic.elim t.assignment (t.assignment.set · 0) ∧
    (t.removeRow r).objective = t.objective ∧
    (∀ k : ℕ, (t.removeRow r).rows[k]? = t.rows[if k < r then k else k + 1]?) ∧
    (t.removeColumns cols labels).DistinctBasis ∧ (t.removeRow r).DistinctBasis ∧
    (t.removeRow r).removeColumns cols labels = (t.removeColumns cols labels).removeRow r ∧
    t.grid.removeColumns? cols = some (t.removeColumns cols labels).grid ∧
    t.grid.removeRow? r = some (t.removeRow r).grid := by
  refine ⟨assignment_removeColumns h.fits hw labels, width_eq_landing hw labels,
    fun c hc => column_removeColumns h.fits hw labels hc, fun k basic hk => ?_,
    assignment_removeRow h hb, rfl, t.getElem?_removeRow r, h.removeColumns hw labels,
    h.removeRow r, t.removeRow_removeColumns r cols labels, removeColumns?_grid hw labels,
    removeRow?_grid (List.getElem?_eq_some_iff.1 hb).1⟩
  rw [basis_removeColumns h.fits hw, List.getElem?_map, hk, Option.map_some]

theorem HasUnitBasis.distinctBasis {t : Tableau ℚ} (h : t.HasUnitBasis) : t.DistinctBasis := by
  constructor
  · exact fun r c hr => h.lt_of_mem_basis (List.mem_of_getElem? hr)
  · intro r k c hr hk
    obtain ⟨hlt, -⟩ := List.getElem?_eq_some_iff.1 hr
    exact (List.getElem?_inj hlt h.nodup_basis).1 (hr.trans hk.symm)

theorem rest_of_removal_paired :
    ((paired 0).removeColumns [7, 1, 1] ["x", "w"]).assignment = [0, 3] ∧
    ((paired 0).removeColumns [7, 1, 1] ["x", "w"]).basis[0]? = some none ∧
    ((paired 0).removeColumns [7, 1, 1] ["x", "w"]).basis[1]? = some (some 1) ∧
    ((paired 0).removeRow 0).assignment = [0, 0, 3] := by
  have hw : (paired 0).width ∉ [7, 1, 1] := by simp [paired, width, Row.width]
  obtain ⟨hcols, -, -, hbasis, hrow, -⟩ :=
    rest_of_removal (hasUnitBasis_paired 0).distinctBasis hw ["x", "w"] (r := 0) rfl
  exact ⟨hcols, hbasis 0 _ rfl, hbasis 1 _ rfl, hrow⟩

end Tableau

end LinProg
