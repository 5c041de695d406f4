import LinProg.Scalar
import LinProg.Expr.Var

namespace LinProg

/-- Coefficients by variable: each variable once, in the order of the variables. -/
@[ext]
structure Terms (α : Type) where
  toList : List (Var × α)
  sorted : toList.Pairwise fun a b => a.1 < b.1

namespace Terms

variable {α : Type} [Scalar α]

/-- Adds `c` to the coefficient of `v`, which counts as 0 as long as `v` has no term. -/
def insert (v : Var) (c : α) : List (Var × α) → List (Var × α)
  | [] => [(v, 0 + c)]
  | (w, d) :: ts =>
    if v < w then (v, 0 + c) :: (w, d) :: ts
    else if w < v then (w, d) :: insert v c ts
    else (w, d + c) :: ts

theorem lt_of_mem_insert {u v : Var} {c : α} {ts : List (Var × α)} (hv : u < v)
    (h : ∀ t ∈ ts, u < t.1) : ∀ t ∈ insert v c ts, u < t.1 := by
  induction ts with
  | nil => simpa [insert] using hv
  | cons t ts ih =>
    obtain ⟨w, d⟩ := t
    simp only [List.forall_mem_cons] at h
    unfold insert
    split
    · simpa using ⟨hv, h.1, fun a b => h.2 (a, b)⟩
    · split
      · simpa using ⟨h.1, fun a b => ih h.2 (a, b)⟩
      · simpa using ⟨h.1, fun a b => h.2 (a, b)⟩

theorem sorted_insert (v : Var) (c : α) {ts : List (Var × α)}
    (h : ts.Pairwise fun a b => a.1 < b.1) : (insert v c ts).Pairwise fun a b => a.1 < b.1 := by
  induction ts with
  | nil => simp [insert]
  | cons t ts ih =>
    obtain ⟨w, d⟩ := t
    obtain ⟨hw, hs⟩ := List.pairwise_cons.1 h
    unfold insert
    split
    · next hlt =>
      refine List.pairwise_cons.2 ⟨?_, h⟩
      simpa using ⟨hlt, fun a b m => Var.lt_trans hlt (hw (a, b) m)⟩
    · split
      · next hlt => exact List.pairwise_cons.2 ⟨lt_of_mem_insert hlt hw, ih hs⟩
      · exact List.pairwise_cons.2 ⟨hw, hs⟩

def empty : Terms α := ⟨[], .nil⟩

def single (v : Var) (c : α) : Terms α := ⟨[(v, c)], by simp⟩

def add (t : Terms α) (v : Var) (c : α) : Terms α :=
  ⟨insert v c t.toList, sorted_insert v c t.sorted⟩

def addAll (t : Terms α) (l : List (Var × α)) : Terms α :=
  l.foldl (fun t a => t.add a.1 a.2) t

def scale (t : Terms α) (k : α) : Terms α :=
  ⟨t.toList.map fun a => (a.1, a.2 * k), List.pairwise_map.2 t.sorted⟩

def nonzero (t : Terms α) : Terms α :=
  ⟨t.toList.filter fun a => a.2 != 0, t.sorted.filter _⟩

def get? (t : Terms α) (v : Var) : Option α :=
  (t.toList.find? fun a => a.1 == v).map (·.2)

def vars (t : Terms α) : List Var :=
  t.toList.map (·.1)

instance : BEq (Terms α) := ⟨fun s t => s.toList == t.toList⟩

end Terms

end LinProg
