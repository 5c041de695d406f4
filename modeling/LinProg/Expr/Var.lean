namespace LinProg

/-- A decision variable: a position within the program that owns it. The name is for display only,
two variables are the same when position and owner agree. -/
structure Var where
  name : String
  index : Nat
  owner : Nat
  deriving Repr

namespace Var

instance : BEq Var := ⟨fun v w => v.index == w.index && v.owner == w.owner⟩

instance : LT Var := ⟨fun v w => v.index < w.index ∨ v.index = w.index ∧ v.owner < w.owner⟩

variable {u v w : Var}

theorem lt_iff : v < w ↔ v.index < w.index ∨ v.index = w.index ∧ v.owner < w.owner := Iff.rfl

instance : DecidableLT Var := fun _ _ => decidable_of_iff _ lt_iff.symm

theorem beq_iff : (v == w) = true ↔ v.index = w.index ∧ v.owner = w.owner := by
  change (v.index == w.index && v.owner == w.owner) = true ↔ _
  simp

theorem lt_trans (h : u < v) (k : v < w) : u < w := by
  rw [lt_iff] at *; omega

theorem beq_of_not_lt (h : ¬ v < w) (k : ¬ w < v) : (v == w) = true := by
  rw [lt_iff] at h k; rw [beq_iff]; omega

end Var

end LinProg
