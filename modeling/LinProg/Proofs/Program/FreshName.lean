import LinProg.Proofs.Program.Store
import LinProg.Program.FreshName

namespace LinProg

theorem repr_injective {m n : Nat} (h : m.repr = n.repr) : m = n := by
  have hd := congrArg (fun s : String => Nat.ofDigitChars 10 s.toList 0) h
  simpa using hd

theorem candidateName_injective (base : String) {j k : Nat}
    (h : candidateName base j = candidateName base k) : j = k := by
  have hne (i : Nat) : candidateName base 0 ≠ candidateName base (i + 1) := by
    intro he
    have hl : base.length = (base ++ "_" ++ (i + 1).repr).length := congrArg String.length he
    have hu : "_".length = 1 := rfl
    rw [String.length_append, String.length_append, hu] at hl
    omega
  cases j with
  | zero =>
      cases k with
      | zero => rfl
      | succ k => exact absurd h (hne k)
  | succ j =>
      cases k with
      | zero => exact absurd h.symm (hne j)
      | succ k => exact repr_injective ((String.append_right_inj _).1 h)

namespace Program

variable {α : Type} (p : Program α)

theorem var?_isNone_iff {name : String} : (p.var? name).isNone ↔ name ∉ p.names := by
  simp [var?, names]

theorem exists_free (base : String) :
    ∃ k ∈ List.range (p.vars.length + 1), candidateName base k ∉ p.names := by
  by_contra hn
  push Not at hn
  have hd : ((List.range (p.vars.length + 1)).map (candidateName base)).Nodup :=
    List.nodup_range.map fun j k h => candidateName_injective base h
  have hs : (List.range (p.vars.length + 1)).map (candidateName base) ⊆ p.names := by
    intro name hm
    obtain ⟨k, hk, rfl⟩ := List.mem_map.1 hm
    exact hn k hk
  have hl := (hd.subperm hs).length_le
  simp [names] at hl

theorem exists_find?_free (base : String) : ∃ k, (List.range (p.vars.length + 1)).find?
    (fun k => (p.var? (candidateName base k)).isNone) = some k := by
  obtain ⟨k, hk, hf⟩ := p.exists_free base
  exact Option.isSome_iff_exists.1 (List.find?_isSome.2 ⟨k, hk, p.var?_isNone_iff.2 hf⟩)

theorem freshName_not_mem (base : String) : p.freshName base ∉ p.names := by
  obtain ⟨k, hk⟩ := p.exists_find?_free base
  have hf := p.var?_isNone_iff.1 (by simpa only using List.find?_some hk)
  simpa only [freshName, hk, Option.getD_some] using hf

theorem addVariable_freshName (base : String) :
    p.addVariable (p.freshName base) =
      .ok (⟨p.freshName base, p.vars.length, p.id⟩,
        { p with vars := p.vars ++ [⟨p.freshName base, p.vars.length, p.id⟩] }) := by
  have hn := p.var?_isNone_iff.2 (p.freshName_not_mem base)
  rw [addVariable, if_neg (by simpa [Option.not_isSome] using hn)]

end Program

end LinProg
