import Mathlib.Order.Bounds.Defs
import LinProg.Proofs.Program.Ledger

namespace LinProg

variable {α : Type}

theorem Program.exists_isLeast_free (p : Program α) (base : String) :
    ∃ n ≤ p.vars.length, IsLeast {k | candidateName base k ∉ p.names} n ∧
      p.freshName base = candidateName base n := by
  obtain ⟨n, hn⟩ := p.exists_find?_free base
  obtain ⟨hfree, hmem, htaken⟩ := List.find?_range_eq_some.1 hn
  refine ⟨n, Nat.lt_succ_iff.1 (List.mem_range.1 hmem), ⟨?_, fun k hk => ?_⟩, ?_⟩
  · exact p.var?_isNone_iff.1 hfree
  · by_contra hlt
    have htaken := htaken k (not_le.1 hlt)
    rw [p.var?_isNone_iff.2 hk] at htaken
    cases htaken
  · simp only [freshName, hn, Option.getD_some]

namespace Ledger

/-- The search for a free name with `name` at hand: while a variable has it, `base_k` takes its
place and `k` goes up. It ends after `n` renamings, with the name `found`. -/
inductive Searches (s : Ledger α) (base : String) : ℕ → String → ℕ → String → Prop
  | free {k : ℕ} {name : String} (h : s.lookup name = none) : Searches s base k name 0 name
  | taken {k n : ℕ} {name found : String} {v : Var} (h : s.lookup name = some v)
      (rest : Searches s base (k + 1) s!"{base}_{k}" n found) : Searches s base k name (n + 1) found

variable {s : Ledger α} {base name found other : String} {k m n : ℕ}

theorem Searches.unique (h : s.Searches base k name n found) (h' : s.Searches base k name m other) :
    m = n ∧ other = found := by
  induction h generalizing m with
  | free hn =>
      cases h' with
      | free => exact ⟨rfl, rfl⟩
      | taken hs => rw [hn] at hs; cases hs
  | taken hs _ ih =>
      cases h' with
      | free hn => rw [hn] at hs; cases hs
      | taken _ rest =>
          obtain ⟨rfl, rfl⟩ := ih rest
          exact ⟨rfl, rfl⟩

theorem Sound.lookup_eq_none_iff (h : s.Sound) : s.lookup name = none ↔ name ∉ s.program.names := by
  rw [h.lookup_eq_var?, ← s.program.var?_isNone_iff, Option.isNone_iff_eq_none]

/-- With candidate `k` at hand the counter is at `k + 1`, so that one renaming leads to the next
candidate. -/
theorem Sound.searches_candidate (h : s.Sound)
    (htaken : ∀ j, k ≤ j → j < k + n → candidateName base j ∈ s.program.names)
    (hfree : candidateName base (k + n) ∉ s.program.names) :
    s.Searches base (k + 1) (candidateName base k) n (candidateName base (k + n)) := by
  induction n generalizing k with
  | zero => exact .free (h.lookup_eq_none_iff.2 hfree)
  | succ n ih =>
      have hk : s.lookup (candidateName base k) ≠ none := fun hn =>
        h.lookup_eq_none_iff.1 hn (htaken k le_rfl (by omega))
      obtain ⟨v, hv⟩ := Option.ne_none_iff_exists'.1 hk
      have hstep : k + (n + 1) = k + 1 + n := by omega
      rw [hstep] at hfree ⊢
      exact .taken hv (ih (fun j hj hlt => htaken j (by omega) (by omega)) hfree)

/-- The search for a fresh name ends, after no more renamings than there are variables, with the
first candidate that is free, and a variable of that name is not refused. -/
theorem Sound.searches_freshName (h : s.Sound) (base : String) :
    ∃ n ≤ s.program.vars.length,
      s.Searches base 1 base n (s.program.freshName base) ∧
      (∀ m found, s.Searches base 1 base m found → m = n ∧ found = s.program.freshName base) ∧
      s.program.freshName base = candidateName base n ∧
      IsLeast {k | candidateName base k ∉ s.program.names} n ∧
      ∃ v t, Ledger.createVariable (s.program.freshName base) s = (.ok v, t) ∧
        s.program.addVariable (s.program.freshName base) = .ok (v, t.program) ∧
        v.name = s.program.freshName base ∧ t.Sound := by
  obtain ⟨n, hn, hleast, hname⟩ := s.program.exists_isLeast_free base
  have htaken : ∀ j, 0 ≤ j → j < 0 + n → candidateName base j ∈ s.program.names := by
    intro j _ hj
    by_contra hfree
    exact absurd (hleast.2 hfree) (by omega)
  have hsearch := h.searches_candidate htaken (by simpa using hleast.1)
  rw [Nat.zero_add, Nat.zero_add, ← hname] at hsearch
  have hadd := s.program.addVariable_freshName base
  exact ⟨n, hn, hsearch, fun m found hm => hsearch.unique hm, hname, hleast, _, _,
    h.createVariable_freshName base, hadd, rfl, h.createVariable hadd⟩

def occupied : Ledger ℚ where
  program := ⟨"m", 0, [⟨"s0", 0, 0⟩, ⟨"s0_1", 1, 0⟩], [], none⟩
  places := ((∅ : Std.HashMap String ℕ).insert "s0" 0).insert "s0_1" 1

theorem sound_occupied : occupied.Sound := by
  have hadd (p : Program ℚ) (name : String) (hn : (p.var? name).isNone) :
      p.addVariable name = .ok (⟨name, p.vars.length, p.id⟩,
        { p with vars := p.vars ++ [⟨name, p.vars.length, p.id⟩] }) := by
    rw [Program.addVariable, if_neg (by simpa using hn)]
  have hfirst := (sound_new "m" 0).createVariable (hadd (.new "m" 0) "s0" rfl)
  exact hfirst.createVariable (hadd _ "s0_1" rfl)

theorem searches_freshName_occupied :
    occupied.Sound ∧ occupied.Searches "s0" 1 "s0" 2 (occupied.program.freshName "s0") ∧
      occupied.program.freshName "s0" = "s0_2" := by
  have hfree : occupied.program.freshName "s0" = "s0_2" := by decide +kernel
  refine ⟨sound_occupied, ?_, hfree⟩
  obtain ⟨n, hn, hsearch, -, hname, -⟩ := sound_occupied.searches_freshName "s0"
  have h2 : n = 2 := candidateName_injective "s0" (hname.symm.trans hfree)
  exact h2 ▸ hsearch

end Ledger

end LinProg
