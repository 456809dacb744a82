/-
Selectors of a local descriptor table.

The scan of `ldt_alloc_selector` starts at an entry that the clock chooses and goes round
from the last entry to entry 1.  Probe `p` is therefore made at the entry
`ldtProbe n esi p`, and every entry from 1 on is met within the budget.

* **`ldtAllocScan_none_iff`** — the scan fails exactly when every probe meets a set bit;
* **`ldtProbe_surjective`** — the probes meet every entry from 1 on;
* **`ldtAllocSelector_complete`** — a free entry is found whenever there is one, and three
  calls on a fresh bitmap give three selectors.
-/
import VirtualKernel.CallFrames

namespace VirtualKernel

open Lib

/-- The entry of probe `p` of a scan that starts at `esi`. -/
def ldtProbe (n esi p : ℕ) : ℕ := 1 + (esi - 1 + p) % (n - 1)

section Probes

variable {n esi : ℕ}

/-- The entry that is tested at `esi` is probe 0, also past the end. -/
theorem ldtProbe_zero (hn : 2 ≤ n) (h₁ : 1 ≤ esi) (h₂ : esi ≤ n) :
    ldtProbe n esi 0 = if esi < n then esi else 1 := by
  rw [ldtProbe, Nat.add_zero]
  split_ifs with h
  · rw [Nat.mod_eq_of_lt (by omega)]
    omega
  · obtain rfl : esi = n := by omega
    rw [Nat.mod_self]

/-- The probes that follow are those of a scan that starts one entry further. -/
theorem ldtProbe_succ (hn : 2 ≤ n) (h₁ : 1 ≤ esi) (h₂ : esi ≤ n) (p : ℕ) :
    ldtProbe n ((if esi < n then esi else 1) + 1) p = ldtProbe n esi (p + 1) := by
  split_ifs with h
  · rw [ldtProbe, ldtProbe, show esi + 1 - 1 + p = esi - 1 + (p + 1) by omega]
  · obtain rfl : esi = n := by omega
    rw [ldtProbe, ldtProbe, Nat.add_mod_left, Nat.add_comm 1 1, Nat.add_sub_cancel, Nat.add_comm p]

/-- **Every entry from 1 on is met** before the budget of `n` probes is used. -/
theorem ldtProbe_surjective {j : ℕ} (hn : 2 ≤ n) (h₁ : 1 ≤ esi) (h₂ : esi < n) (hj₁ : 1 ≤ j)
    (hj₂ : j < n) : ∃ p < n, ldtProbe n esi p = j := by
  by_cases h : esi ≤ j
  · -- before the wrap
    refine ⟨j - esi, by omega, ?_⟩
    rw [ldtProbe, show esi - 1 + (j - esi) = j - 1 by omega, Nat.mod_eq_of_lt (by omega)]
    omega
  · -- after it
    refine ⟨n - 1 - esi + j, by omega, ?_⟩
    rw [ldtProbe, show esi - 1 + (n - 1 - esi + j) = n - 1 + (j - 1) by omega, Nat.add_mod_left,
      Nat.mod_eq_of_lt (by omega)]
    omega

/-- **The scan fails exactly when every probe meets a set bit.** -/
theorem ldtAllocScan_none_iff {f : ℕ → ℕ} (hn : 2 ≤ n) : ∀ {ebx esi : ℕ}, 1 ≤ esi → esi ≤ n →
    (ldtAllocScan f n ebx esi = none ↔ ∀ p < ebx, bitOf f (ldtProbe n esi p) = true) := by
  intro ebx
  induction ebx with
  | zero => simp [ldtAllocScan]
  | succ ebx ih =>
    intro esi h₁ h₂
    have hfirst := ldtProbe_zero hn h₁ h₂
    have hrest := ldtProbe_succ hn h₁ h₂
    set e := if esi < n then esi else 1 with he
    have he₁ : 1 ≤ e ∧ e < n := by
      rw [he]
      split_ifs <;> omega
    rw [ldtAllocScan, ← he]
    by_cases hb : bitOf f e = true
    · rw [if_pos hb, ih (by omega) (by omega)]
      constructor
      · intro h p hp
        cases p with
        | zero => rw [hfirst, hb]
        | succ p => rw [← hrest, h p (by omega)]
      · intro h p hp
        rw [hrest, h (p + 1) (by omega)]
    · rw [if_neg hb]
      constructor
      · intro h
        cases h
      · intro h
        rw [← hfirst] at hb
        exact absurd (h 0 (by omega)) hb

end Probes

/-! ### One call -/

section Calls

variable {n : ℕ}

/-- One call: a free entry from 1 on is found and marked, or there is none. -/
theorem ldtAllocSelector_found (k : Kernel) (bitmap : ℕ) (hn : 2 ≤ n) :
    Runs (ldtAllocSelector bitmap n) k fun r k' => ∃ tsc,
      (∃ i, 1 ≤ i ∧ i < n ∧ bitOf (k.mem bitmap) i = false ∧ r = some (i * 8 ||| 7) ∧
        k' = Kernel.setMem { k with tsc := tsc } bitmap (setBit (k.mem bitmap) i)) ∨
      ((∀ j, 1 ≤ j → j < n → bitOf (k.mem bitmap) j = true) ∧ r = none ∧
        k' = { k with tsc := tsc }) := by
  refine runs_modifyGet ?_
  rw [if_neg (by omega)]
  dsimp only
  refine ⟨fun i => k.tsc (i + 1), ?_⟩
  -- the clock chooses the start
  have hstart : k.tsc 0 % 2 ^ 32 % (n - 1) < n - 1 := Nat.mod_lt _ (by omega)
  cases hscan : ldtAllocScan (k.mem bitmap) n n (k.tsc 0 % 2 ^ 32 % (n - 1) + 1) with
  | none =>
    refine Or.inr ⟨?_, rfl, rfl⟩
    intro j hj₁ hj₂
    have hesi₁ : 1 ≤ k.tsc 0 % 2 ^ 32 % (n - 1) + 1 := Nat.le_add_left 1 _
    have hesi₂ : k.tsc 0 % 2 ^ 32 % (n - 1) + 1 < n := by omega
    obtain ⟨p, hp, rfl⟩ := ldtProbe_surjective hn hesi₁ hesi₂ hj₁ hj₂
    exact (ldtAllocScan_none_iff hn (by omega) (by omega)).mp hscan p hp
  | some i =>
    obtain ⟨h₁, h₂, hfree⟩ := ldtAllocScan_found (by omega) (by omega) hscan
    exact Or.inl ⟨i, h₁, h₂, hfree, rfl, rfl⟩

/-- A selector of the table at privilege level 3, and its entry. -/
theorem ldtSelector_parts (i : ℕ) : (i * 8 ||| 7) / 8 = i ∧ (i * 8 ||| 7) % 8 = 7 := by
  have h7 : (7 : ℕ) < 2 ^ 3 := by decide
  rw [show (8 : ℕ) = 2 ^ 3 from rfl, Nat.mul_comm, ← Nat.two_pow_add_eq_or_of_lt h7]
  omega

/-- One call on a bitmap with a free entry. -/
theorem ldtAllocSelector_some (k : Kernel) (bitmap : ℕ) (hn : 2 ≤ n)
    (hfree : ∃ j, 1 ≤ j ∧ j < n ∧ bitOf (k.mem bitmap) j = false) :
    Runs (ldtAllocSelector bitmap n) k fun r k' =>
      ∃ i, 1 ≤ i ∧ i < n ∧ bitOf (k.mem bitmap) i = false ∧ r = some (i * 8 ||| 7) ∧
        k'.mem = Function.update k.mem bitmap (setBit (k.mem bitmap) i) := by
  refine (ldtAllocSelector_found k bitmap hn).mono ?_
  rintro r k' ⟨tsc, ⟨i, h₁, h₂, hi, hr, rfl⟩ | ⟨hall, -, -⟩⟩
  · exact ⟨i, h₁, h₂, hi, hr, rfl⟩
  · obtain ⟨j, hj₁, hj₂, hj⟩ := hfree
    rw [hall j hj₁ hj₂] at hj
    cases hj

end Calls

/-- Three calls of `ldt_alloc_selector`, as `process_create_random_ldt` makes them. -/
def ldtAllocThree (bitmap n : ℕ) : KM (Option ℕ × Option ℕ × Option ℕ) := do
  let cs ← ldtAllocSelector bitmap n
  let ds ← ldtAllocSelector bitmap n
  let ss ← ldtAllocSelector bitmap n
  return (cs, ds, ss)

/-- The bitmap of a table of `n` entries after `process_create_random_ldt` has cleared it and
set bit 0. -/
def FreshBitmap (n : ℕ) (f : ℕ → ℕ) : Prop := ∀ j < n, bitOf f j = decide (j = 0)

/-- A selector of a local table at privilege level 3 that is not entry 0. -/
def RingThreeLdt (sel : ℕ) : Prop := sel % 8 = 7 ∧ sel / 8 ≠ 0

/-- Three calls on a fresh bitmap: three different entries from 1 on. -/
theorem ldtAllocThree_fresh {n : ℕ} (hn : 4 ≤ n) {k : Kernel} {bitmap : ℕ}
    (hfresh : FreshBitmap n (k.mem bitmap)) :
    Runs (ldtAllocThree bitmap n) k fun r _ => ∃ cs ds ss, r = (some cs, some ds, some ss) ∧
      cs ≠ ds ∧ cs ≠ ss ∧ ds ≠ ss ∧ RingThreeLdt cs ∧ RingThreeLdt ds ∧ RingThreeLdt ss := by
  have hclear : ∀ j, 1 ≤ j → j < n → bitOf (k.mem bitmap) j = false := fun j h₁ h₂ => by
    rw [hfresh j h₂, decide_eq_false (by omega)]
  have hring : ∀ i, 1 ≤ i → RingThreeLdt (i * 8 ||| 7) := fun i hi => by
    refine ⟨(ldtSelector_parts i).2, ?_⟩
    rw [(ldtSelector_parts i).1]
    omega
  -- different entries have different selectors
  have hne : ∀ i j, i ≠ j → i * 8 ||| 7 ≠ j * 8 ||| 7 := fun i j hij h => by
    have hentry := congrArg (· / 8) h
    simp only [ldtSelector_parts] at hentry
    exact hij hentry
  refine runs_bind (ldtAllocSelector_some k bitmap (by omega)
    ⟨1, by omega, by omega, hclear 1 (by omega) (by omega)⟩) ?_
  rintro _ k₁ ⟨a, ha₁, ha₂, -, rfl, hmem₁⟩
  have hbits₁ : ∀ j, j ≠ a → 1 ≤ j → j < n → bitOf (k₁.mem bitmap) j = false := by
    intro j hj h₁ h₂
    rw [hmem₁, Function.update_self, bitOf_setBit_of_ne _ hj, hclear j h₁ h₂]
  have hset₁ : bitOf (k₁.mem bitmap) a = true := by
    rw [hmem₁, Function.update_self, bitOf_setBit_self]
  -- one of the entries 1 and 2 is still free
  have hfree₁ : ∃ j, 1 ≤ j ∧ j < n ∧ bitOf (k₁.mem bitmap) j = false := by
    by_cases h : a = 1
    · exact ⟨2, by omega, by omega, hbits₁ 2 (by omega) (by omega) (by omega)⟩
    · exact ⟨1, by omega, by omega, hbits₁ 1 (by omega) (by omega) (by omega)⟩
  refine runs_bind (ldtAllocSelector_some k₁ bitmap (by omega) hfree₁) ?_
  rintro _ k₂ ⟨b, hb₁, hb₂, hbfree, rfl, hmem₂⟩
  have hba : b ≠ a := by
    rintro rfl
    rw [hset₁] at hbfree
    cases hbfree
  have hbits₂ : ∀ j, j ≠ a → j ≠ b → 1 ≤ j → j < n → bitOf (k₂.mem bitmap) j = false := by
    intro j hja hjb h₁ h₂
    rw [hmem₂, Function.update_self, bitOf_setBit_of_ne _ hjb, hbits₁ j hja h₁ h₂]
  have hset₂ : bitOf (k₂.mem bitmap) a = true ∧ bitOf (k₂.mem bitmap) b = true := by
    rw [hmem₂, Function.update_self, bitOf_setBit_of_ne _ hba.symm, bitOf_setBit_self]
    exact ⟨hset₁, rfl⟩
  -- one of the entries 1, 2 and 3 is still free
  have hfree₂ : ∃ j, 1 ≤ j ∧ j < n ∧ bitOf (k₂.mem bitmap) j = false := by
    by_cases h1 : a ≠ 1 ∧ b ≠ 1
    · exact ⟨1, by omega, by omega, hbits₂ 1 (by omega) (by omega) (by omega) (by omega)⟩
    · by_cases h2 : a ≠ 2 ∧ b ≠ 2
      · exact ⟨2, by omega, by omega, hbits₂ 2 (by omega) (by omega) (by omega) (by omega)⟩
      · exact ⟨3, by omega, by omega, hbits₂ 3 (by omega) (by omega) (by omega) (by omega)⟩
  refine runs_bind (ldtAllocSelector_some k₂ bitmap (by omega) hfree₂) ?_
  rintro _ k₃ ⟨c, hc₁, hc₂, hcfree, rfl, -⟩
  have hca : c ≠ a := by
    rintro rfl
    rw [hset₂.1] at hcfree
    cases hcfree
  have hcb : c ≠ b := by
    rintro rfl
    rw [hset₂.2] at hcfree
    cases hcfree
  exact runs_pure ⟨_, _, _, rfl, hne a b hba.symm, hne a c hca.symm, hne b c hcb.symm, hring a ha₁,
    hring b hb₁, hring c hc₁⟩

/-- **Selector allocation is complete for every start.**  If an entry from 1 on is free, a
free entry is returned and only its bit is set; otherwise nothing is returned and nothing
changes.  Three calls on a fresh bitmap return three different selectors of ring 3, none of
which is entry 0. -/
theorem ldtAllocSelector_complete {n : ℕ} (hn : 2 ≤ n) (k : Kernel) (bitmap : ℕ) :
    (Runs (ldtAllocSelector bitmap n) k fun r k' =>
      ((∃ j, 1 ≤ j ∧ j < n ∧ bitOf (k.mem bitmap) j = false) →
        ∃ i, 1 ≤ i ∧ i < n ∧ bitOf (k.mem bitmap) i = false ∧ r = some (i * 8 ||| 7) ∧
          (∀ j, bitOf (k'.mem bitmap) j = if j = i then true else bitOf (k.mem bitmap) j) ∧
          ∀ p, p ≠ bitmap → k'.mem p = k.mem p) ∧
      ((¬∃ j, 1 ≤ j ∧ j < n ∧ bitOf (k.mem bitmap) j = false) → r = none ∧ k'.mem = k.mem)) ∧
    (4 ≤ n → FreshBitmap n (k.mem bitmap) →
      Runs (ldtAllocThree bitmap n) k fun r _ => ∃ cs ds ss, r = (some cs, some ds, some ss) ∧
        cs ≠ ds ∧ cs ≠ ss ∧ ds ≠ ss ∧ RingThreeLdt cs ∧ RingThreeLdt ds ∧ RingThreeLdt ss) := by
  refine ⟨(ldtAllocSelector_found k bitmap hn).mono ?_, fun h4 hf => ldtAllocThree_fresh h4 hf⟩
  rintro r k' ⟨tsc, ⟨i, h₁, h₂, hi, rfl, rfl⟩ | ⟨hall, rfl, rfl⟩⟩
  · constructor
    · intro _
      refine ⟨i, h₁, h₂, hi, rfl, ?_, fun p hp => Function.update_of_ne hp _ _⟩
      intro j
      have hbitmap : (Kernel.setMem { k with tsc := tsc } bitmap
          (setBit (k.mem bitmap) i)).mem bitmap = setBit (k.mem bitmap) i :=
        Function.update_self _ _ _
      rw [hbitmap]
      split_ifs with hj
      · rw [hj, bitOf_setBit_self]
      · exact bitOf_setBit_of_ne _ hj
    · intro hnone
      exact absurd ⟨i, h₁, h₂, hi⟩ hnone
  · constructor
    · rintro ⟨j, hj₁, hj₂, hj⟩
      rw [hall j hj₁ hj₂] at hj
      cases hj
    · intro _
      exact ⟨rfl, rfl⟩

/-- The three calls of `process_create_random_ldt`. -/
theorem ldtAllocSelector_complete_process :
    Runs (ldtAllocThree 0 ldtEntryCount) (entryKernel.setMem 0 (setBit (fun _ => 0) 0))
      fun r _ => ∃ cs ds ss, r = (some cs, some ds, some ss) ∧
        cs ≠ ds ∧ cs ≠ ss ∧ ds ≠ ss ∧ RingThreeLdt cs ∧ RingThreeLdt ds ∧ RingThreeLdt ss := by
  refine (ldtAllocSelector_complete (by decide) _ 0).2 (by decide) fun j _ => ?_
  have hbitmap : (entryKernel.setMem 0 (setBit (fun _ => 0) 0)).mem 0 = setBit (fun _ => 0) 0 := by
    simp [Kernel.setMem]
  rw [hbitmap]
  by_cases hj : j = 0
  · rw [hj, bitOf_setBit_self, decide_eq_true rfl]
  · rw [bitOf_setBit_of_ne _ hj, decide_eq_false hj, bitOf, Nat.zero_testBit]

end VirtualKernel
