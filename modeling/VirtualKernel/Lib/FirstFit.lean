/-
Free numbers in ascending order.

`freeBelow n used` lists the numbers below `n` that are not in use.  A first-fit
allocator takes the head of the list, so what it has taken is always an initial segment
(`freeBelow_cons`), and neighbours in number are neighbours in the list
(`getElem_succ_of_mem`).
-/
import Mathlib.Data.List.Sort

namespace VirtualKernel.Lib

/-- The numbers below `n` that are not in use, in ascending order. -/
def freeBelow (n : ℕ) (used : ℕ → Bool) : List ℕ := (List.range n).filter fun i => !used i

variable {n a : ℕ} {used : ℕ → Bool}

theorem mem_freeBelow : a ∈ freeBelow n used ↔ a < n ∧ used a = false := by
  rw [freeBelow, List.mem_filter, List.mem_range, Bool.not_eq_true']

theorem freeBelow_sorted (n : ℕ) (used : ℕ → Bool) : (freeBelow n used).Pairwise (· < ·) :=
  List.pairwise_lt_range.filter _

/-- No number is free. -/
theorem freeBelow_eq_nil (h : ∀ i < n, used i = true) : freeBelow n used = [] := by
  refine List.eq_nil_iff_forall_not_mem.mpr fun i hi => ?_
  obtain ⟨hlt, hfree⟩ := mem_freeBelow.mp hi
  rw [h i hlt] at hfree
  cases hfree

/-- **Taking the lowest free number** takes the head. -/
theorem freeBelow_cons (ha : a < n) (hfree : used a = false) (hlow : ∀ i < a, used i = true) :
    freeBelow n used = a :: freeBelow n (Function.update used a true) := by
  have hmem : ∀ i, i ∈ freeBelow n (Function.update used a true) ↔
      i ≠ a ∧ i ∈ freeBelow n used := by
    intro i
    rw [mem_freeBelow, mem_freeBelow]
    by_cases hi : i = a
    · simp [hi]
    · simp [hi]
  have hrest : (a :: freeBelow n (Function.update used a true)).Pairwise (· < ·) := by
    refine List.pairwise_cons.mpr ⟨fun i hi => ?_, freeBelow_sorted _ _⟩
    obtain ⟨hne, hi⟩ := (hmem i).mp hi
    rcases Nat.lt_or_gt_of_ne hne with hlt | hgt
    · have husedi := hlow i hlt
      rw [(mem_freeBelow.mp hi).2] at husedi
      cases husedi
    · exact hgt
  refine (freeBelow_sorted n used).eq_of_mem_iff hrest fun i => ?_
  rw [List.mem_cons, hmem]
  by_cases hi : i = a
  · simp [hi, mem_freeBelow, ha, hfree]
  · simp [hi]

/-- In an ascending list the successor of an entry, if it is there, is the next entry. -/
theorem getElem_succ_of_mem {l : List ℕ} (hl : l.Pairwise (· < ·)) {i : ℕ} (hi : i < l.length)
    (hmem : l[i] + 1 ∈ l) : ∃ h : i + 1 < l.length, l[i + 1] = l[i] + 1 := by
  obtain ⟨j, hj, heq⟩ := List.getElem_of_mem hmem
  have hlt : ∀ a b (ha : a < l.length) (hb : b < l.length), a < b → l[a] < l[b] :=
    List.pairwise_iff_getElem.mp hl
  -- the index of the successor is above `i`
  have hij : i < j := by
    by_contra hle
    rcases Nat.lt_or_eq_of_le (Nat.not_lt.mp hle) with hlt' | rfl
    · have hji := hlt j i hj hi hlt'
      omega
    · omega
  refine ⟨by omega, ?_⟩
  by_cases hnext : j = i + 1
  · subst hnext
    exact heq
  · have h₁ := hlt i (i + 1) hi (by omega) (by omega)
    have h₂ := hlt (i + 1) j (by omega) hj (by omega)
    omega

end VirtualKernel.Lib
