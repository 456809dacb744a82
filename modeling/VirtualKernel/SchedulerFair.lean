/-
Round-robin order of `scheduler_switch_next`.

`runOrder s` lists the indices that can be scheduled: the kernel task, then the
nonempty entries in increasing order.  One call moves from a position of this
list to the next one, cyclically (`schedulerSwitchNext_step`), so `n + 1` calls
visit the whole list once, rotated (`schedulerSwitchNext_fair`).
-/
import VirtualKernel.Scheduler
import Mathlib.Data.List.Rotate

namespace VirtualKernel

open Lib

/-- The nonempty entries of the task table in increasing order. -/
def Sched.runnable (s : Sched) : List ℕ :=
  (List.range maxTasks).filter fun i => s.taskTable i ≠ 0

/-- The indices that can be scheduled, in the order of the scheduler. -/
def Sched.runOrder (s : Sched) : List ℕ := noIndex :: s.runnable

/-- The selector of an index. -/
def Sched.selectorOf (s : Sched) (i : ℕ) : ℕ :=
  if i = noIndex then s.kernelTssSelector % 2 ^ 16 else s.taskTable i

/-- The scan meets the entries from `i` on in order; past the last one it ends
at the kernel task. -/
theorem schedulerSwitchNextScan_spec (s : Sched) (hk : s.kernelTssSelector % 2 ^ 16 ≠ 0) :
    ∀ (n i ecx eax : ℕ), i + n = maxTasks → add32 eax 1 = i →
      (n < ecx ∨ n ≤ ecx ∧ ∃ j ∈ List.range' i n, s.taskTable j ≠ 0) →
      schedulerSwitchNextScan s ecx eax =
        match (List.range' i n).filter fun j => s.taskTable j ≠ 0 with
        | [] => some (noIndex, s.kernelTssSelector % 2 ^ 16)
        | j :: _ => some (j, s.taskTable j) := by
  intro n
  induction n with
  | zero =>
    intro i ecx eax hi heax hecx
    have hpos : 0 < ecx := by
      rcases hecx with h | ⟨-, j, hj, -⟩
      · exact h
      · simp at hj
    obtain ⟨ecx, rfl⟩ : ∃ m, ecx = m + 1 := ⟨ecx - 1, by omega⟩
    rw [schedulerSwitchNextScan, if_neg (by omega), if_pos hk]
    rfl
  | succ n ih =>
    intro i ecx eax hi heax hecx
    obtain ⟨ecx, rfl⟩ : ∃ m, ecx = m + 1 := ⟨ecx - 1, by omega⟩
    rw [schedulerSwitchNextScan, heax, if_pos (by omega), List.range'_succ]
    by_cases hz : s.taskTable i = 0
    · rw [if_neg (by simpa using hz), List.filter_cons_of_neg (by simpa using hz)]
      refine ih (i + 1) ecx i (by omega) (add32_of_lt (by simp only [maxTasks] at hi; omega)) ?_
      rcases hecx with h | ⟨h, j, hj, hnz⟩
      · exact Or.inl (by omega)
      · rw [List.range'_succ] at hj
        rcases List.mem_cons.mp hj with rfl | hj
        · exact absurd hz hnz
        · exact Or.inr ⟨by omega, j, hj, hnz⟩
    · rw [if_pos hz, List.filter_cons_of_pos (by simpa using hz)]

/-- The entries split at an index: those below it and those from it on. -/
theorem Sched.runnable_split (s : Sched) {i : ℕ} (hi : i ≤ maxTasks) :
    s.runnable = ((List.range i).filter fun j => s.taskTable j ≠ 0) ++
      (List.range' i (maxTasks - i)).filter fun j => s.taskTable j ≠ 0 := by
  have happ := List.range'_append_1 (s := 0) (m := i) (n := maxTasks - i)
  rw [Nat.zero_add, Nat.add_sub_cancel' hi] at happ
  rw [Sched.runnable, ← List.filter_append, List.range_eq_range', List.range_eq_range', happ]

/-- **One call of `scheduler_switch_next`** moves to the next position of the
run order. -/
theorem schedulerSwitchNext_step {s : Sched} {tr m : ℕ} (hk : s.kernelTssSelector % 2 ^ 16 ≠ 0)
    (hcount : s.taskCount ≠ 0) (hrun : s.runnable ≠ [])
    (hm : s.runOrder[m]? = some s.currentIndex) :
    ∃ i, s.runOrder[(m + 1) % s.runOrder.length]? = some i ∧
      (schedulerSwitchNext s tr).1.currentIndex = i ∧
      (schedulerSwitchNext s tr).2 = s.selectorOf i := by
  -- what the scan finds decides the call
  have hcall : ∀ i, schedulerSwitchNextScan s maxTasks s.currentIndex = some (i, s.selectorOf i) →
      (schedulerSwitchNext s tr).1.currentIndex = i ∧
        (schedulerSwitchNext s tr).2 = s.selectorOf i := by
    intro i hscan
    rw [schedulerSwitchNext, if_neg hcount, hscan]
    dsimp only
    by_cases htr : tr = s.selectorOf i
    · rw [if_pos htr]
      exact ⟨rfl, htr⟩
    · rw [if_neg htr]
      exact ⟨rfl, rfl⟩
  have hsel : ∀ j ∈ s.runnable, s.selectorOf j = s.taskTable j := by
    intro j hj
    have hlt : j < maxTasks := List.mem_range.mp (List.mem_of_mem_filter hj)
    simp only [maxTasks] at hlt
    exact if_neg (by simp only [noIndex]; omega)
  have hsel0 : s.selectorOf noIndex = s.kernelTssSelector % 2 ^ 16 := if_pos rfl
  cases m with
  | zero =>
    -- from the kernel task to the first entry
    have hcur : s.currentIndex = noIndex := by simpa [Sched.runOrder] using hm.symm
    obtain ⟨j, l, hjl⟩ := List.exists_cons_of_ne_nil hrun
    have hj : j ∈ s.runnable := by rw [hjl]; exact List.mem_cons_self
    refine ⟨j, ?_, hcall j ?_⟩
    · simp [Sched.runOrder, hjl]
    · rw [hcur, schedulerSwitchNextScan_spec s hk maxTasks 0 maxTasks noIndex rfl rfl,
        ← List.range_eq_range']
      · have hfilter : ((List.range maxTasks).filter fun i => s.taskTable i ≠ 0) = j :: l := hjl
        rw [hfilter, hsel j hj]
      · refine Or.inr ⟨le_refl _, j, ?_, by simpa using List.of_mem_filter hj⟩
        rw [← List.range_eq_range']
        exact List.mem_of_mem_filter hj
  | succ m =>
    have hm' : s.runnable[m]? = some s.currentIndex := by simpa [Sched.runOrder] using hm
    have hcmem : s.currentIndex ∈ s.runnable := List.mem_of_getElem? hm'
    have hclt : s.currentIndex < maxTasks := List.mem_range.mp (List.mem_of_mem_filter hcmem)
    have hcnz : s.taskTable s.currentIndex ≠ 0 := by simpa using List.of_mem_filter hcmem
    set c := s.currentIndex with hc
    set pre := (List.range c).filter fun j => s.taskTable j ≠ 0 with hpre
    set post := (List.range' (c + 1) (maxTasks - (c + 1))).filter fun j => s.taskTable j ≠ 0
      with hpost
    have hsplit : s.runnable = pre ++ c :: post := by
      rw [s.runnable_split hclt.le, ← hpre, show maxTasks - c = maxTasks - (c + 1) + 1 by omega,
        List.range'_succ, List.filter_cons_of_pos (by simpa using hcnz)]
    -- the position of `c` is the number of entries below it
    have hnd : s.runnable.Nodup := List.nodup_range.filter _
    have hmpre : m = pre.length := by
      have h1 : s.runnable[pre.length]? = some c := by rw [hsplit]; simp
      obtain ⟨hlt, he⟩ := List.getElem?_eq_some_iff.mp hm'
      obtain ⟨hlt', he'⟩ := List.getElem?_eq_some_iff.mp h1
      exact (hnd.getElem_inj_iff).mp (he.trans he'.symm)
    have hscan := schedulerSwitchNextScan_spec s hk (maxTasks - (c + 1)) (c + 1) maxTasks c
      (by omega) (add32_of_lt (by simp only [maxTasks] at hclt; omega)) (Or.inl (by omega))
    rw [← hpost] at hscan
    have hlen : s.runOrder.length = pre.length + post.length + 2 := by
      rw [Sched.runOrder, hsplit]
      simp
      omega
    rcases hp : post with _ | ⟨j, l⟩
    · -- the last entry: back to the kernel task
      rw [hp] at hscan
      refine ⟨noIndex, ?_, hcall noIndex (by rw [hsel0]; exact hscan)⟩
      rw [hlen, hp, hmpre]
      simp [Sched.runOrder]
    · rw [hp] at hscan
      have hj : j ∈ s.runnable := by rw [hsplit, hp]; simp
      refine ⟨j, ?_, hcall j (by rw [hsel j hj]; exact hscan)⟩
      rw [hlen, hp, hmpre, Nat.mod_eq_of_lt (by simp)]
      simp [Sched.runOrder, hsplit, hp]

/-- `scheduler_switch_next` leaves the table alone. -/
theorem schedulerSwitchNext_table (s : Sched) (tr : ℕ) :
    (schedulerSwitchNext s tr).1.taskTable = s.taskTable ∧
      (schedulerSwitchNext s tr).1.taskCount = s.taskCount ∧
      (schedulerSwitchNext s tr).1.kernelTssSelector = s.kernelTssSelector ∧
      (schedulerSwitchNext s tr).1.reapProcess = s.reapProcess := by
  unfold schedulerSwitchNext
  split_ifs
  · exact ⟨rfl, rfl, rfl, rfl⟩
  · split
    · exact ⟨rfl, rfl, rfl, rfl⟩
    · dsimp only
      split_ifs <;> exact ⟨rfl, rfl, rfl, rfl⟩

/-- `k` calls in a row, from the words `s` and the task register `tr`. -/
def schedulerSwitchCalls : ℕ → Sched × ℕ → Sched × ℕ
  | 0, x => x
  | k + 1, x => schedulerSwitchNext (schedulerSwitchCalls k x).1 (schedulerSwitchCalls k x).2

theorem schedulerSwitchCalls_table (k : ℕ) (s : Sched) (tr : ℕ) :
    (schedulerSwitchCalls k (s, tr)).1.taskTable = s.taskTable ∧
      (schedulerSwitchCalls k (s, tr)).1.taskCount = s.taskCount ∧
      (schedulerSwitchCalls k (s, tr)).1.kernelTssSelector = s.kernelTssSelector := by
  induction k with
  | zero => exact ⟨rfl, rfl, rfl⟩
  | succ k ih =>
    obtain ⟨h1, h2, h3, -⟩ := schedulerSwitchNext_table (schedulerSwitchCalls k (s, tr)).1
      (schedulerSwitchCalls k (s, tr)).2
    exact ⟨h1.trans ih.1, h2.trans ih.2.1, h3.trans ih.2.2⟩

/-- After `k` calls the scheduler is `k` positions further, cyclically. -/
theorem schedulerSwitchCalls_position {s : Sched} {tr m : ℕ}
    (hk : s.kernelTssSelector % 2 ^ 16 ≠ 0) (hcount : s.taskCount ≠ 0) (hrun : s.runnable ≠ [])
    (hm : s.runOrder[m]? = some s.currentIndex) (k : ℕ) :
    s.runOrder[(m + k) % s.runOrder.length]? =
      some (schedulerSwitchCalls k (s, tr)).1.currentIndex := by
  induction k with
  | zero =>
    have hlt : m < s.runOrder.length := (List.getElem?_eq_some_iff.mp hm).1
    rw [Nat.add_zero, Nat.mod_eq_of_lt hlt]
    exact hm
  | succ k ih =>
    obtain ⟨h1, h2, h3⟩ := schedulerSwitchCalls_table k s tr
    set t := schedulerSwitchCalls k (s, tr) with ht
    have hro : t.1.runOrder = s.runOrder := by simp only [Sched.runOrder, Sched.runnable, h1]
    have hrn : t.1.runnable = s.runnable := by simp only [Sched.runnable, h1]
    obtain ⟨i, hi, hcur, -⟩ := schedulerSwitchNext_step (s := t.1)
      (by rw [h3]; exact hk) (by rw [h2]; exact hcount) (by rw [hrn]; exact hrun)
      (by rw [hro]; exact ih)
    rw [hro, Nat.mod_add_mod] at hi
    rw [← Nat.add_assoc, hi, schedulerSwitchCalls, ← ht, hcur]

theorem schedulerSwitchCalls_selector {s : Sched} {tr m : ℕ}
    (hk : s.kernelTssSelector % 2 ^ 16 ≠ 0) (hcount : s.taskCount ≠ 0) (hrun : s.runnable ≠ [])
    (hm : s.runOrder[m]? = some s.currentIndex) (k : ℕ) :
    (schedulerSwitchCalls (k + 1) (s, tr)).2 =
      s.selectorOf (schedulerSwitchCalls (k + 1) (s, tr)).1.currentIndex := by
  obtain ⟨h1, h2, h3⟩ := schedulerSwitchCalls_table k s tr
  have hpos := @schedulerSwitchCalls_position s tr _ hk hcount hrun hm k
  set t := schedulerSwitchCalls k (s, tr) with ht
  have hro : t.1.runOrder = s.runOrder := by simp only [Sched.runOrder, Sched.runnable, h1]
  have hrn : t.1.runnable = s.runnable := by simp only [Sched.runnable, h1]
  obtain ⟨i, -, hcur, hsel⟩ := schedulerSwitchNext_step (s := t.1)
    (by rw [h3]; exact hk) (by rw [h2]; exact hcount) (by rw [hrn]; exact hrun)
    (by rw [hro]; exact hpos)
  rw [schedulerSwitchCalls, ← ht, hcur, hsel]
  simp only [Sched.selectorOf, h1, h3]

theorem Sched.mem_runnable {s : Sched} {i : ℕ} :
    i ∈ s.runnable ↔ i < maxTasks ∧ s.taskTable i ≠ 0 := by
  simp [Sched.runnable]

theorem Sched.nodup_runOrder (s : Sched) : s.runOrder.Nodup := by
  refine List.nodup_cons.mpr ⟨fun h => ?_, List.nodup_range.filter _⟩
  have hlt := (Sched.mem_runnable.mp h).1
  simp only [noIndex, maxTasks] at hlt
  omega

/-- **Round-robin fairness**: from any valid index, `n + 1` calls visit the
kernel task and each of the `n` nonempty entries exactly once, in the cyclic
order of the table, and end where they started; each call leaves the visited
task in the task register. -/
theorem schedulerSwitchNext_fair (s : Sched) (tr n : ℕ) (hk : s.kernelTssSelector % 2 ^ 16 ≠ 0)
    (hn : s.runnable.length = n) (hn1 : 1 ≤ n) (hcount : s.taskCount = n)
    (hcur : s.currentIndex = noIndex ∨
      s.currentIndex < maxTasks ∧ s.taskTable s.currentIndex ≠ 0) :
    let visits := (List.range (n + 1)).map fun k =>
      (schedulerSwitchCalls (k + 1) (s, tr)).1.currentIndex
    (visits.Perm s.runOrder ∧ s.runOrder.Nodup) ∧
      (s.runnable.Pairwise (· < ·) ∧ ∃ m, visits = s.runOrder.rotate m) ∧
      (schedulerSwitchCalls (n + 1) (s, tr)).1.currentIndex = s.currentIndex ∧
      (∀ k, (schedulerSwitchCalls (k + 1) (s, tr)).2 =
        s.selectorOf (schedulerSwitchCalls (k + 1) (s, tr)).1.currentIndex) := by
  intro visits
  have hrun : s.runnable ≠ [] := fun h => by simp [h] at hn; omega
  have hcnt : s.taskCount ≠ 0 := by omega
  have hlen : s.runOrder.length = n + 1 := by rw [Sched.runOrder, List.length_cons, hn]
  have hmem : s.currentIndex ∈ s.runOrder := by
    rcases hcur with h | h
    · exact h ▸ List.mem_cons_self
    · exact List.mem_cons_of_mem _ (Sched.mem_runnable.mpr h)
  obtain ⟨m, hm⟩ := List.getElem?_of_mem hmem
  have hmlt : m < n + 1 := hlen ▸ (List.getElem?_eq_some_iff.mp hm).1
  have hpos := @schedulerSwitchCalls_position s tr _ hk hcnt hrun hm
  rw [hlen] at hpos
  have hrot : visits = s.runOrder.rotate (m + 1) := by
    refine List.ext_getElem? fun k => ?_
    by_cases hkn : k < n + 1
    · rw [List.getElem?_rotate (by omega), hlen, show k + (m + 1) = m + (k + 1) by omega,
        hpos (k + 1)]
      simp [visits, hkn]
    · rw [List.getElem?_eq_none (by simp [visits]; omega),
        List.getElem?_eq_none (by rw [List.length_rotate, hlen]; omega)]
  refine ⟨⟨?_, s.nodup_runOrder⟩, ⟨?_, m + 1, hrot⟩, ?_,
    schedulerSwitchCalls_selector hk hcnt hrun hm⟩
  · rw [hrot]
    exact List.rotate_perm _ _
  · exact List.pairwise_lt_range.filter _
  · -- a whole turn of `n + 1` positions is the identity
    have hturn := hpos (n + 1)
    rw [Nat.add_mod_right, Nat.mod_eq_of_lt hmlt, hm] at hturn
    exact (Option.some.inj hturn).symm

/-- Three tasks with holes between them, the last one running. -/
theorem schedulerSwitchNext_fair_three :
    let s : Sched := { schedulerInit with
      taskCount := 3, currentIndex := 99, kernelTssSelector := 0x48
      taskTable := fun i => if i = 2 ∨ i = 50 ∨ i = 99 then 0x100 + i else 0 }
    (List.range 4).map (fun k => (schedulerSwitchCalls (k + 1) (s, 0x163)).1.currentIndex) =
      [noIndex, 2, 50, 99] ∧ (schedulerSwitchCalls 4 (s, 0x163)).1.currentIndex = 99 := by
  intro s
  have h := schedulerSwitchNext_fair s 0x163 3 (by decide) (by decide) (by decide) rfl
    (Or.inr (by decide))
  exact ⟨by decide, h.2.2.1⟩

end VirtualKernel
