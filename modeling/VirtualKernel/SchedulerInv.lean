/-
The bookkeeping of the scheduler.

`SchedOk s tr` ties the task count, the current index and the task register to
the task table.  Each routine that touches the scheduler words keeps it
(`schedulerAddProcess_ok`, `schedulerRemoveProcess_ok`,
`schedulerSwitchNext_ok`, `exceptionTerminateSwitch_ok`), also the ones of the
interrupt image, which search the table in their own ways.
-/
import VirtualKernel.SchedulerFair
import VirtualKernel.Interrupts

namespace VirtualKernel

open Lib

/-- The bookkeeping invariant, with `tr` in the task register. -/
structure SchedOk (s : Sched) (tr : ℕ) : Prop where
  count : s.taskCount = s.runnable.length
  inj : ∀ i < maxTasks, ∀ j < maxTasks, s.taskTable i = s.taskTable j → s.taskTable i ≠ 0 → i = j
  current : s.currentIndex = noIndex ∧ tr = s.kernelTssSelector ∨
    s.currentIndex < maxTasks ∧ s.taskTable s.currentIndex = tr ∧ tr ≠ 0
  kernel : 0 < s.kernelTssSelector ∧ s.kernelTssSelector < 2 ^ 16

namespace SchedOk

variable {s : Sched} {tr : ℕ}

theorem kernel_mod (h : SchedOk s tr) : s.kernelTssSelector % 2 ^ 16 = s.kernelTssSelector :=
  Nat.mod_eq_of_lt h.kernel.2

theorem count_le (h : SchedOk s tr) : s.taskCount ≤ maxTasks := by
  rw [h.count]
  exact (List.length_filter_le _ _).trans (by simp)

end SchedOk

/-- The entries of a table with one entry more. -/
theorem runnable_perm_of_cleared {s s' : Sched} {i : ℕ} (hi : i < maxTasks)
    (hnz : s.taskTable i ≠ 0) (ht : s'.taskTable = Function.update s.taskTable i 0) :
    s.runnable.Perm (i :: s'.runnable) := by
  refine (List.perm_ext_iff_of_nodup (List.nodup_range.filter _) ?_).mpr fun j => ?_
  · refine List.nodup_cons.mpr ⟨fun h => ?_, List.nodup_range.filter _⟩
    have h0 := (Sched.mem_runnable.mp h).2
    rw [ht, Function.update_self] at h0
    exact h0 rfl
  · change j ∈ s.runnable ↔ j ∈ i :: s'.runnable
    rw [List.mem_cons, Sched.mem_runnable, Sched.mem_runnable, ht]
    by_cases hji : j = i
    · subst hji
      simp [hi, hnz]
    · simp [hji]

/-- Adding a selector that is not in the table. -/
theorem schedulerAddProcess_ok {s : Sched} {tr p sel : ℕ} (H : SchedOk s tr)
    (hnew : ∀ i < maxTasks, s.taskTable i ≠ 0 → s.taskTable i ≠ sel % 2 ^ 16) :
    SchedOk (schedulerAddProcess p sel s).2 tr ∧
      (schedulerAddProcess p sel s).2.currentIndex = s.currentIndex ∧
      (∀ i, s.taskTable i ≠ 0 → (schedulerAddProcess p sel s).2.taskTable i = s.taskTable i) := by
  unfold schedulerAddProcess
  dsimp only
  split_ifs with hg
  · exact ⟨H, rfl, fun _ _ => rfl⟩
  obtain ⟨-, hg⟩ := not_or.mp hg
  obtain ⟨hdx, hcount⟩ := not_or.mp hg
  replace hnew : ∀ i < maxTasks, s.taskTable i ≠ sel % 2 ^ 16 := by
    intro i hi he
    exact hnew i hi (by rw [he]; exact hdx) he
  split
  · exact ⟨H, rfl, fun _ _ => rfl⟩
  · rename_i i hfind
    obtain ⟨hp, hmem, -⟩ := List.find?_range_eq_some.mp hfind
    have hi : i < maxTasks := List.mem_range.mp hmem
    have hz : s.taskTable i = 0 := by
      have := hnew i hi
      simp only [decide_eq_true_eq] at hp
      tauto
    rw [if_neg (hnew i hi)]
    set s' : Sched := { s with taskTable := Function.update s.taskTable i (sel % 2 ^ 16)
                               taskCount := add32 s.taskCount 1 } with hs'
    have hold : ∀ j, s.taskTable j ≠ 0 → s'.taskTable j = s.taskTable j := by
      intro j hj
      exact Function.update_of_ne (fun h => hj (by rw [h]; exact hz)) _ _
    have hperm : s'.runnable.Perm (i :: s.runnable) := by
      refine runnable_perm_of_cleared hi (by simpa [hs'] using hdx) ?_
      simp only [hs', Function.update_idem]
      rw [← hz, Function.update_eq_self]
    refine ⟨⟨?_, ?_, ?_, H.kernel⟩, rfl, hold⟩
    · rw [hperm.length_eq, List.length_cons, ← H.count]
      have := H.count_le
      exact add32_of_lt (by simp only [maxTasks] at this; omega)
    · intro a ha b hb hab hne
      by_cases hai : a = i <;> by_cases hbi : b = i
      · rw [hai, hbi]
      · exact absurd (by simpa [hs', hai, hbi] using hab.symm) (hnew b hb)
      · exact absurd (by simpa [hs', hai, hbi] using hab) (hnew a ha)
      · simp only [hs', Function.update_of_ne hai, Function.update_of_ne hbi] at hab hne
        exact H.inj a ha b hb hab hne
    · rcases H.current with h | ⟨h1, h2, h3⟩
      · exact Or.inl h
      · refine Or.inr ⟨h1, ?_, h3⟩
        rw [hold s.currentIndex (by rw [h2]; exact h3), h2]

/-- Removing a process: the entry of the running task stays, and 0 is returned
exactly for the running task and for a null object. -/
theorem schedulerRemoveProcess_ok {s : Sched} {tr p sel : ℕ} (H : SchedOk s tr) :
    SchedOk (schedulerRemoveProcess p sel s).2 tr ∧
      (schedulerRemoveProcess p sel s).2.currentIndex = s.currentIndex ∧
      (s.currentIndex ≠ noIndex →
        (schedulerRemoveProcess p sel s).2.taskTable s.currentIndex = tr) ∧
      ((schedulerRemoveProcess p sel s).1 = 0 ↔
        p = 0 ∨ s.currentIndex ≠ noIndex ∧ sel % 2 ^ 16 = tr) := by
  have hcur : s.currentIndex ≠ noIndex → s.taskTable s.currentIndex = tr ∧ tr ≠ 0 ∧
      s.currentIndex < maxTasks := by
    intro hne
    rcases H.current with h | ⟨h1, h2, h3⟩
    · exact absurd h.1 hne
    · exact ⟨h2, h3, h1⟩
  unfold schedulerRemoveProcess
  dsimp only
  by_cases hp : p = 0
  · rw [if_pos hp]
    exact ⟨H, rfl, fun h => (hcur h).1, by simp [hp]⟩
  rw [if_neg hp]
  by_cases hdx : sel % 2 ^ 16 = 0
  · rw [if_pos hdx]
    refine ⟨H, rfl, fun h => (hcur h).1, ?_⟩
    simp only [one_ne_zero, hp, hdx, false_or, false_iff]
    exact fun h => (hcur h.1).2.1 h.2.symm
  rw [if_neg hdx]
  cases hfind : (List.range maxTasks).find? fun i => decide (s.taskTable i = sel % 2 ^ 16) with
  | none =>
    refine ⟨H, rfl, fun h => (hcur h).1, ?_⟩
    simp only [one_ne_zero, hp, false_or, false_iff]
    rintro ⟨hne, he⟩
    obtain ⟨h1, -, h3⟩ := hcur hne
    have := List.find?_eq_none.mp hfind s.currentIndex (List.mem_range.mpr h3)
    simp only [h1, decide_eq_true_eq] at this
    exact this he.symm
  | some i =>
    obtain ⟨hti, hmem, -⟩ := List.find?_range_eq_some.mp hfind
    have hi : i < maxTasks := List.mem_range.mp hmem
    have hti : s.taskTable i = sel % 2 ^ 16 := by simpa using hti
    have hnz : s.taskTable i ≠ 0 := by rw [hti]; exact hdx
    dsimp only
    by_cases hic : i = s.currentIndex
    · rw [if_pos hic]
      have hne : s.currentIndex ≠ noIndex := by
        simp only [maxTasks] at hi
        simp only [noIndex]
        omega
      refine ⟨H, rfl, fun h => (hcur h).1, ?_⟩
      simp only [true_iff]
      exact Or.inr ⟨hne, by rw [← hti, hic, (hcur hne).1]⟩
    · rw [if_neg hic]
      -- the entry belongs to another task
      have hother : ¬(p = 0 ∨ s.currentIndex ≠ noIndex ∧ sel % 2 ^ 16 = tr) := by
        rintro (h | ⟨hne, he⟩)
        · exact hp h
        · obtain ⟨h1, -, h3⟩ := hcur hne
          exact hic (H.inj i hi _ h3 (by rw [hti, he, h1]) hnz)
      have hpos : s.taskCount ≠ 0 := by
        rw [H.count]
        exact (List.length_pos_of_mem (Sched.mem_runnable.mpr ⟨hi, hnz⟩)).ne'
      set t : Sched := { s with taskTable := Function.update s.taskTable i 0
                                taskCount := s.taskCount - 1 } with ht
      have hperm : s.runnable.Perm (i :: t.runnable) := runnable_perm_of_cleared hi hnz rfl
      have hcount : t.taskCount = t.runnable.length := by
        have := hperm.length_eq
        rw [List.length_cons, ← H.count] at this
        change s.taskCount - 1 = t.runnable.length
        omega
      have hkeep : s.currentIndex ≠ noIndex → t.taskTable s.currentIndex = tr := fun h =>
        (Function.update_of_ne (Ne.symm hic) _ _).trans (hcur h).1
      have hinj : ∀ a < maxTasks, ∀ b < maxTasks, t.taskTable a = t.taskTable b →
          t.taskTable a ≠ 0 → a = b := by
        intro a ha b hb hab hne
        have hai : a ≠ i := fun h => hne (by rw [h]; exact Function.update_self _ _ _)
        have hbi : b ≠ i := fun h => hne (by rw [hab, h]; exact Function.update_self _ _ _)
        simp only [ht, Function.update_of_ne hai, Function.update_of_ne hbi] at hab hne
        exact H.inj a ha b hb hab hne
      have hok : SchedOk t tr := by
        refine ⟨hcount, hinj, ?_, H.kernel⟩
        rcases H.current with h | ⟨h1, h2, h3⟩
        · exact Or.inl h
        · have hne : s.currentIndex ≠ noIndex := by
            simp only [maxTasks] at h1
            simp only [noIndex]
            omega
          exact Or.inr ⟨h1, hkeep hne, h3⟩
      simp only [if_neg hpos]
      by_cases hzero : s.taskCount - 1 = 0
      · rw [if_pos hzero]
        -- nothing is left, so the kernel task was running already
        have hnil : t.runnable = [] := List.length_eq_zero_iff.mp (hcount.symm.trans hzero)
        have hidx : s.currentIndex = noIndex := by
          by_contra hne
          have h := hcur hne
          have hmem : s.currentIndex ∈ t.runnable :=
            Sched.mem_runnable.mpr ⟨h.2.2, by rw [hkeep hne]; exact h.2.1⟩
          rw [hnil] at hmem
          cases hmem
        have heq : { t with currentIndex := noIndex } = t := by rw [ht, ← hidx]
        refine ⟨heq ▸ hok, hidx.symm, fun h => absurd hidx h, ?_⟩
        simp only [one_ne_zero, false_iff]
        exact hother
      · rw [if_neg hzero]
        refine ⟨hok, rfl, hkeep, ?_⟩
        simp only [one_ne_zero, false_iff]
        exact hother

/-- What the scan of `scheduler_switch_next` can find. -/
theorem schedulerSwitchNextScan_found {s : Sched} : ∀ {ecx eax i dx : ℕ},
    schedulerSwitchNextScan s ecx eax = some (i, dx) →
      i < maxTasks ∧ dx = s.taskTable i ∧ dx ≠ 0 ∨
        i = noIndex ∧ dx = s.kernelTssSelector % 2 ^ 16 := by
  intro ecx
  induction ecx with
  | zero => intro eax i dx h; cases h
  | succ ecx ih =>
    intro eax i dx h
    rw [schedulerSwitchNextScan] at h
    split_ifs at h with h1 h2 h3 h4
    · obtain ⟨rfl, rfl⟩ := Prod.mk.inj (Option.some.inj h)
      exact Or.inl ⟨h1, rfl, h2⟩
    · exact ih h
    · obtain ⟨rfl, rfl⟩ := Prod.mk.inj (Option.some.inj h)
      exact Or.inr ⟨rfl, rfl⟩
    · obtain ⟨rfl, rfl⟩ := Prod.mk.inj (Option.some.inj h)
      exact Or.inl ⟨by decide, rfl, h4⟩
    · exact ih h

/-- A timer switch. -/
theorem schedulerSwitchNext_ok {s : Sched} {tr : ℕ} (H : SchedOk s tr) :
    SchedOk (schedulerSwitchNext s tr).1 (schedulerSwitchNext s tr).2 := by
  unfold schedulerSwitchNext
  split_ifs with hc
  · exact H
  · split
    · exact H
    · rename_i i dx hscan
      have hcur : i = noIndex ∧ dx = s.kernelTssSelector ∨
          i < maxTasks ∧ s.taskTable i = dx ∧ dx ≠ 0 := by
        rcases schedulerSwitchNextScan_found hscan with ⟨h1, h2, h3⟩ | ⟨h1, h2⟩
        · exact Or.inr ⟨h1, h2.symm, h3⟩
        · exact Or.inl ⟨h1, by rw [h2, H.kernel_mod]⟩
      dsimp only
      split_ifs with htr
      · exact ⟨H.count, H.inj, htr ▸ hcur, H.kernel⟩
      · exact ⟨H.count, H.inj, hcur, H.kernel⟩

theorem exceptionTerminateScan_found {s : Sched} : ∀ {ecx eax i : ℕ},
    exceptionTerminateScan s ecx eax = some i → i < maxTasks ∧ s.taskTable i ≠ 0 := by
  intro ecx
  induction ecx with
  | zero => intro eax i h; cases h
  | succ ecx ih =>
    intro eax i h
    rw [exceptionTerminateScan] at h
    by_cases h1 : s.taskTable (if add32 eax 1 < maxTasks then add32 eax 1 else 0) ≠ 0
    · rw [if_pos h1] at h
      obtain rfl := Option.some.inj h
      refine ⟨?_, h1⟩
      split_ifs with hlt
      · exact hlt
      · decide
    · rw [if_neg h1] at h
      exact ih h

/-- A fault termination: on the switch path the bookkeeping holds for the task
that is switched to, on the halt path nothing in the table has changed. -/
theorem exceptionTerminateSwitch_ok {s : Sched} {tr esi : ℕ} (H : SchedOk s tr) :
    match (exceptionTerminateSwitch s tr esi).2 with
    | none => SchedOk (exceptionTerminateSwitch s tr esi).1 tr ∧
        (exceptionTerminateSwitch s tr esi).1.taskTable = s.taskTable
    | some sel => SchedOk (exceptionTerminateSwitch s tr esi).1 sel ∧
        s.currentIndex < maxTasks ∧ s.taskTable s.currentIndex = tr ∧
        (exceptionTerminateSwitch s tr esi).1.taskTable =
          Function.update s.taskTable s.currentIndex 0 ∧
        (exceptionTerminateSwitch s tr esi).1.taskCount + 1 = s.taskCount ∧
        (exceptionTerminateSwitch s tr esi).1.reapProcess = esi := by
  unfold exceptionTerminateSwitch
  dsimp only
  by_cases hidx : maxTasks ≤ s.currentIndex
  · rw [if_pos hidx]
    exact ⟨⟨H.count, H.inj, H.current, H.kernel⟩, rfl⟩
  rw [if_neg hidx]
  have hlt : s.currentIndex < maxTasks := by omega
  obtain ⟨htr, hnz⟩ : s.taskTable s.currentIndex = tr ∧ tr ≠ 0 := by
    rcases H.current with h | ⟨-, h2, h3⟩
    · rw [h.1] at hlt
      exact absurd hlt (by decide)
    · exact ⟨h2, h3⟩
  rw [if_neg (by simpa using htr)]
  have hnz' : s.taskTable s.currentIndex ≠ 0 := by rw [htr]; exact hnz
  have hpos : s.taskCount ≠ 0 := by
    rw [H.count]
    exact (List.length_pos_of_mem (Sched.mem_runnable.mpr ⟨hlt, hnz'⟩)).ne'
  rw [if_neg hpos]
  set t : Sched := { s with reapProcess := esi
                            taskTable := Function.update s.taskTable s.currentIndex 0
                            taskCount := s.taskCount - 1 } with ht
  have hperm : s.runnable.Perm (s.currentIndex :: t.runnable) :=
    runnable_perm_of_cleared hlt hnz' rfl
  have hcount : t.taskCount = t.runnable.length := by
    have := hperm.length_eq
    rw [List.length_cons, ← H.count] at this
    change s.taskCount - 1 = t.runnable.length
    omega
  have hinj : ∀ a < maxTasks, ∀ b < maxTasks, t.taskTable a = t.taskTable b →
      t.taskTable a ≠ 0 → a = b := by
    intro a ha b hb hab hne
    have hai : a ≠ s.currentIndex := fun h => hne (by rw [h]; exact Function.update_self _ _ _)
    have hbi : b ≠ s.currentIndex := fun h => hne (by rw [hab, h]; exact Function.update_self _ _ _)
    simp only [ht, Function.update_of_ne hai, Function.update_of_ne hbi] at hab hne
    exact H.inj a ha b hb hab hne
  cases hscan : exceptionTerminateScan t maxTasks s.currentIndex with
  | some i =>
    obtain ⟨h1, h2⟩ := exceptionTerminateScan_found hscan
    exact ⟨⟨hcount, hinj, Or.inr ⟨h1, rfl, h2⟩, H.kernel⟩, hlt, htr, rfl,
      by simp only [ht]; omega, rfl⟩
  | none =>
    have hk : t.kernelTssSelector % 2 ^ 16 = s.kernelTssSelector := H.kernel_mod
    have hk0 := H.kernel.1
    dsimp only
    rw [hk, if_neg (by omega)]
    exact ⟨⟨hcount, hinj, Or.inl ⟨rfl, rfl⟩, H.kernel⟩, hlt, htr, rfl,
      by simp only [ht]; omega, rfl⟩

end VirtualKernel
