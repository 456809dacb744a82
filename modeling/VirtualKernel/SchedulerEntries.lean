/-
Entries of the task table.

`scheduler_add_process` looks for the entry of a process and for an empty entry
in one scan, and the scan stops at the first of the two.  An entry behind an
empty one is overlooked (`Overlooked`), and then the process is queued twice
(`addProcess_overlooked`).  As long as no call overlooks an entry, every process
has at most one, and a successful removal leaves none (`task_once`).
-/
import VirtualKernel.SchedulerInv

namespace VirtualKernel

open Lib

/-- No selector stands in two entries. -/
def Sched.Distinct (s : Sched) : Prop :=
  ∀ i < maxTasks, ∀ j < maxTasks, s.taskTable i = s.taskTable j → s.taskTable i ≠ 0 → i = j

/-- The selector `dx` stands in an entry. -/
def Sched.Queued (s : Sched) (dx : ℕ) : Prop := dx ≠ 0 ∧ ∃ i < maxTasks, s.taskTable i = dx

/-- The selector of the process `p` stands in an entry behind an empty one. -/
def Sched.Overlooked (s : Sched) (p sel : ℕ) : Prop :=
  p ≠ 0 ∧ sel % 2 ^ 16 ≠ 0 ∧
    ∃ i j, i < j ∧ j < maxTasks ∧ s.taskTable i = 0 ∧ s.taskTable j = sel % 2 ^ 16

/-- The call adds no selector twice, and a process in the table is refused. -/
def AddsOnce (p sel : ℕ) (s : Sched) : Prop :=
  (s.Queued (sel % 2 ^ 16) → schedulerAddProcess p sel s = (0, s)) ∧
    (schedulerAddProcess p sel s).2.Distinct

section Entries

variable {s : Sched} {tr p sel : ℕ}

/-- A table with an empty entry is not full. -/
theorem SchedOk.count_lt (H : SchedOk s tr) {i : ℕ} (hi : i < maxTasks) (hz : s.taskTable i = 0) :
    s.taskCount < maxTasks := by
  rw [H.count, Sched.runnable]
  have hlt : ((List.range maxTasks).filter fun i => s.taskTable i ≠ 0).length <
      (List.range maxTasks).length := by
    refine List.length_filter_lt_length_iff_exists.mpr ⟨i, List.mem_range.mpr hi, ?_⟩
    simp [hz]
  rwa [List.length_range] at hlt

/-- The scan stops at the entry of the process, if no empty entry comes first. -/
theorem addProcess_refused (hnot : ¬s.Overlooked p sel) (hq : s.Queued (sel % 2 ^ 16)) :
    schedulerAddProcess p sel s = (0, s) := by
  obtain ⟨hdx, j, hj, hjdx⟩ := hq
  unfold schedulerAddProcess
  dsimp only
  split_ifs with hg
  · rfl
  have hp : p ≠ 0 := fun h => hg (Or.inl h)
  split
  · rfl
  · rename_i i hfind
    obtain ⟨hi, hmem, hbefore⟩ := List.find?_range_eq_some.mp hfind
    have hle : i ≤ j := by
      by_contra hlt
      have hskip := hbefore j (Nat.not_le.mp hlt)
      simp [hjdx] at hskip
    by_cases hdxi : s.taskTable i = sel % 2 ^ 16
    · rw [if_pos hdxi]
    · -- an empty entry in front of the entry of the process
      have hzero : s.taskTable i = 0 := by
        simp only [decide_eq_true_eq] at hi
        exact hi.resolve_left hdxi
      have hne : i ≠ j := by
        intro h
        rw [h] at hdxi
        exact hdxi hjdx
      exact absurd ⟨hp, hdx, i, j, Nat.lt_of_le_of_ne hle hne, hj, hzero, hjdx⟩ hnot

/-- **An overlooked entry**: the process is queued a second time. -/
theorem addProcess_overlooked (H : SchedOk s tr) (h : s.Overlooked p sel) :
    (schedulerAddProcess p sel s).1 = 1 ∧ ¬(schedulerAddProcess p sel s).2.Distinct := by
  obtain ⟨hp, hdx, i, j, hij, hj, hzero, hjdx⟩ := h
  have hcount := H.count_lt (Nat.lt_trans hij hj) hzero
  unfold schedulerAddProcess
  dsimp only
  rw [if_neg (by rintro (h | h | h); exacts [hp h, hdx h, Nat.not_lt.mpr h hcount])]
  split
  · -- the scan cannot pass the empty entry
    rename_i hnone
    have hskip := List.find?_eq_none.mp hnone i (List.mem_range.mpr (Nat.lt_trans hij hj))
    simp [hzero] at hskip
  · rename_i k hfind
    obtain ⟨hk, hmem, hbefore⟩ := List.find?_range_eq_some.mp hfind
    have hki : k ≤ i := by
      by_contra hlt
      have hskip := hbefore i (Nat.not_le.mp hlt)
      simp [hzero] at hskip
    have hkmax : k < maxTasks := List.mem_range.mp hmem
    -- the entry found is empty: the only entry of the process is at `j`
    have hkdx : s.taskTable k ≠ sel % 2 ^ 16 := by
      intro h
      have heq := H.inj k hkmax j hj (h.trans hjdx.symm) (by rw [h]; exact hdx)
      omega
    rw [if_neg hkdx]
    refine ⟨rfl, fun hdistinct => ?_⟩
    have hkj : k ≠ j := by omega
    have heq := hdistinct k hkmax j hj
    simp only [Function.update_self, Function.update_of_ne hkj.symm] at heq
    exact hkj (heq hjdx.symm hdx)

/-- **A call adds a process once** exactly when it does not overlook its entry. -/
theorem addsOnce_iff (H : SchedOk s tr) : AddsOnce p sel s ↔ ¬s.Overlooked p sel := by
  constructor
  · intro h hover
    exact (addProcess_overlooked H hover).2 h.2
  · intro hnot
    by_cases hq : s.Queued (sel % 2 ^ 16)
    · have hrefused := addProcess_refused hnot hq
      refine ⟨fun _ => hrefused, ?_⟩
      rw [hrefused]
      exact H.inj
    · refine ⟨fun h => absurd h hq, ?_⟩
      have hnew : ∀ i < maxTasks, s.taskTable i ≠ 0 → s.taskTable i ≠ sel % 2 ^ 16 := by
        intro i hi hne heq
        exact hq ⟨heq ▸ hne, i, hi, heq⟩
      exact (schedulerAddProcess_ok H hnew).1.inj

/-- A call that overlooks no entry keeps the bookkeeping in order. -/
theorem addProcess_sched (H : SchedOk s tr) (hnot : ¬s.Overlooked p sel) :
    SchedOk (schedulerAddProcess p sel s).2 tr := by
  by_cases hq : s.Queued (sel % 2 ^ 16)
  · rw [addProcess_refused hnot hq]
    exact H
  · refine (schedulerAddProcess_ok H fun i hi hne heq => hq ⟨?_, i, hi, heq⟩).1
    rw [← heq]
    exact hne

/-- **A successful removal** leaves no entry of the process. -/
theorem removeProcess_gone (H : s.Distinct) (hp : p ≠ 0) (hdx : sel % 2 ^ 16 ≠ 0)
    (hdone : (schedulerRemoveProcess p sel s).1 = 1) :
    ¬(schedulerRemoveProcess p sel s).2.Queued (sel % 2 ^ 16) := by
  rintro ⟨-, j, hj, hjdx⟩
  unfold schedulerRemoveProcess at hdone hjdx
  dsimp only at hdone hjdx
  rw [if_neg hp, if_neg hdx] at hdone hjdx
  split at hdone
  · rename_i hnone
    rw [hnone] at hjdx
    have hskip := List.find?_eq_none.mp hnone j (List.mem_range.mpr hj)
    simp only [decide_eq_true_eq] at hskip
    exact hskip hjdx
  · rename_i i hfind
    obtain ⟨hi, hmem, -⟩ := List.find?_range_eq_some.mp hfind
    simp only [decide_eq_true_eq] at hi
    rw [hfind] at hjdx
    dsimp only at hdone hjdx
    by_cases hrunning : i = s.currentIndex
    · rw [if_pos hrunning] at hdone
      exact absurd hdone Nat.zero_ne_one
    rw [if_neg hrunning] at hjdx
    -- whatever becomes of the count, the entry `i` is cleared
    have htable : Function.update s.taskTable i 0 j = sel % 2 ^ 16 := by
      split_ifs at hjdx <;> exact hjdx
    by_cases hij : j = i
    · rw [hij, Function.update_self] at htable
      exact hdx htable.symm
    · rw [Function.update_of_ne hij] at htable
      exact hij (H j hj i (List.mem_range.mp hmem) (htable.trans hi.symm) (htable ▸ hdx))

end Entries

/-! ### Runs -/

/-- A call on the scheduler; a process is added and removed through its object. -/
inductive TaskCall
  | add (p : ℕ)
  | remove (p : ℕ)
  | switchNext

/-- What a call does, `tss p` being the word at `p + PROC_TSS_SELECTOR`. -/
def TaskCall.apply (tss : ℕ → ℕ) : TaskCall → Sched × ℕ → Sched × ℕ
  | .add p, (s, tr) => ((schedulerAddProcess p (tss p) s).2, tr)
  | .remove p, (s, tr) => ((schedulerRemoveProcess p (tss p) s).2, tr)
  | .switchNext, (s, tr) => schedulerSwitchNext s tr

/-- No call adds a process whose entry it overlooks. -/
def NotOverlooked (tss : ℕ → ℕ) (s : Sched) : TaskCall → Prop
  | .add p => ¬s.Overlooked p (tss p)
  | _ => True

/-- The scheduler words and the task register between the calls of a run whose
calls meet the condition `C`. -/
inductive TaskRun (tss : ℕ → ℕ) (C : Sched → TaskCall → Prop) : Sched × ℕ → Prop
  | boot {sel : ℕ} : 0 < sel → sel < 2 ^ 16 →
      TaskRun tss C ({ schedulerInit with kernelTssSelector := sel }, sel)
  | call {st : Sched × ℕ} (c : TaskCall) : TaskRun tss C st → C st.1 c →
      TaskRun tss C (c.apply tss st)

section Run

variable {tss : ℕ → ℕ} {st : Sched × ℕ}

theorem TaskCall.apply_sched (c : TaskCall) (H : SchedOk st.1 st.2) (hc : NotOverlooked tss st.1 c) :
    SchedOk (c.apply tss st).1 (c.apply tss st).2 := by
  cases c with
  | add p => exact addProcess_sched H hc
  | remove p => exact (schedulerRemoveProcess_ok H).1
  | switchNext => exact schedulerSwitchNext_ok H

theorem TaskRun.sched (h : TaskRun tss (NotOverlooked tss) st) : SchedOk st.1 st.2 := by
  induction h with
  | boot hpos hlt =>
    constructor
    · exact (List.length_eq_zero_iff.mpr (List.filter_eq_nil_iff.mpr fun i _ => by simp [schedulerInit])).symm
    · intro i _ j _ _ hne
      exact absurd rfl hne
    · exact Or.inl ⟨rfl, rfl⟩
    · exact ⟨hpos, hlt⟩
  | call c _ hc ih => exact c.apply_sched ih hc

/-- **A task is scheduled once**, in every run whose calls overlook no entry; and a
call adds a process once exactly when it does not overlook its entry. -/
theorem task_once (h : TaskRun tss (NotOverlooked tss) st) :
    st.1.Distinct ∧ (∀ p, AddsOnce p (tss p) st.1 ↔ ¬st.1.Overlooked p (tss p)) ∧
      ∀ p, p ≠ 0 → tss p % 2 ^ 16 ≠ 0 → (schedulerRemoveProcess p (tss p) st.1).1 = 1 →
        ¬(schedulerRemoveProcess p (tss p) st.1).2.Queued (tss p % 2 ^ 16) := by
  have H := h.sched
  refine ⟨H.inj, fun p => addsOnce_iff H, fun p hp hdx hdone => ?_⟩
  exact removeProcess_gone H.inj hp hdx hdone

end Run

/-- Two processes are added, and the first one is removed. -/
def holeRun : Sched × ℕ :=
  TaskCall.apply id (.remove 8) (TaskCall.apply id (.add 16) (TaskCall.apply id (.add 8)
    ({ schedulerInit with kernelTssSelector := 0x40 }, 0x40)))

theorem holeRun_run : TaskRun id (NotOverlooked id) holeRun := by
  have hboot : TaskRun id (NotOverlooked id) ({ schedulerInit with kernelTssSelector := 0x40 }, 0x40) :=
    TaskRun.boot (by decide) (by decide)
  refine TaskRun.call (.remove 8) (TaskRun.call (.add 16) (TaskRun.call (.add 8) hboot ?_) ?_) trivial
  · rintro ⟨-, hdx, i, j, -, -, -, hj⟩
    exact hdx hj.symm
  · rintro ⟨-, -, i, j, hij, hj, hzero, hdx⟩
    -- the only entry is the first one
    have hone : ∀ j, j < maxTasks → (TaskCall.apply id (.add 8)
        ({ schedulerInit with kernelTssSelector := 0x40 }, 0x40)).1.taskTable j = 16 → False := by
      decide
    exact hone j hj hdx

/-- There the second process is behind an empty entry, and the next call queues it
a second time. -/
theorem task_once_holeRun :
    holeRun.1.Distinct ∧ holeRun.1.Overlooked 16 16 ∧ ¬AddsOnce 16 16 holeRun.1 := by
  obtain ⟨hdistinct, hiff, -⟩ := task_once holeRun_run
  have hover : holeRun.1.Overlooked 16 16 :=
    ⟨by decide, by decide, 0, 1, by decide, by decide, by decide, by decide⟩
  exact ⟨hdistinct, hover, fun h => (hiff 16).mp h hover⟩

/-- A process is queued twice, by calls on processes with distinct selectors. -/
theorem task_twice : ¬∀ tss : ℕ → ℕ, (∀ p q, tss p = tss q → p = q) →
    ∀ st, TaskRun tss (fun _ _ => True) st → st.1.Distinct := by
  intro h
  have hrun : TaskRun id (fun _ _ => True) (TaskCall.apply id (.add 16) holeRun) := by
    refine TaskRun.call (.add 16) (TaskRun.call (.remove 8) (TaskRun.call (.add 16)
      (TaskRun.call (.add 8) (TaskRun.boot ?_ ?_) trivial) trivial) trivial) trivial
    · decide
    · decide
  have hdistinct := h id (fun p q heq => heq) _ hrun
  exact absurd (hdistinct 0 (by decide) 1 (by decide) (by decide) (by decide)) (by decide)

end VirtualKernel
