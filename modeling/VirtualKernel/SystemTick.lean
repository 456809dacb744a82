/-
The interrupts keep the invariant of the system.

A task switch writes into the segment of the outgoing task, below its owner
word, and moves the busy mark between two descriptors (`Switched`); neither
changes what the processes are.  The timer first reaps the process that
awaits it (`Inv.reapTerminated`) and then switches (`Inv.switchNext`, and to a
queued process when the kernel task runs, `Inv.tick_dispatches`); the fault of
the running process takes it from the task table and leaves it for the next
reaping (`Inv.terminate`).
-/
import VirtualKernel.SystemInv

namespace VirtualKernel

open Lib

/-- What a switch from the task register of `k` leaves alone. -/
structure Switched (k k' : Kernel) : Prop where
  mem : ∀ q o, q ≠ descriptorBase (k.gdt (k.tr / 8)) ∨ tssGs < o → k'.mem q o = k.mem q o
  base : ∀ i, descriptorBase (k'.gdt i) = descriptorBase (k.gdt i)
  gdt : ∀ i, i ≠ k.tr / 8 → i ≠ k'.tr / 8 → k'.gdt i = k.gdt i
  heap : k'.heap = k.heap
  ram : k'.ram = k.ram
  gdtBitmap : k'.gdtBitmap = k.gdtBitmap
  slotBitmap : k'.slotBitmap = k.slotBitmap
  table : k'.processTable = k.processTable
  count : k'.processActiveCount = k.processActiveCount
  drivers : k'.drivers = k.drivers

theorem Switched.of_sched (k : Kernel) (s : Sched) : Switched k { k with sched := s } :=
  ⟨fun _ _ _ => rfl, fun _ => rfl, fun _ _ _ => rfl, rfl, rfl, rfl, rfl, rfl, rfl, rfl⟩

theorem switched_taskSwitch (image : ℕ → ℕ) (sel : ℕ) (k : Kernel) (s : Sched) :
    Switched k (taskSwitch image sel { k with sched := s }) where
  mem := by
    intro q o h
    by_cases hq : q = descriptorBase (k.gdt (k.tr / 8))
    · subst hq
      have ho : tssGs < o := h.resolve_left fun h => h rfl
      simp only [taskSwitch, Kernel.setMem, Function.update_self]
      rw [if_neg (by omega)]
    · simp only [taskSwitch, Kernel.setMem, Function.update_of_ne hq]
  base := by
    have hset : ∀ (g : ℕ → ℕ × ℕ) (a : ℕ) (b : Bool) (i : ℕ),
        descriptorBase (Function.update g a (setBusy b (g a)) i) = descriptorBase (g i) := by
      intro g a b i
      by_cases hi : i = a
      · rw [hi, Function.update_self, descriptorBase_setBusy]
      · rw [Function.update_of_ne hi]
    intro i
    exact (hset _ _ _ i).trans (hset _ _ _ i)
  gdt := fun i h1 h2 => (Function.update_of_ne h2 _ _).trans (Function.update_of_ne h1 _ _)
  heap := rfl
  ram := rfl
  gdtBitmap := rfl
  slotBitmap := rfl
  table := rfl
  count := rfl
  drivers := rfl

/-- The account after a switch, with other tasks in the task table. -/
theorem Holds.switch {k k' : Kernel} {O : ℕ → Prop} {T T' : Items} (H : Holds k O T)
    (S : Switched k k') (hin : ∀ i, i = k.tr / 8 ∨ i = k'.tr / 8 → Item.gdt i ∈ T)
    (hnd : T'.Nodup) (htask : TaskHolds k'.sched.taskTable T') (hs : SchedOk k'.sched k'.tr)
    (hT : ∀ x, (∀ v, x ≠ .task v) → (x ∈ T' ↔ x ∈ T)) : Holds k' O T' where
  nodup := hnd
  heap := by rw [S.heap]; exact H.heap.congr fun p => hT _ (by simp)
  ram := by
    have hD : dirsOf T' = dirsOf T := funext fun d => propext (hT _ (by simp))
    rw [S.ram, S.heap, hD]
    exact H.ram
  windows := by rw [S.ram]; exact H.windows
  gdt := by
    refine GdtHolds.congr (T := T) ⟨H.gdt.range, by rw [S.gdtBitmap]; exact H.gdt.bit, ?_⟩
      fun i => hT _ (by simp)
    intro i hi hn
    rw [S.gdt i (fun h => hn (hin i (Or.inl h))) (fun h => hn (hin i (Or.inr h)))]
    exact H.gdt.free i hi hn
  slot := by rw [S.slotBitmap]; exact H.slot.congr fun i => hT _ (by simp)
  entry := by rw [S.table, S.count]; exact H.entry.congr fun i p => hT _ (by simp)
  task := htask
  sched := hs

/-- The running process `p` has been terminated: it has left its entry of the
task table, it awaits reaping, and another task of the table runs or the
kernel's. -/
structure Terminated (k : Kernel) (p : ℕ) (k' : Kernel) : Prop where
  table : ∀ i < maxTasks, k'.sched.taskTable i =
    if i = k.sched.currentIndex then 0 else k.sched.taskTable i
  count : k'.sched.taskCount + 1 = k.sched.taskCount
  reap : k'.sched.reapProcess = p
  next : k'.sched.currentIndex = noIndex ∧ k'.tr = k.sched.kernelTssSelector ∨
    k'.sched.currentIndex < maxTasks ∧ k'.sched.currentIndex ≠ k.sched.currentIndex ∧
      k.sched.taskTable k'.sched.currentIndex = k'.tr ∧ k'.tr ≠ 0

namespace Inv

variable {w : World} {O : ℕ → Prop} {B : Items} {P : Multiset ℕ}

/-! ### Tasks -/

/-- The value `v` names the task of the kernel or of a process. -/
def IsTask (k : Kernel) (P : Multiset ℕ) (v : ℕ) : Prop :=
  v = k.sched.kernelTssSelector ∨ ∃ p ∈ P, v = k.mem p procTssSelector

/-- An index of the task table stands for a queued process. -/
theorem running_process (H : Inv w O B P) (hcur : w.k.sched.currentIndex ≠ noIndex) :
    ∃ p ∈ P, p ≠ w.k.sched.reapProcess ∧ w.k.tr = w.k.mem p procTssSelector := by
  obtain ⟨h1, h2, h3⟩ := H.holds.sched.current.resolve_left fun h => hcur h.1
  have htask := (H.holds.task.task w.k.tr h3).mp ⟨_, h1, h2⟩
  obtain ⟨p, hp, hmem⟩ := H.of_process (by simp) (by simp) htask
  obtain ⟨hv, hr⟩ := task_mem_liveItems hmem
  exact ⟨p, hp, hr, hv⟩

/-- The running task is the kernel's or that of a queued process. -/
theorem running (H : Inv w O B P) : w.k.tr = w.k.sched.kernelTssSelector ∨
    ∃ p ∈ P, p ≠ w.k.sched.reapProcess ∧ w.k.tr = w.k.mem p procTssSelector := by
  by_cases hcur : w.k.sched.currentIndex = noIndex
  · rcases H.holds.sched.current with ⟨-, h⟩ | ⟨h, -⟩
    · exact Or.inl h
    · rw [hcur] at h
      exact absurd h (by decide)
  · exact Or.inr (H.running_process hcur)

/-- The segment of a process is a block of its own. -/
theorem tss_ne (H : Inv w O B P) {p : ℕ} (hp : p ∈ P) : w.k.mem p procTssBase ≠ p := by
  intro h
  obtain ⟨P', rfl, -, hsplit⟩ := H.split hp
  have hnd := H.holds.nodup
  rw [hsplit] at hnd
  have hle : procItems p (w.k.mem p) ≤ liveItems w.k p := by
    unfold liveItems
    split_ifs
    · exact le_rfl
    · exact Multiset.le_add_right _ _
  have hnd' := Multiset.nodup_of_le hle (Multiset.nodup_add.mp hnd).2.1
  have htwo : ({Item.block p} + {Item.block p} : Items) ≤ procItems p (w.k.mem p) := by
    rw [procItems, itemIf_of_ne (H.complete p hp).tss, h]
    calc ({Item.block p} + {Item.block p} : Items)
        = {Item.block p} + 0 + 0 + 0 + 0 + 0 + 0 + {Item.block p} + 0 + 0 := by
          simp only [add_zero]
      _ ≤ _ := by
          gcongr <;> exact Multiset.zero_le _
  exact absurd (Multiset.nodup_of_le htwo hnd') (by simp)

/-- The descriptor of a task is held, and its segment is no process object. -/
theorem task_segment (H : Inv w O B P) {v : ℕ} (hv : IsTask w.k P v) :
    Item.gdt (v / 8) ∈ B + heldItems w.held + P.bind (liveItems w.k) ∧
      ∀ q ∈ P, q ≠ descriptorBase (w.k.gdt (v / 8)) := by
  rcases hv with rfl | ⟨p, hp, rfl⟩
  · refine ⟨mem_base_or (Multiset.mem_add.mpr (Or.inl H.task.desc)), fun q hq h => ?_⟩
    have hdis := (Multiset.nodup_add.mp H.holds.nodup).2.2
    have htss := H.task.tss
    rw [← h] at htss
    exact Multiset.disjoint_left.mp hdis (Multiset.mem_add.mpr (Or.inl htss))
      (Multiset.mem_bind.mpr ⟨q, hq, procItems_subset_liveItems (block_mem_procItems _ _)⟩)
  · have hC := H.complete p hp
    refine ⟨H.mem_items hp (gdt_mem_procItems hC.sel), fun q hq h => ?_⟩
    rw [hC.desc] at h
    have hqb : Item.block (w.k.mem p procTssBase) ∈ procItems q (w.k.mem q) := by
      rw [← h]
      exact block_mem_procItems _ _
    obtain rfl := H.eq_of_mem hp hq (tss_mem_procItems hC.tss) hqb
    exact H.tss_ne hp h.symm

theorem isTask_tr (H : Inv w O B P) : IsTask w.k P w.k.tr :=
  H.running.imp_right fun ⟨p, hp, _, h⟩ => ⟨p, hp, h⟩

/-- The processes are what they were after a switch. -/
theorem switched_object (H : Inv w O B P) {k' : Kernel} (S : Switched w.k k') {p : ℕ}
    (hp : p ∈ P) : k'.mem p = w.k.mem p :=
  funext fun o => S.mem p o (Or.inl ((H.task_segment H.isTask_tr).2 p hp))

theorem switched_complete (H : Inv w O B P) {k' : Kernel} (S : Switched w.k k') {p : ℕ}
    (hp : p ∈ P) : Complete k' p :=
  (H.complete p hp).congr (fun o _ => by rw [H.switched_object S hp])
    (S.mem _ _ (Or.inr (by decide))) (S.base _)

/-- The invariant after a switch that leaves the items `X` of the processes. -/
theorem of_switch (H : Inv w O B P) {k' : Kernel} (S : Switched w.k k')
    (hH : Holds k' O (B + heldItems w.held + P.bind (liveItems k')))
    (hk : k'.sched.kernelTssSelector = w.k.sched.kernelTssSelector)
    (hreap : k'.sched.reapProcess = 0 ∨ k'.sched.reapProcess ∈ P) :
    Inv { w with k := k' } O B P where
  holds := hH
  complete := fun _ hp => H.switched_complete S hp
  base := H.base
  task := by
    refine ⟨by rw [hk]; exact H.task.plain, by rw [hk]; exact H.task.desc, ?_⟩
    rw [hk, S.base]
    exact H.task.tss
  reap := hreap
  nodup := H.nodup
  pages := H.pages
  storage := by
    rw [S.drivers, StorageReady, S.ram]
    exact H.storage
  pdes := by rw [S.ram]; exact H.pdes

/-! ### The timer -/

/-- **`scheduler_switch_next`** keeps the invariant. -/
theorem switchNext (H : Inv w O B P) (image : ℕ → ℕ) :
    ∃ k', (kSchedulerSwitchNext image).run w.k = some ((), k') ∧ Inv { w with k := k' } O B P ∧
      Switched w.k k' ∧ k'.sched = (schedulerSwitchNext w.k.sched w.k.tr).1 ∧
      k'.tr = (schedulerSwitchNext w.k.sched w.k.tr).2 := by
  obtain ⟨htab, -, hker, hreap⟩ := schedulerSwitchNext_table w.k.sched w.k.tr
  have hok := schedulerSwitchNext_ok H.holds.sched
  set next := schedulerSwitchNext w.k.sched w.k.tr with hnext
  -- the machine part
  obtain ⟨k', hrun, S, hs, ht⟩ : ∃ k', (kSchedulerSwitchNext image).run w.k = some ((), k') ∧
      Switched w.k k' ∧ k'.sched = next.1 ∧ k'.tr = next.2 := by
    by_cases htr : next.2 = w.k.tr
    · refine ⟨{ w.k with sched := next.1 }, ?_, .of_sched _ _, rfl, htr.symm⟩
      exact congrArg (fun k => some ((), k)) (if_pos htr)
    · refine ⟨taskSwitch image next.2 { w.k with sched := next.1 }, ?_,
        switched_taskSwitch _ _ _ _, rfl, rfl⟩
      exact congrArg (fun k => some ((), k)) (if_neg htr)
  have hlive : P.bind (liveItems k') = P.bind (liveItems w.k) :=
    Multiset.bind_congr fun p hp => liveItems_congr
      (fun o _ => by rw [H.switched_object S hp]) (by rw [hs]; exact hreap)
  -- the new task is a task
  have hnew : IsTask w.k P k'.tr := by
    rw [ht]
    rcases hok.current with ⟨-, h⟩ | ⟨h1, h2, h3⟩
    · exact Or.inl (h.trans hker)
    · rw [htab] at h2
      obtain ⟨p, hp, hmem⟩ := H.of_process (by simp) (by simp)
        ((H.holds.task.task _ h3).mp ⟨_, h1, h2⟩)
      exact Or.inr ⟨p, hp, (task_mem_liveItems hmem).1⟩
  refine ⟨k', hrun, H.of_switch S ?_ (by rw [hs]; exact hker) (by rw [hs, hreap]; exact H.reap), S,
    hs, ht⟩
  rw [hlive]
  refine H.holds.switch S ?_ H.holds.nodup ?_ ?_ fun _ _ => Iff.rfl
  · rintro i (rfl | rfl)
    · exact (H.task_segment H.isTask_tr).1
    · exact (H.task_segment hnew).1
  · rw [hs, htab]
    exact H.holds.task
  · rw [hs, ht]
    exact hok

/-- The scheduler's words with nobody awaiting reaping. -/
theorem holds_clearReap {k : Kernel} {T : Items} (H : Holds k O T) :
    Holds { k with sched := { k.sched with reapProcess := 0 } } O T :=
  H.of_task H.nodup H.task ⟨H.sched.count, H.sched.inj, H.sched.current, H.sched.kernel⟩
    fun _ _ => Iff.rfl

/-- The task table after a call that takes no task away and adds none. -/
theorem task_eq_of_frame {k k' : Kernel} {T X : Items} (F : Frame T k k') (H : Holds k O (T + X))
    (H' : Holds k' O T) (hX : ∀ v, Item.task v ∉ X) {i : ℕ} (hi : i < maxTasks) :
    k'.sched.taskTable i = k.sched.taskTable i := by
  by_cases hz : k.sched.taskTable i = 0
  · -- an entry that was free cannot hold a task that stands elsewhere
    by_contra hne
    rw [hz] at hne
    have hin := (H'.task.task _ hne).mp ⟨i, hi, rfl⟩
    obtain ⟨j, hj, hjv⟩ := (H.task.task _ hne).mpr (Multiset.mem_add.mpr (Or.inl hin))
    have hkeep := F.task j hj (by rw [hjv]; exact hin)
    have hij := H'.sched.inj j hj i hi (by rw [hkeep, hjv]) (by rw [hkeep, hjv]; exact hne)
    rw [hij, hz] at hjv
    exact hne hjv.symm
  · refine F.task i hi ?_
    rcases Multiset.mem_add.mp ((H.task.task _ hz).mp ⟨i, hi, rfl⟩) with h | h
    · exact h
    · exact absurd h (hX _)

/-- The items of the process that awaits reaping: its task is no longer queued. -/
theorem awaiting (H : Inv w O B P) (hz : w.k.sched.reapProcess ≠ 0) : ∃ P',
    P = w.k.sched.reapProcess ::ₘ P' ∧ w.k.sched.reapProcess ∉ P' ∧
      B + heldItems w.held + P.bind (liveItems w.k) =
        B + heldItems w.held + P'.bind (liveItems w.k) +
          procItems w.k.sched.reapProcess (w.k.mem w.k.sched.reapProcess) ∧
      Item.task (w.k.mem w.k.sched.reapProcess procTssSelector) ∉
        B + heldItems w.held + P'.bind (liveItems w.k) := by
  have hpP := H.reap.resolve_left hz
  obtain ⟨P', hP, hnot, hsplit⟩ := H.split hpP
  rw [show liveItems w.k w.k.sched.reapProcess = procItems _ _ from if_pos rfl] at hsplit
  refine ⟨P', hP, hnot, hsplit, ?_⟩
  have hown : TasksOwned (B + heldItems w.held + P'.bind (liveItems w.k)) := by
    intro v hv
    rcases Multiset.mem_add.mp hv with h | h
    · rcases Multiset.mem_add.mp h with h | h
      · rcases H.base _ h with ⟨q, hq⟩ | ⟨i, hi⟩
        · cases hq
        · cases hi
      · exact absurd h (not_held (by simp))
    · obtain ⟨q, hqP, hmem⟩ := Multiset.mem_bind.mp h
      obtain ⟨rfl, -⟩ := task_mem_liveItems hmem
      have hq : q ∈ P := by
        rw [hP]
        exact Multiset.mem_cons_of_mem hqP
      exact Multiset.mem_add.mpr (Or.inr (Multiset.mem_bind.mpr ⟨q, hqP,
        procItems_subset_liveItems (gdt_mem_procItems (H.complete q hq).sel)⟩))
  have hH := H.holds
  rw [hsplit] at hH
  exact (H.complete _ hpP).not_queued hown hH

/-- **`scheduler_reap_terminated`** destroys the process that awaits it. -/
theorem reapTerminated (H : Inv w O B P) :
    ∃ k' P', schedulerReapTerminated.run w.k = some ((), k') ∧ Inv { w with k := k' } O B P' ∧
      k'.sched.reapProcess = 0 ∧
      (w.k.sched.reapProcess = 0 ∧ k' = w.k ∧ P' = P ∨
        w.k.sched.reapProcess ≠ 0 ∧ P = w.k.sched.reapProcess ::ₘ P') ∧
      (∀ p ∈ P', k'.mem p = w.k.mem p) ∧ k'.tr = w.k.tr ∧
      k'.sched.currentIndex = w.k.sched.currentIndex ∧
      k'.sched.kernelTssSelector = w.k.sched.kernelTssSelector ∧
      (∀ i < maxTasks, k'.sched.taskTable i = w.k.sched.taskTable i) ∧
      ∀ i < gdtFirstDynamic, k'.gdt i = w.k.gdt i := by
  by_cases hz : w.k.sched.reapProcess = 0
  · refine ⟨w.k, P, ?_, H, hz, Or.inl ⟨hz, rfl, rfl⟩, fun _ _ => rfl, rfl, rfl, rfl,
      fun _ _ => rfl, fun _ _ => rfl⟩
    refine run_bind_eq_some.mpr ⟨w.k, w.k, rfl, ?_⟩
    rw [if_pos hz]
    rfl
  have hpP := H.reap.resolve_left hz
  obtain ⟨P', rfl, hnot, hsplit, hqueued⟩ := H.awaiting hz
  set p := w.k.sched.reapProcess with hp
  set k₁ : Kernel := { w.k with sched := { w.k.sched with reapProcess := 0 } } with hk₁
  have hC := H.complete p hpP
  have hq : ∀ q ∈ P', q ∈ p ::ₘ P' ∧ q ≠ 0 ∧ q ≠ p := fun q hq =>
    ⟨Multiset.mem_cons_of_mem hq, H.ne_zero (Multiset.mem_cons_of_mem hq), fun h => hnot (h ▸ hq)⟩
  have hlive : ∀ q ∈ P', liveItems k₁ q = liveItems w.k q := by
    intro q hqP
    obtain ⟨-, h0, hne⟩ := hq q hqP
    rw [liveItems, liveItems, if_neg h0, if_neg (by rw [← hp]; exact hne)]
  have hH := holds_clearReap H.holds
  rw [hsplit] at hH
  obtain ⟨_, k', hrun, F, hH'⟩ := processDestroy_spec (k := k₁) (Q := 0)
    (by rw [add_zero]; exact hH) hC.plain hC.sel_lt (Or.inr ⟨rfl, hqueued⟩)
  have H₁ : Shape { w with k := k₁ } O B (p ::ₘ P') :=
    ⟨fun q hq => (H.complete q hq).congr (fun _ _ => rfl) rfl rfl, H.base,
      ⟨H.task.plain, H.task.desc, H.task.tss⟩, H.nodup, H.pages, H.storage, H.pdes⟩
  have hbind : P'.bind (liveItems k₁) = P'.bind (liveItems w.k) := Multiset.bind_congr hlive
  have hinv : Inv { w with k := k' } O B P' := by
    refine of_frame H₁ F ?_ (fun q hq => Multiset.mem_cons_of_mem hq) ?_ (Or.inl rfl) rfl
    · intro x hx
      rw [hbind] at hx
      exact mem_base_or hx
    · rw [hbind]
      exact hH'
  refine ⟨k', P', ?_, hinv, F.reap, Or.inr ⟨hz, rfl⟩, fun q hqP => ?_, F.tr, F.current,
    F.kernel, fun i hi => ?_, fun i hi => F.gdt i (Or.inl hi)⟩
  · refine run_bind_eq_some.mpr ⟨w.k, w.k, rfl, ?_⟩
    rw [if_neg hz]
    exact run_bind_eq_some.mpr ⟨(), k₁, rfl, hrun⟩
  · exact F.mem q (Multiset.mem_add.mpr (Or.inr (Multiset.mem_bind.mpr
      ⟨q, hqP, procItems_subset_liveItems (block_mem_procItems _ _)⟩)))
  · exact task_eq_of_frame F hH hH' (task_not_mem_procItems _ _) hi

/-! ### The fault of the running process -/

/-- The switch away from a task that is in the table finds another task. -/
theorem exceptionTerminateSwitch_isSome {s : Sched} {tr esi : ℕ} (H : SchedOk s tr)
    (hne : s.currentIndex ≠ noIndex) : ∃ sel, (exceptionTerminateSwitch s tr esi).2 = some sel := by
  obtain ⟨hlt, htr⟩ : s.currentIndex < maxTasks ∧ s.taskTable s.currentIndex = tr := by
    rcases H.current with h | ⟨h1, h2, -⟩
    · exact absurd h.1 hne
    · exact ⟨h1, h2⟩
  unfold exceptionTerminateSwitch
  dsimp only
  rw [if_neg (by omega), if_neg (by simpa using htr)]
  split
  · exact ⟨_, rfl⟩
  · have hk : s.kernelTssSelector % 2 ^ 16 ≠ 0 := by
      rw [H.kernel_mod]
      exact H.kernel.1.ne'
    by_cases hc : s.taskCount = 0
    · simp only [hc, if_true]
      rw [if_neg hk]
      exact ⟨_, rfl⟩
    · simp only [hc, if_false]
      rw [if_neg hk]
      exact ⟨_, rfl⟩

theorem exceptionTerminateSwitch_kernel (s : Sched) (tr esi : ℕ) :
    (exceptionTerminateSwitch s tr esi).1.kernelTssSelector = s.kernelTssSelector := by
  unfold exceptionTerminateSwitch
  dsimp only
  split_ifs
  · rfl
  · rfl
  all_goals split <;> rfl

/-- **The end of a faulting process**: the running protected process leaves the
task table and awaits reaping. -/
theorem terminate (H : Inv w O B P) (image : ℕ → ℕ) {p : ℕ} (hp : p ∈ P)
    (hreap : w.k.sched.reapProcess = 0) (hrun : RunningTask w.k p)
    (htype : w.k.mem p procType = processTypeProtected32) :
    ∃ k', (terminateCurrent image).run w.k = some (true, k') ∧ Inv { w with k := k' } O B P ∧
      k'.sched.reapProcess = p ∧
      k'.sched.taskTable = Function.update w.k.sched.taskTable w.k.sched.currentIndex 0 ∧
      k'.sched.taskCount + 1 = w.k.sched.taskCount ∧
      k'.sched.kernelTssSelector = w.k.sched.kernelTssSelector ∧ Switched w.k k' := by
  have hC := H.complete p hp
  have hsel : w.k.mem p procTssSelector = w.k.tr := by
    rw [← hrun.2, Nat.mod_eq_of_lt hC.sel_lt]
  have howner : w.k.mem (descriptorBase (w.k.gdt (w.k.tr % 2 ^ 16 / 8))) tssOwnerProcess = p := by
    rw [← hsel, Nat.mod_eq_of_lt hC.sel_lt, hC.desc]
    rcases hC.kind with ⟨-, h, -⟩ | ⟨h, -⟩
    · exact h
    · rw [htype] at h
      exact absurd h (by decide)
  have hp0 := H.ne_zero hp
  obtain ⟨sel, hnext⟩ := exceptionTerminateSwitch_isSome H.holds.sched hrun.1
  have hok := @exceptionTerminateSwitch_ok _ _ p H.holds.sched
  rw [hnext] at hok
  obtain ⟨hS, hlt, hcur, htab, hcount, hre⟩ := hok
  have hker := exceptionTerminateSwitch_kernel w.k.sched w.k.tr p
  set s := (exceptionTerminateSwitch w.k.sched w.k.tr p).1 with hs
  set k' := taskSwitch image sel { w.k with sched := s } with hk'
  have S : Switched w.k k' := switched_taskSwitch _ _ _ _
  have hrunk : (terminateCurrent image).run w.k = some (true, k') := by
    change some _ = some _
    dsimp only
    rw [howner, if_neg hp0, hnext]
  have htr0 : w.k.tr ≠ 0 := by rw [← hsel]; exact hC.sel
  -- the items: the process has left the task table
  obtain ⟨P', rfl, hnot, hsplit⟩ := H.split hp
  have hlp : liveItems w.k p = procItems p (w.k.mem p) + {.task w.k.tr} := by
    rw [← hsel]
    exact if_neg (by rw [hreap]; exact hp0)
  have hlp' : liveItems k' p = procItems p (w.k.mem p) := by
    rw [liveItems, if_pos (show p = k'.sched.reapProcess from hre.symm), H.switched_object S hp]
  have hrest : P'.bind (liveItems k') = P'.bind (liveItems w.k) := by
    refine Multiset.bind_congr fun q hq => ?_
    have hqP : q ∈ p ::ₘ P' := Multiset.mem_cons_of_mem hq
    rw [liveItems, liveItems, H.switched_object S hqP, hreap, if_neg (H.ne_zero hqP), if_neg]
    intro h
    rw [show k'.sched.reapProcess = p from hre] at h
    exact hnot (h ▸ hq)
  have hitems : B + heldItems w.held + (p ::ₘ P').bind (liveItems w.k) =
      B + heldItems w.held + (p ::ₘ P').bind (liveItems k') + {.task w.k.tr} := by
    rw [hsplit, Multiset.cons_bind, hrest, hlp, hlp']
    abel
  have hnd := H.holds.nodup
  rw [hitems] at hnd
  obtain ⟨hnd', hnew⟩ := nodup_add_singleton.mp hnd
  refine ⟨k', hrunk, H.of_switch S ?_ hker (Or.inr ?_), hre, htab, hcount, hker, S⟩
  · refine H.holds.switch S ?_ hnd' ?_ hS fun x hx => ?_
    · rintro i (rfl | rfl)
      · exact (H.task_segment H.isTask_tr).1
      · refine (H.task_segment ?_).1
        rcases hS.current with ⟨-, h⟩ | ⟨h1, h2, h3⟩
        · exact Or.inl (h.trans hker)
        · have hidx : s.currentIndex ≠ w.k.sched.currentIndex := by
            intro h
            rw [h, htab, Function.update_self] at h2
            exact h3 h2.symm
          rw [htab, Function.update_of_ne hidx] at h2
          obtain ⟨q, hq, hmem⟩ := H.of_process (by simp) (by simp)
            ((H.holds.task.task _ h3).mp ⟨_, h1, h2⟩)
          exact Or.inr ⟨q, hq, (task_mem_liveItems hmem).1⟩
    · refine ⟨fun v hv => ?_, fun v hv => ?_⟩
      · refine H.holds.task.range v ?_
        rw [hitems]
        exact mem_add_singleton.mpr (Or.inl hv)
      · have hold := H.holds.task.task v hv
        rw [hitems, mem_add_singleton] at hold
        change (∃ i < maxTasks, s.taskTable i = v) ↔ _
        rw [htab]
        constructor
        · rintro ⟨i, hi, hiv⟩
          have hic : i ≠ w.k.sched.currentIndex := by
            rintro rfl
            rw [Function.update_self] at hiv
            exact hv hiv.symm
          rw [Function.update_of_ne hic] at hiv
          refine (hold.mp ⟨i, hi, hiv⟩).resolve_right fun h => ?_
          rw [Item.task.inj h] at hiv
          exact hic (H.holds.sched.inj i hi _ hlt (hiv.trans hcur.symm) (by rw [hiv]; exact htr0))
        · intro hin
          obtain ⟨i, hi, hiv⟩ := hold.mpr (Or.inl hin)
          refine ⟨i, hi, (Function.update_of_ne ?_ _ _).trans hiv⟩
          rintro rfl
          rw [hcur] at hiv
          exact hnew (hiv ▸ hin)
    · rw [hitems]
      exact (mem_add_singleton_of_ne (hx _)).symm
  · rw [show k'.sched.reapProcess = p from hre]
    exact Multiset.mem_cons_self _ _

/-! ### Interrupts as steps of the system -/

/-- The running task has a dynamic descriptor. -/
theorem tr_dynamic (H : Inv w O B P) : gdtFirstDynamic ≤ w.k.tr / 8 :=
  (H.holds.gdt.range _ (H.task_segment H.isTask_tr).1).1

/-- A switch leaves the fixed descriptors alone. -/
theorem switched_fixed (H : Inv w O B P) {k' : Kernel} {P' : Multiset ℕ} (S : Switched w.k k')
    (H' : Inv { w with k := k' } O B P') {i : ℕ} (hi : i < gdtFirstDynamic) :
    k'.gdt i = w.k.gdt i := by
  have h1 := H.tr_dynamic
  have h2 : gdtFirstDynamic ≤ k'.tr / 8 := H'.tr_dynamic
  exact S.gdt i (by omega) (by omega)

/-- What reaping does to the processes. -/
def Reaped (k : Kernel) (P P' : Multiset ℕ) : Prop :=
  k.sched.reapProcess = 0 ∧ P' = P ∨
    k.sched.reapProcess ≠ 0 ∧ P = k.sched.reapProcess ::ₘ P'

/-- **A tick** reaps and switches; with nobody to reap it only switches. -/
theorem tick_runs (H : Inv w O B P) (image : ℕ → ℕ) :
    ∃ w' P', (Op.tick image).exec w = some w' ∧ Inv w' O B P' ∧ Reaped w.k P P' ∧
      w'.k.sched.reapProcess = 0 ∧ (∀ i < gdtFirstDynamic, w'.k.gdt i = w.k.gdt i) ∧
      (∀ p ∈ P', w'.k.mem p = w.k.mem p) ∧
      (w.k.sched.reapProcess = 0 → w'.k.sched = (schedulerSwitchNext w.k.sched w.k.tr).1 ∧
        w'.k.ram = w.k.ram) := by
  obtain ⟨k₁, P', hr, H₁, hz, hre, hm₁, -, -, -, -, hg₁⟩ := H.reapTerminated
  obtain ⟨k₂, hs, H₂, S, hsched, -⟩ := H₁.switchNext image
  have hrun : (timerTick image).run w.k = some ((), k₂) := run_bind_eq_some.mpr ⟨(), k₁, hr, hs⟩
  refine ⟨{ w with k := k₂ }, P', ?_, H₂, hre.imp (fun h => ⟨h.1, h.2.2⟩) id, ?_, fun i hi => ?_,
    fun p hp => ?_, fun h0 => ?_⟩
  · rw [Op.exec, World.call, hrun]
    rfl
  · change k₂.sched.reapProcess = 0
    rw [hsched, (schedulerSwitchNext_table _ _).2.2.2]
    exact hz
  · exact (H₁.switched_fixed S H₂ hi).trans (hg₁ i hi)
  · exact (H₁.switched_object S hp).trans (hm₁ p hp)
  · obtain ⟨-, rfl, -⟩ := hre.resolve_right fun h => h.1 h0
    exact ⟨hsched, S.ram⟩

theorem tick (H : Inv w O B P) {image : ℕ → ℕ} {w' : World}
    (h : (Op.tick image).exec w = some w') :
    ∃ P', Inv w' O B P' ∧ Reaped w.k P P' ∧ w'.k.sched.reapProcess = 0 ∧
      (∀ i < gdtFirstDynamic, w'.k.gdt i = w.k.gdt i) ∧ ∀ p ∈ P', w'.k.mem p = w.k.mem p := by
  obtain ⟨w₁, P', hexec, H', hre, hz, hg, hm, -⟩ := H.tick_runs image
  rw [h] at hexec
  obtain rfl := Option.some.inj hexec
  exact ⟨P', H', hre, hz, hg, hm⟩

/-- **A tick dispatches** a queued process when the kernel task runs. -/
theorem tick_dispatches (H : Inv w O B P) (image : ℕ → ℕ) (hz : w.k.sched.reapProcess = 0)
    (hcur : w.k.sched.currentIndex = noIndex) (hP : P ≠ 0) :
    ∃ w' p, (Op.tick image).exec w = some w' ∧ Inv w' O B P ∧ w'.k.sched.reapProcess = 0 ∧
      (∀ p ∈ P, w'.k.mem p = w.k.mem p) ∧ p ∈ P ∧ RunningTask w'.k p ∧ w'.k.ram = w.k.ram := by
  obtain ⟨w', P', hexec, H', hre, hz', -, hm, hs⟩ := H.tick_runs image
  obtain ⟨-, rfl⟩ := hre.resolve_right fun h => h.1 hz
  -- some entry of the task table is taken
  obtain ⟨q, hq⟩ := Multiset.exists_mem_of_ne_zero hP
  have hq0 : q ≠ w.k.sched.reapProcess := by
    rw [hz]
    exact H.ne_zero hq
  have htask : Item.task (w.k.mem q procTssSelector) ∈ liveItems w.k q := by
    rw [liveItems, if_neg hq0]
    exact Multiset.mem_add.mpr (Or.inr (Multiset.mem_singleton_self _))
  obtain ⟨i, hi, hiv⟩ := (H.holds.task.task _ (H.complete q hq).sel).mpr
    (Multiset.mem_add.mpr (Or.inr (Multiset.mem_bind.mpr ⟨q, hq, htask⟩)))
  have hirun : i ∈ w.k.sched.runnable := by
    refine List.mem_filter.mpr ⟨List.mem_range.mpr hi, ?_⟩
    rw [hiv]
    exact decide_eq_true (H.complete q hq).sel
  have hne : w.k.sched.runnable ≠ [] := List.ne_nil_of_mem hirun
  have hcount : w.k.sched.taskCount ≠ 0 := by
    rw [H.holds.sched.count]
    exact (List.length_pos_of_mem hirun).ne'
  -- the switch goes from the kernel task to the first entry
  obtain ⟨j, hj, hjcur, -⟩ := @schedulerSwitchNext_step w.k.sched w.k.tr 0
    (by rw [H.holds.sched.kernel_mod]; exact H.holds.sched.kernel.1.ne') hcount hne
    (by rw [hcur]; rfl)
  have hlen : 1 < w.k.sched.runOrder.length := by
    have := List.length_pos_of_mem hirun
    rw [Sched.runOrder, List.length_cons]
    omega
  rw [Nat.mod_eq_of_lt hlen] at hj
  have hjmem : j ∈ w.k.sched.runnable := List.mem_of_getElem? (by simpa [Sched.runOrder] using hj)
  have hjlt : j < maxTasks := List.mem_range.mp (List.mem_of_mem_filter hjmem)
  have hcur' : w'.k.sched.currentIndex ≠ noIndex := by
    rw [(hs hz).1, hjcur]
    simp only [maxTasks] at hjlt
    simp only [noIndex]
    omega
  obtain ⟨p, hp, -, htr⟩ := H'.running_process hcur'
  refine ⟨w', p, hexec, H', hz', hm, hp, ⟨hcur', ?_⟩, (hs hz).2⟩
  rw [Nat.mod_eq_of_lt (H'.complete p hp).sel_lt, htr]

/-- The process of the running task does not await reaping: reaping leaves it
running. -/
theorem reap_running (H : Inv w O B P) {p : ℕ} (hp : Live w.k p) (hrun : RunningTask w.k p) :
    ∃ k₁ P', schedulerReapTerminated.run w.k = some ((), k₁) ∧ Inv { w with k := k₁ } O B P' ∧
      k₁.sched.reapProcess = 0 ∧ Reaped w.k P P' ∧ p ∈ P' ∧ RunningTask k₁ p ∧
      (∀ q ∈ P', k₁.mem q = w.k.mem q) ∧ k₁.sched.currentIndex = w.k.sched.currentIndex ∧
      k₁.sched.kernelTssSelector = w.k.sched.kernelTssSelector ∧
      (∀ i < maxTasks, k₁.sched.taskTable i = w.k.sched.taskTable i) ∧
      ∀ i < gdtFirstDynamic, k₁.gdt i = w.k.gdt i := by
  obtain ⟨k₁, P', hr, H₁, hz, hre, hmem, htr, hcur, hker, htab, hg₁⟩ := H.reapTerminated
  have hre' : Reaped w.k P P' := hre.imp (fun h => ⟨h.1, h.2.2⟩) id
  have hpP := H.live_iff.mp hp
  have hpP' : p ∈ P' := by
    rcases hre' with ⟨-, rfl⟩ | ⟨-, hP⟩
    · exact hpP
    · rw [hP] at hpP
      refine (Multiset.mem_cons.mp hpP).resolve_left fun hpr => ?_
      obtain ⟨q, hq, hqr, hqtr⟩ := H.running_process hrun.1
      refine hqr ((H.selector_inj hq (H.live_iff.mp hp) ?_).trans hpr)
      rw [← hqtr, ← hrun.2, Nat.mod_eq_of_lt (H.complete p (H.live_iff.mp hp)).sel_lt]
  refine ⟨k₁, P', hr, H₁, hz, hre', hpP', ⟨by rw [hcur]; exact hrun.1, ?_⟩, hmem, hcur,
    hker, htab, hg₁⟩
  rw [hmem p hpP', htr]
  exact hrun.2

/-- **A fault** of a protected process reaps, and terminates the process. -/
theorem fault_runs (H : Inv w O B P) (image : ℕ → ℕ) {p : ℕ} (hp : Live w.k p)
    (hrun : RunningTask w.k p) (htype : w.k.mem p procType = processTypeProtected32) :
    ∃ w' P', (exceptionTerminateCurrent image).run w.k = some (true, w'.k) ∧
      (Op.fault image).exec w = some w' ∧ Inv w' O B P' ∧ Reaped w.k P P' ∧ p ∈ P' ∧
      Terminated w.k p w'.k ∧ (∀ i < gdtFirstDynamic, w'.k.gdt i = w.k.gdt i) ∧
      ∀ q ∈ P', w'.k.mem q = w.k.mem q := by
  obtain ⟨k₁, P', hr, H₁, hz, hre, hpP', hrun₁, hmem, hcur, hker, htab, hg₁⟩ :=
    H.reap_running hp hrun
  obtain ⟨k₂, ht, H₂, hrp, htab₂, hcount, hker₂, S⟩ := H₁.terminate image hpP' hz hrun₁ (by
    change k₁.mem p procType = _
    rw [hmem p hpP']
    exact htype)
  have hex : (exceptionTerminateCurrent image).run w.k = some (true, k₂) :=
    run_bind_eq_some.mpr ⟨(), k₁, hr, ht⟩
  have htable : ∀ i < maxTasks, k₂.sched.taskTable i =
      if i = w.k.sched.currentIndex then 0 else w.k.sched.taskTable i := fun i hi => by
    rw [htab₂, Function.update_apply]
    change (if i = k₁.sched.currentIndex then 0 else k₁.sched.taskTable i) = _
    rw [hcur, htab i hi]
  refine ⟨{ w with k := k₂ }, P', hex, ?_, H₂, hre, hpP', ⟨htable, ?_, hrp, ?_⟩,
    fun i hi => (H₁.switched_fixed S H₂ hi).trans (hg₁ i hi),
    fun q hq => (H₁.switched_object S hq).trans (hmem q hq)⟩
  · rw [Op.exec, World.call, hex]
    rfl
  · -- reaping removes no entry, so it does not change the count
    refine hcount.trans ?_
    change k₁.sched.taskCount = _
    rw [H₁.holds.sched.count, H.holds.sched.count]
    refine congrArg List.length (List.filter_congr fun i hi => ?_)
    rw [show k₁.sched.taskTable i = _ from htab i (List.mem_range.mp hi)]
  · -- the entry of `p` is free, so the task that runs now has another one
    rcases H₂.holds.sched.current with ⟨h1, h2⟩ | ⟨h1, h2, h3⟩
    · exact Or.inl ⟨h1, h2.trans (hker₂.trans hker)⟩
    · have hne : k₂.sched.currentIndex ≠ w.k.sched.currentIndex := fun h => by
        rw [show k₂.sched.taskTable _ = _ from htable _ h1, if_pos h] at h2
        exact h3 h2.symm
      rw [show k₂.sched.taskTable _ = _ from htable _ h1, if_neg hne] at h2
      exact Or.inr ⟨h1, hne, h2, h3⟩

/-- **A fault** of a VM86 process halts the machine: its segment names no
owner. -/
theorem fault_halts (H : Inv w O B P) (image : ℕ → ℕ) {p : ℕ} (hp : Live w.k p)
    (hrun : RunningTask w.k p) (htype : w.k.mem p procType ≠ processTypeProtected32) :
    ∃ k', (exceptionTerminateCurrent image).run w.k = some (false, k') := by
  obtain ⟨k₁, P', hr, H₁, -, -, hpP', hrun₁, hmem, -⟩ := H.reap_running hp hrun
  have hC := H₁.complete p hpP'
  have hsel : k₁.mem p procTssSelector = k₁.tr := by
    rw [← hrun₁.2, Nat.mod_eq_of_lt hC.sel_lt]
  have howner : k₁.mem (descriptorBase (k₁.gdt (k₁.tr % 2 ^ 16 / 8))) tssOwnerProcess = 0 := by
    rw [← hsel, Nat.mod_eq_of_lt hC.sel_lt, show descriptorBase _ = _ from hC.desc]
    rcases hC.kind with ⟨h, -⟩ | ⟨-, h, -⟩
    · exact absurd ((congrFun (hmem p hpP') procType).symm.trans h) htype
    · exact h
  refine ⟨k₁, run_bind_eq_some.mpr ⟨(), k₁, hr, ?_⟩⟩
  change some _ = some _
  dsimp only
  rw [howner, if_pos rfl]

theorem fault (H : Inv w O B P) {image : ℕ → ℕ} {w' : World} {p : ℕ} (hp : Live w.k p)
    (hrun : RunningTask w.k p) (htype : w.k.mem p procType = processTypeProtected32)
    (h : (Op.fault image).exec w = some w') :
    ∃ P', Inv w' O B P' ∧ Reaped w.k P P' ∧ p ∈ P' ∧ w'.k.sched.reapProcess = p ∧
      (∀ i < gdtFirstDynamic, w'.k.gdt i = w.k.gdt i) ∧ ∀ q ∈ P', w'.k.mem q = w.k.mem q := by
  obtain ⟨w₁, P', -, hexec, H', hre, hpP', hT, hg, hm⟩ := H.fault_runs image hp hrun htype
  rw [h] at hexec
  obtain rfl := Option.some.inj hexec
  exact ⟨P', H', hre, hpP', hT.reap, hg, hm⟩

end Inv

/-- `process_destroy` is not called for the process that awaits reaping. -/
def Careful (w : World) (op : Op) : Prop := ∀ p, op = .destroy p → p ≠ w.k.sched.reapProcess

/-- **One step of the system keeps its invariant.** -/
theorem Inv.step {w w' : World} {O : ℕ → Prop} {B : Items} {P : Multiset ℕ} {op : Op}
    (H : Inv w O B P) (ha : op.Allowed w) (hc : Careful w op) (h : op.exec w = some w') :
    ∃ O' P', Inv w' O' B P' := by
  cases op with
  | create type =>
    obtain ⟨p, -, ⟨-, H'⟩ | ⟨-, -, H'⟩⟩ := H.create h
    · exact ⟨O, P, H'⟩
    · exact ⟨O, _, H'⟩
  | destroy p =>
    obtain ⟨P', -, H'⟩ := H.destroy ha.1 ha.2 (hc p rfl) h
    exact ⟨O, P', H'⟩
  | prepare p source size image =>
    obtain ⟨O', H'⟩ := H.prepare ha h
    exact ⟨O', P, H'⟩
  | heapGrow p =>
    obtain ⟨O', H'⟩ := H.heapGrow ha h
    exact ⟨O', P, H'⟩
  | heapAlloc size => exact ⟨O, P, H.heapAlloc h⟩
  | heapFree ptr => exact ⟨O, P, H.heapFree ha h⟩
  | tick image =>
    obtain ⟨P', H', -, -⟩ := H.tick h
    exact ⟨O, P', H'⟩
  | fault image =>
    obtain ⟨p, hp, hrun, htype⟩ := ha
    obtain ⟨P', H', -, -, -⟩ := H.fault hp hrun htype h
    exact ⟨O, P', H'⟩
  | allocPage =>
    obtain ⟨O', H'⟩ := H.allocPage h
    exact ⟨O', P, H'⟩
  | freePage n =>
    obtain ⟨O', H'⟩ := H.freePage ha h
    exact ⟨O', P, H'⟩
  | mapUser pd virt phys flags =>
    obtain ⟨O', H'⟩ := H.mapUser ha.1 ha.2 h
    exact ⟨O', P, H'⟩
  | unmap pd virt =>
    obtain ⟨O', H'⟩ := H.unmap ha.1 ha.2 h
    exact ⟨O', P, H'⟩
  | storageMap physical =>
    obtain ⟨O', H'⟩ := H.storageMap ha h
    exact ⟨O', P, H'⟩
  | driverWork mem => exact ⟨O, P, H.driverWork h⟩

end VirtualKernel
