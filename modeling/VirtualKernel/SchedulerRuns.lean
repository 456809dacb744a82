/-
The bookkeeping of the scheduler over whole runs.

`SchedReach k` are the states reached from `scheduler_init` and
`create_kernel_tss` by additions, removals, timer switches, reaping and fault
terminations in any order.  In between, everything but the scheduler words and
the task register may change.  `schedReach_ok` carries `SchedOk` along such a
run, `schedReach_bookkeeping` reads it.
-/
import VirtualKernel.SchedulerInv
import VirtualKernel.Boot
import VirtualKernel.HeapRuns

namespace VirtualKernel

open Lib

/-! ### Routines that leave the scheduler alone -/

section Keeps

variable {τ : Type} {π : Kernel → τ}

theorem keeps_kHeapAlloc (h : ∀ k h' r', π { k with heap := h', ram := r' } = π k) (size : ℕ) :
    Keeps π (kHeapAlloc size) := by
  intro k a t hr
  obtain ⟨x, -, hx⟩ := Option.map_eq_some_iff.mp hr
  obtain ⟨-, rfl⟩ := Prod.mk.inj hx
  exact h _ _ _

theorem keeps_kHeapFree (h : ∀ k h', π { k with heap := h' } = π k) (ptr : ℕ) :
    Keeps π (kHeapFree ptr) := by
  intro k a t hr
  obtain ⟨x, -, hx⟩ := Option.map_eq_some_iff.mp hr
  obtain ⟨-, rfl⟩ := Prod.mk.inj hx
  exact h _ _

end Keeps

/-- The scheduler words and the task register. -/
def schedPart (k : Kernel) : Sched × ℕ := (k.sched, k.tr)

theorem keeps_load (p off : ℕ) : Keeps schedPart (load p off) := keeps_modifyGet fun _ => rfl

theorem keeps_store (p off v : ℕ) : Keeps schedPart (store p off v) := keeps_modify fun _ => rfl

theorem keeps_gdtFreeSelector (sel : ℕ) : Keeps schedPart (gdtFreeSelector sel) :=
  keeps_modify fun k => by dsimp only; split_ifs <;> rfl

theorem keeps_gdtAllocSelector : Keeps schedPart gdtAllocSelector :=
  keeps_modifyGet fun k => by split <;> rfl

theorem keeps_releaseField {esi off none : ℕ} {release : ℕ → KM Unit}
    (h : ∀ eax, Keeps schedPart (release eax)) :
    Keeps schedPart (releaseField esi off none release) :=
  keeps_bind (keeps_load _ _) fun eax =>
    keeps_ite (keeps_pure _) (keeps_bind (h eax) fun _ => keeps_store _ _ _)

theorem keeps_processTeardown (esi : ℕ) : Keeps schedPart (processTeardown esi) := by
  have hfree : ∀ ptr, Keeps schedPart (kHeapFree ptr) := keeps_kHeapFree fun _ _ => rfl
  refine keeps_bind (keeps_modify fun k => by dsimp only; split_ifs <;> rfl) fun _ => ?_
  refine keeps_bind (keeps_modify fun k => by dsimp only; split_ifs <;> rfl) fun _ => ?_
  refine keeps_bind (keeps_releaseField keeps_gdtFreeSelector) fun _ => ?_
  refine keeps_bind (keeps_releaseField hfree) fun _ => ?_
  refine keeps_bind (keeps_releaseField fun eax => hfree _) fun _ => ?_
  refine keeps_bind (keeps_releaseField keeps_gdtFreeSelector) fun _ => ?_
  refine keeps_bind (keeps_releaseField hfree) fun _ => ?_
  refine keeps_bind (keeps_releaseField hfree) fun _ => ?_
  refine keeps_bind (keeps_releaseField fun eax => keeps_bind
    (keeps_modify fun k => by split_ifs <;> rfl) fun _ => keeps_store _ _ _) fun _ => ?_
  refine keeps_bind (keeps_releaseField fun eax => keeps_modifyGet fun _ => rfl) fun _ => ?_
  exact hfree esi

/-! ### Runs -/

/-- The calls that touch the scheduler. -/
inductive SchedCall
  | add (p : ℕ)
  | remove (p : ℕ)
  | switch (image : ℕ → ℕ)
  | reap
  | fault (image : ℕ → ℕ)
  | other

/-- The process `p` is not in the task table. -/
def NotScheduled (k : Kernel) (p : ℕ) : Prop :=
  ∀ i < maxTasks, k.sched.taskTable i ≠ 0 →
    k.sched.taskTable i ≠ k.mem p procTssSelector % 2 ^ 16

/-- The process `p` is the running task. -/
def RunningTask (k : Kernel) (p : ℕ) : Prop :=
  k.sched.currentIndex ≠ noIndex ∧ k.mem p procTssSelector % 2 ^ 16 = k.tr

/-- One call.  `other` is any code that writes neither the scheduler words nor
the task register. -/
inductive SchedStep : SchedCall → Kernel → Kernel → Prop
  | add {p k k' eax} (hnew : NotScheduled k p)
      (h : (kSchedulerAddProcess p).run k = some (eax, k')) : SchedStep (.add p) k k'
  | remove {p k k' eax} (h : (kSchedulerRemoveProcess p).run k = some (eax, k')) :
      SchedStep (.remove p) k k'
  | switch {image k k'} (h : (kSchedulerSwitchNext image).run k = some ((), k')) :
      SchedStep (.switch image) k k'
  | reap {k k'} (h : schedulerReapTerminated.run k = some ((), k')) : SchedStep .reap k k'
  | fault {image k k' switched}
      (h : (exceptionTerminateCurrent image).run k = some (switched, k')) :
      SchedStep (.fault image) k k'
  | other {k k'} (hs : k'.sched = k.sched) (ht : k'.tr = k.tr) : SchedStep .other k k'

/-- The states reached after `scheduler_init` and `create_kernel_tss`. -/
inductive SchedReach : Kernel → Prop
  | boot {k k' : Kernel} {cr3 ldtr sel : ℕ} (hs : k.sched = schedulerInit)
      (h : (createKernelTss cr3 ldtr).run k = some (some sel, k')) : SchedReach k'
  | step {c k k'} (hk : SchedReach k) (h : SchedStep c k k') : SchedReach k'

/-! ### The invariant along a run -/

theorem gdtAllocSelector_range {k k' : Kernel} {sel : ℕ}
    (h : gdtAllocSelector.run k = some (some sel, k')) : 0 < sel ∧ sel < 2 ^ 16 := by
  unfold gdtAllocSelector at h
  replace h := Option.some.inj h
  dsimp only at h
  split at h
  · cases h
  · rename_i i hfind
    obtain ⟨h1, -⟩ := Prod.mk.inj h
    obtain rfl := Option.some.inj h1
    have hmem := List.mem_of_find?_eq_some hfind
    rw [List.mem_range'_1] at hmem
    simp only [gdtFirstDynamic, gdtEntryCount] at hmem
    omega

theorem schedOk_init {sel : ℕ} (h : 0 < sel ∧ sel < 2 ^ 16) :
    SchedOk { schedulerInit with kernelTssSelector := sel } sel where
  count := by
    change 0 = ((List.range maxTasks).filter fun _ => decide ((0 : ℕ) ≠ 0)).length
    decide
  inj := fun i _ j _ _ h0 => absurd rfl h0
  current := Or.inl ⟨rfl, rfl⟩
  kernel := h

/-- What `create_kernel_tss` does to the scheduler. -/
theorem createKernelTss_sched {k k' : Kernel} {cr3 ldtr sel : ℕ}
    (h : (createKernelTss cr3 ldtr).run k = some (some sel, k')) :
    k'.sched = { k.sched with kernelTssSelector := sel } ∧ k'.tr = sel ∧ 0 < sel ∧ sel < 2 ^ 16 := by
  obtain ⟨tss, k₁, h1, h⟩ := run_bind_eq_some.mp h
  have hk₁ : schedPart k₁ = schedPart k := keeps_kHeapAlloc (fun _ _ _ => rfl) _ _ _ _ h1
  split_ifs at h with htss
  · cases h
  obtain ⟨_, k₂, h2, h⟩ := run_bind_eq_some.mp h
  obtain ⟨-, rfl⟩ := Prod.mk.inj (Option.some.inj h2)
  obtain ⟨_, k₃, h3, h⟩ := run_bind_eq_some.mp h
  obtain ⟨-, rfl⟩ := Prod.mk.inj (Option.some.inj h3)
  obtain ⟨_, k₄, h4, h⟩ := run_bind_eq_some.mp h
  obtain ⟨-, rfl⟩ := Prod.mk.inj (Option.some.inj h4)
  -- with its block filled, the TSS gets a selector
  obtain ⟨s, k₅, h5, h⟩ := run_bind_eq_some.mp h
  obtain ⟨s', k₆, h6, h5⟩ := run_bind_eq_some.mp h5
  have hk₆ : schedPart k₆ = schedPart k₁ :=
    (keeps_gdtAllocSelector _ _ _ h6).trans rfl
  cases s' with
  | none =>
    obtain ⟨rfl, rfl⟩ := Prod.mk.inj (Option.some.inj h5)
    obtain ⟨_, _, _, h⟩ := run_bind_eq_some.mp h
    cases h
  | some sel' =>
    obtain ⟨_, k₇, h7, h5⟩ := run_bind_eq_some.mp h5
    obtain ⟨-, rfl⟩ := Prod.mk.inj (Option.some.inj h7)
    obtain ⟨rfl, rfl⟩ := Prod.mk.inj (Option.some.inj h5)
    obtain ⟨hs, rfl⟩ := Prod.mk.inj (Option.some.inj h)
    obtain rfl := Option.some.inj hs
    have hsched : k₆.sched = k.sched := congrArg Prod.fst (hk₆.trans hk₁)
    refine ⟨?_, rfl, gdtAllocSelector_range h6⟩
    change { k₆.sched with kernelTssSelector := sel' } = _
    rw [hsched]

/-- The running entry survives the removal of any process, and a removal that
is followed by a teardown is a removal for the scheduler. -/
theorem processDestroy_sched {k k' : Kernel} {p : ℕ} (H : SchedOk k.sched k.tr)
    (h : (processDestroy p).run k = some ((), k')) :
    SchedOk k'.sched k'.tr ∧ k'.tr = k.tr ∧ k'.sched.currentIndex = k.sched.currentIndex ∧
      (k.sched.currentIndex ≠ noIndex → k'.sched.taskTable k.sched.currentIndex = k.tr) := by
  unfold processDestroy at h
  split_ifs at h with hp
  · obtain ⟨-, rfl⟩ := Prod.mk.inj (Option.some.inj h)
    refine ⟨H, rfl, rfl, fun hne => ?_⟩
    rcases H.current with hc | ⟨-, hc, -⟩
    · exact absurd hc.1 hne
    · exact hc
  obtain ⟨eax, k₁, h1, h⟩ := run_bind_eq_some.mp h
  obtain ⟨-, rfl⟩ := Prod.mk.inj (Option.some.inj h1)
  obtain ⟨hok, hidx, hkeep, -⟩ := schedulerRemoveProcess_ok (p := p)
    H
  split_ifs at h
  · obtain ⟨-, rfl⟩ := Prod.mk.inj (Option.some.inj h)
    exact ⟨hok, rfl, hidx, hkeep⟩
  · have hpart := keeps_processTeardown p _ _ _ h
    obtain ⟨hs, ht⟩ := Prod.mk.inj hpart
    rw [hs, ht]
    exact ⟨hok, rfl, hidx, hkeep⟩

theorem schedulerReapTerminated_sched {k k' : Kernel} (H : SchedOk k.sched k.tr)
    (h : schedulerReapTerminated.run k = some ((), k')) :
    SchedOk k'.sched k'.tr ∧ k'.tr = k.tr ∧ k'.sched.currentIndex = k.sched.currentIndex ∧
      (k.sched.currentIndex ≠ noIndex → k'.sched.taskTable k.sched.currentIndex = k.tr) := by
  obtain ⟨_, _, h0, h⟩ := run_bind_eq_some.mp h
  obtain ⟨rfl, rfl⟩ := Prod.mk.inj (Option.some.inj h0)
  split_ifs at h with hr
  · obtain ⟨-, rfl⟩ := Prod.mk.inj (Option.some.inj h)
    refine ⟨H, rfl, rfl, fun hne => ?_⟩
    rcases H.current with hc | ⟨-, hc, -⟩
    · exact absurd hc.1 hne
    · exact hc
  · obtain ⟨_, k₁, h1, h⟩ := run_bind_eq_some.mp h
    obtain ⟨-, rfl⟩ := Prod.mk.inj (Option.some.inj h1)
    have H₁ : SchedOk { k.sched with reapProcess := 0 } k.tr :=
      ⟨H.count, H.inj, H.current, H.kernel⟩
    exact processDestroy_sched (k := { k with sched := { k.sched with reapProcess := 0 } }) H₁ h

theorem kSchedulerSwitchNext_sched {k k' : Kernel} {image : ℕ → ℕ}
    (h : (kSchedulerSwitchNext image).run k = some ((), k')) :
    k'.sched = (schedulerSwitchNext k.sched k.tr).1 ∧
      k'.tr = (schedulerSwitchNext k.sched k.tr).2 := by
  obtain ⟨-, rfl⟩ := Prod.mk.inj (Option.some.inj h)
  dsimp only
  split_ifs with htr
  · exact ⟨rfl, htr.symm⟩
  · exact ⟨rfl, rfl⟩

theorem terminateCurrent_sched {k k' : Kernel} {image : ℕ → ℕ} {switched : Bool}
    (H : SchedOk k.sched k.tr) (h : (terminateCurrent image).run k = some (switched, k')) :
    SchedOk k'.sched k'.tr := by
  have hg := Option.some.inj h
  dsimp only at hg
  split_ifs at hg with hesi
  · obtain ⟨-, rfl⟩ := Prod.mk.inj hg
    exact H
  · have hok := @exceptionTerminateSwitch_ok _ _
      (k.mem (descriptorBase (k.gdt (k.tr % 2 ^ 16 / 8))) tssOwnerProcess) H
    split at hg
    · rename_i hnone
      rw [hnone] at hok
      obtain ⟨-, rfl⟩ := Prod.mk.inj hg
      exact hok.1
    · rename_i sel hsome
      rw [hsome] at hok
      obtain ⟨-, rfl⟩ := Prod.mk.inj hg
      exact hok.1

/-- One call keeps the bookkeeping. -/
theorem schedStep_ok {c : SchedCall} {k k' : Kernel} (H : SchedOk k.sched k.tr)
    (h : SchedStep c k k') : SchedOk k'.sched k'.tr := by
  cases h with
  | add hnew h =>
    obtain ⟨_, _, h1, h⟩ := run_bind_eq_some.mp h
    obtain ⟨rfl, rfl⟩ := Prod.mk.inj (Option.some.inj h1)
    obtain ⟨-, rfl⟩ := Prod.mk.inj (Option.some.inj h)
    exact (schedulerAddProcess_ok H hnew).1
  | remove h =>
    obtain ⟨_, _, h1, h⟩ := run_bind_eq_some.mp h
    obtain ⟨rfl, rfl⟩ := Prod.mk.inj (Option.some.inj h1)
    obtain ⟨-, rfl⟩ := Prod.mk.inj (Option.some.inj h)
    exact (schedulerRemoveProcess_ok H).1
  | switch h =>
    obtain ⟨hs, ht⟩ := kSchedulerSwitchNext_sched h
    rw [hs, ht]
    exact schedulerSwitchNext_ok H
  | reap h => exact (schedulerReapTerminated_sched H h).1
  | fault h =>
    obtain ⟨_, k₁, h1, h⟩ := run_bind_eq_some.mp h
    exact terminateCurrent_sched (schedulerReapTerminated_sched H h1).1 h
  | other hs ht =>
    rw [hs, ht]
    exact H

/-- The bookkeeping holds in every state of a run. -/
theorem schedReach_ok {k : Kernel} (h : SchedReach k) : SchedOk k.sched k.tr := by
  induction h with
  | boot hs h =>
    obtain ⟨hk, ht, hsel⟩ := createKernelTss_sched h
    rw [hk, ht, hs]
    exact schedOk_init hsel
  | step _ h ih => exact schedStep_ok ih h

/-- The entry of the running task is there after the call; a fault of that
task keeps it through the reaping with which it begins. -/
def KeepsRunning (k k' : Kernel) : SchedCall → Prop
  | .fault image => ∃ k₁ switched, schedulerReapTerminated.run k = some ((), k₁) ∧
      (terminateCurrent image).run k₁ = some (switched, k') ∧
      k₁.sched.currentIndex = k.sched.currentIndex ∧
      k₁.sched.taskTable k.sched.currentIndex = k.sched.taskTable k.sched.currentIndex
  | _ => k'.sched.taskTable k.sched.currentIndex = k.sched.taskTable k.sched.currentIndex

/-- No call but the fault of the running task touches its entry. -/
theorem schedStep_keeps_running {c : SchedCall} {k k' : Kernel} (H : SchedOk k.sched k.tr)
    (hne : k.sched.currentIndex ≠ noIndex) (h : SchedStep c k k') :
    KeepsRunning k k' c := by
  have hcur : k.sched.taskTable k.sched.currentIndex = k.tr ∧ k.tr ≠ 0 := by
    rcases H.current with hc | ⟨-, hc, hnz⟩
    · exact absurd hc.1 hne
    · exact ⟨hc, hnz⟩
  cases h with
  | add hnew h =>
    obtain ⟨_, _, h1, h⟩ := run_bind_eq_some.mp h
    obtain ⟨rfl, rfl⟩ := Prod.mk.inj (Option.some.inj h1)
    obtain ⟨-, rfl⟩ := Prod.mk.inj (Option.some.inj h)
    exact (schedulerAddProcess_ok H hnew).2.2 _ (by rw [hcur.1]; exact hcur.2)
  | remove h =>
    obtain ⟨_, _, h1, h⟩ := run_bind_eq_some.mp h
    obtain ⟨rfl, rfl⟩ := Prod.mk.inj (Option.some.inj h1)
    obtain ⟨-, rfl⟩ := Prod.mk.inj (Option.some.inj h)
    exact ((schedulerRemoveProcess_ok H).2.2.1 hne).trans hcur.1.symm
  | switch h =>
    obtain ⟨hs, -⟩ := kSchedulerSwitchNext_sched h
    change k'.sched.taskTable _ = _
    rw [hs, (schedulerSwitchNext_table _ _).1]
  | reap h => exact ((schedulerReapTerminated_sched H h).2.2.2 hne).trans hcur.1.symm
  | fault h =>
    -- the fault reaps the last terminated process first
    obtain ⟨_, k₁, h1, h⟩ := run_bind_eq_some.mp h
    obtain ⟨-, -, hidx, hkeep⟩ := schedulerReapTerminated_sched H h1
    exact ⟨k₁, _, h1, h, hidx, (hkeep hne).trans hcur.1.symm⟩
  | other hs ht =>
    change k'.sched.taskTable _ = _
    rw [hs]

/-- **Scheduler bookkeeping.** In every state of a run the task count is the
number of nonzero entries, the current index names the running task,
`scheduler_remove_process` refuses exactly the running task and the null
object, and nothing but its own fault clears the entry of the running task. -/
theorem schedReach_bookkeeping {k : Kernel} (h : SchedReach k) :
    k.sched.taskCount = ((List.range 100).filter fun i => k.sched.taskTable i ≠ 0).length ∧
    (k.sched.currentIndex = noIndex ∧ k.tr = k.sched.kernelTssSelector ∨
      k.sched.currentIndex < 100 ∧ k.sched.taskTable k.sched.currentIndex ≠ 0 ∧
        k.sched.taskTable k.sched.currentIndex = k.tr) ∧
    (∀ p, ∃ eax k', (kSchedulerRemoveProcess p).run k = some (eax, k') ∧
      (eax = 0 ↔ p = 0 ∨ RunningTask k p)) ∧
    (∀ c k', SchedStep c k k' → k.sched.currentIndex ≠ noIndex →
      KeepsRunning k k' c) := by
  have H := schedReach_ok h
  refine ⟨H.count, ?_, fun p => ?_, fun c k' hstep hne => schedStep_keeps_running H hne hstep⟩
  · rcases H.current with hc | ⟨h1, h2, h3⟩
    · exact Or.inl hc
    · exact Or.inr ⟨h1, by rw [h2]; exact h3, h2⟩
  · exact ⟨_, _, rfl, (schedulerRemoveProcess_ok H).2.2.2⟩

/-- A kernel with the first heap page and everything else as the allocators'
initialisers leave it. -/
def firstKernel : Kernel where
  ram := ⟨fun _ => true, 0, fun _ _ => 0, pageTablePoolBase, 0⟩
  heap := firstPage
  mem := fun _ _ => 0
  gdtBitmap := fun i => decide (i < gdtFirstDynamic)
  gdt := initGdt
  slotBitmap := fun _ => false
  processTable := fun _ => 0
  processActiveCount := 0
  sched := schedulerInit
  kernelTssBase := 0
  kernelTssSelector := 0
  drivers := ⟨0, 0, 0, 0, 0, 0, 0, 0, 0, 0, 0, fun _ => 0⟩
  gateway := ⟨fun _ => 0, 0, 0, 0, 0, 0⟩
  tsc := fun _ => 0
  tr := 0

/-- `create_kernel_tss` on the first page takes the selector `48h`. -/
theorem firstKernel_boots :
    ∃ k', (createKernelTss pageDirBase 0).run firstKernel = some (some 0x48, k') := by
  obtain ⟨n, hn⟩ : ∃ n, walkFuel = n + 1 := ⟨2 ^ 32 - 1, rfl⟩
  have halloc : heapAlloc heapCommit tss32Size firstPage firstKernel.ram =
      some (kheapBase + 16, { firstPage with hdr := heapTakeBlock firstPage.hdr kheapBase 0x68 },
        firstKernel.ram) := by
    simp [heapAlloc, heapRound, hn, heapAllocRetry, heapAllocScan, firstPage, heapPageHeader, add32,
      kheapBase, kheapMaxSize, pageSize, heapHdrSize, tss32Size]
  have hrun : (kHeapAlloc tss32Size).run firstKernel = some (kheapBase + 16, { firstKernel with
      heap := { firstPage with hdr := heapTakeBlock firstPage.hdr kheapBase 0x68 } }) :=
    kHeapAlloc_run halloc
  exact ⟨_, run_bind_eq_some.mpr ⟨_, _, hrun, rfl⟩⟩

/-- Three process objects at 1, 2 and 3 with the task selectors `50h`, `58h` and `60h`; the
task of the process `p` is at `1000h * (p + 4)` and names its owner. -/
def threeTasks (s : Sched) (tr : ℕ) : Kernel :=
  { firstKernel with
    mem := fun a o =>
      if 1 ≤ a ∧ a ≤ 3 ∧ o = procTssSelector then 0x48 + 8 * a
      else if o = tssOwnerProcess then a / 0x1000 - 4 else 0
    gdt := fun i => buildSystemDescriptor (0x1000 * (i - 5)) 0x67 0x89
    sched := s
    tr := tr }

/-- The scheduler words after `create_kernel_tss` and, below, after each call of the run. -/
def bootWords : Sched := { schedulerInit with kernelTssSelector := 0x48 }
def oneAdded : Sched := (schedulerAddProcess 1 0x50 bootWords).2
def twoAdded : Sched := (schedulerAddProcess 2 0x58 oneAdded).2
def threeAdded : Sched := (schedulerAddProcess 3 0x60 twoAdded).2
def secondRemoved : Sched := (schedulerRemoveProcess 2 0x58 threeAdded).2

theorem threeTasks_reached : SchedReach (threeTasks bootWords 0x48) := by
  obtain ⟨k', h⟩ := firstKernel_boots
  obtain ⟨hs, ht, -⟩ := createKernelTss_sched h
  exact .step (.boot rfl h) (.other hs.symm ht.symm)

/-- The first process runs and faults; the third one is next. -/
theorem threeTasks_fault : ∃ k k' : Kernel,
    SchedStep (.switch fun _ => 0) (threeTasks secondRemoved 0x48) k ∧
    SchedStep (.fault fun _ => 0) k k' ∧
    (k.sched.taskCount = 2 ∧ k.sched.currentIndex = 0 ∧ RunningTask k 1) ∧
    k'.sched.taskCount = 1 ∧ k'.sched.currentIndex = 2 ∧ RunningTask k' 3 := by
  refine ⟨_, _, .switch rfl, .fault rfl, ⟨?_, ?_, ?_, ?_⟩, ?_, ?_, ?_, ?_⟩
  all_goals decide +kernel

/-- Three processes are added, the second is removed, the first runs, faults and leaves the
processor to the third. -/
theorem schedReach_bookkeeping_fault : ∃ k k' : Kernel,
    SchedStep (.add 1) (threeTasks bootWords 0x48) (threeTasks oneAdded 0x48) ∧
    SchedStep (.add 2) (threeTasks oneAdded 0x48) (threeTasks twoAdded 0x48) ∧
    SchedStep (.add 3) (threeTasks twoAdded 0x48) (threeTasks threeAdded 0x48) ∧
    SchedStep (.remove 2) (threeTasks threeAdded 0x48) (threeTasks secondRemoved 0x48) ∧
    SchedStep (.switch fun _ => 0) (threeTasks secondRemoved 0x48) k ∧
    SchedStep (.fault fun _ => 0) k k' ∧
    RunningTask k 1 ∧ (∃ k'', (kSchedulerRemoveProcess 1).run k = some (0, k'')) ∧
    KeepsRunning k k' (.fault fun _ => 0) ∧
    RunningTask k' 3 ∧ k'.sched.taskCount = 1 ∧
    ((List.range 100).filter fun i => k'.sched.taskTable i ≠ 0).length = 1 := by
  have h₁ : SchedStep (.add 1) (threeTasks bootWords 0x48) (threeTasks oneAdded 0x48) :=
    .add (by unfold NotScheduled; decide +kernel) rfl
  have h₂ : SchedStep (.add 2) (threeTasks oneAdded 0x48) (threeTasks twoAdded 0x48) :=
    .add (by unfold NotScheduled; decide +kernel) rfl
  have h₃ : SchedStep (.add 3) (threeTasks twoAdded 0x48) (threeTasks threeAdded 0x48) :=
    .add (by unfold NotScheduled; decide +kernel) rfl
  have h₄ : SchedStep (.remove 2) (threeTasks threeAdded 0x48) (threeTasks secondRemoved 0x48) :=
    .remove rfl
  obtain ⟨k, k', h₅, h₆, ⟨-, hcur, hrunning⟩, hcount, -, hrunning'⟩ := threeTasks_fault
  have hr := ((((threeTasks_reached.step h₁).step h₂).step h₃).step h₄).step h₅
  obtain ⟨-, -, hremove, hkeep⟩ := schedReach_bookkeeping hr
  obtain ⟨eax, k'', hrun, heax⟩ := hremove 1
  obtain rfl : eax = 0 := heax.mpr (Or.inr hrunning)
  have hcount' := (schedReach_bookkeeping (hr.step h₆)).1
  exact ⟨k, k', h₁, h₂, h₃, h₄, h₅, h₆, hrunning, ⟨k'', hrun⟩,
    hkeep _ _ h₆ (by rw [hcur]; decide), hrunning', hcount, hcount'.symm.trans hcount⟩

end VirtualKernel
