/-
`process_create` is all or nothing, and `process_destroy` undoes it.

`SameResources k k'` compares two states table by table: the live allocations
of the kernel heap, the pages of the page-table pool, the physical pages, the
descriptors, the slots, the process table and the scheduler.  Two states whose
accounts hold the same items, the second framing the items of the first, agree
in all of them (`Holds.sameResources`).

`create_all_or_nothing` applies this to a creation that fails at any step and
to a creation that is undone by `process_destroy`, from every state of every
run.
-/
import VirtualKernel.BootSpec
import VirtualKernel.CallFrames
import VirtualKernel.HeapRequests

namespace VirtualKernel

open Lib

/-! ### What the tables of the kernel say -/

/-- The payload pointer `p` is a live allocation of the heap. -/
def Heap.Live (h : Heap) (p : ℕ) : Prop :=
  ∃ a, h.OnList a ∧ (h.hdr a).flag = heapFlagUsed ∧ p = a + heapHdrSize

/-- The page `a` of the page-table pool has been handed out and is not on the
free list. -/
def Ram.PoolUsed (r : Ram) (a : ℕ) : Prop :=
  InPool pageSize pageTablePoolBase r.pageTableNext a ∧
    ¬Listed (fun a => r.frame a 0) r.pageTableFreeList a

/-- The physical page `n` backs the kernel heap. -/
def Ram.BacksHeap (r : Ram) (n : ℕ) : Prop := ∃ j, heapAt r j = some n

/-- The same resources are in use, but for pages that now back the heap. -/
structure SameResources (k k' : Kernel) : Prop where
  heap : ∀ p, k'.heap.Live p ↔ k.heap.Live p
  pool : ∀ a, k'.ram.PoolUsed a ↔ k.ram.PoolUsed a
  pages : ∀ n, k'.ram.used n = true ∧ ¬(k'.ram.BacksHeap n ∧ ¬k.ram.BacksHeap n) ↔
    k.ram.used n = true
  gdtBitmap : ∀ i < gdtEntryCount, k'.gdtBitmap i = k.gdtBitmap i
  gdt : ∀ i, k'.gdt i = k.gdt i
  slotBitmap : ∀ i < processMaxCount, k'.slotBitmap i = k.slotBitmap i
  processTable : ∀ i < processMaxCount, k'.processTable i = k.processTable i
  processCount : k'.processActiveCount = k.processActiveCount
  taskTable : ∀ i < maxTasks, k'.sched.taskTable i = k.sched.taskTable i
  taskCount : k'.sched.taskCount = k.sched.taskCount

/-! ### The tables and the account -/

section Account

variable {k k' : Kernel} {O : ℕ → Prop} {T : Items}

/-- The live allocations are the blocks of the account. -/
theorem Holds.heap_live (H : Holds k O T) (p : ℕ) : k.heap.Live p ↔ Item.block p ∈ T := by
  obtain ⟨bs, hrep, hb⟩ := H.heap
  rw [hb]
  constructor
  · rintro ⟨a, hlist, hflag, rfl⟩
    obtain ⟨b, hbs, rfl⟩ := hrep.onList_iff.mp hlist
    exact ⟨b, hbs, (hrep.header hbs).2.2.mp hflag, rfl⟩
  · rintro ⟨b, hbs, hused, rfl⟩
    exact ⟨b.addr, hrep.onList_iff.mpr ⟨b, hbs, rfl⟩, (hrep.header hbs).2.2.mpr hused, rfl⟩

/-- The pages of the pool in use are the directories and tables in use. -/
theorem Holds.pool_used (H : Holds k O T) (a : ℕ) :
    k.ram.PoolUsed a ↔ ∃ x, NodeAt k.ram (dirsOf T) x a := by
  have hpool := H.ram.tables.pool
  obtain ⟨l, hchain, hl⟩ := hpool.list
  rw [Ram.PoolUsed, hchain.listed_iff, hl]
  constructor
  · rintro ⟨hin, hn⟩
    by_contra hnode
    exact hn ⟨hin, hnode⟩
  · intro hnode
    exact ⟨hpool.inUse a hnode, fun h => h.2 hnode⟩

/-- A used page has one of the three reasons. -/
theorem Holds.page_used (H : Holds k O T) (n : ℕ) :
    k.ram.used n = true ↔ O n ∨ k.ram.BacksHeap n ∨
      ∃ d i j, dirsOf T d ∧ ownedAt k.ram d i j = some n := by
  refine (H.ram.pages.ledger.exact n).trans ⟨?_, ?_⟩
  · rintro ⟨x, hx⟩
    cases x with
    | other => exact Or.inl hx
    | pending => exact absurd hx (by simp [PageAt])
    | pte d i j => exact Or.inr (Or.inr ⟨d, i, j, hx⟩)
    | heap j => exact Or.inr (Or.inl ⟨j, hx⟩)
  · rintro (h | ⟨j, h⟩ | ⟨d, i, j, h⟩)
    · exact ⟨.other, h⟩
    · exact ⟨.heap j, h⟩
    · exact ⟨.pte d i j, h⟩

/-- A page that backs the heap is used for nothing else. -/
theorem Holds.backsHeap_only (H : Holds k O T) {n : ℕ} (h : k.ram.BacksHeap n) :
    ¬O n ∧ ∀ d i j, dirsOf T d → ownedAt k.ram d i j ≠ some n := by
  obtain ⟨j, hj⟩ := h
  have hheap : PageAt (ownedAt k.ram) (heapAt k.ram) O (dirsOf T) none (.heap j) n := hj
  refine ⟨fun hO => ?_, fun d i j' hd hown => ?_⟩
  · cases H.ram.pages.ledger.inj hheap (show PageAt _ _ _ _ _ .other n from hO)
  · cases H.ram.pages.ledger.inj hheap (show PageAt _ _ _ _ _ (.pte d i j') n from ⟨hd, hown⟩)

/-- The process table is given by the entries of the account. -/
theorem Holds.processTable_eq (H : Holds k O T) (H' : Holds k' O T) :
    ∀ i < processMaxCount, k'.processTable i = k.processTable i := by
  intro i hi
  by_cases hz : k.processTable i = 0
  · by_contra hne
    rw [hz] at hne
    exact hne (((H.entry.entry i hi _ hne).mpr ((H'.entry.entry i hi _ hne).mp rfl)).symm.trans hz)
  · exact (H'.entry.entry i hi _ hz).mpr ((H.entry.entry i hi _ hz).mp rfl)

/-- The task table is the same when its tasks are framed. -/
theorem Holds.taskTable_eq (H : Holds k O T) (F : Frame T k k') (H' : Holds k' O T) :
    ∀ i < maxTasks, k'.sched.taskTable i = k.sched.taskTable i := by
  intro i hi
  have H₀ : Holds k O (T + 0) := by rwa [add_zero]
  exact Inv.task_eq_of_frame F H₀ H' (fun v => Multiset.notMem_zero _) hi

/-- **Two states with the same account** in which the items look the same have
the same resources in use. -/
theorem Holds.sameResources (H : Holds k O T) (F : Frame T k k') (H' : Holds k' O T) :
    SameResources k k' where
  heap := fun p => (H'.heap_live p).trans (H.heap_live p).symm
  pool := by
    intro a
    rw [H'.pool_used, H.pool_used]
    exact exists_congr fun x => nodeAt_congr F.ram.kernel F.ram.dir x a
  pages := by
    intro n
    have hown : (∃ d i j, dirsOf T d ∧ ownedAt k'.ram d i j = some n) ↔
        ∃ d i j, dirsOf T d ∧ ownedAt k.ram d i j = some n :=
      exists_congr fun d => exists_congr fun i => exists_congr fun j =>
        and_congr_right fun hd => by rw [F.ram.ownedAt_eq hd]
    have hheap : k.ram.BacksHeap n → k'.ram.BacksHeap n := fun ⟨j, hj⟩ => ⟨j, F.ram.heap j n hj⟩
    rw [H'.page_used, H.page_used, hown]
    constructor
    · rintro ⟨h | h | h, hnew⟩
      · exact Or.inl h
      · -- the page backed the heap before, or it has been added
        exact Or.inr (Or.inl (not_not.mp fun hold => hnew ⟨h, hold⟩))
      · exact Or.inr (Or.inr h)
    · intro h
      refine ⟨h.imp_right (Or.imp_left hheap), ?_⟩
      rintro ⟨hback, hnot⟩
      obtain ⟨hO, hnone⟩ := H'.backsHeap_only hback
      rcases h with h | h | ⟨d, i, j, hd, h⟩
      · exact hO h
      · exact hnot h
      · exact hnone d i j hd (by rw [F.ram.ownedAt_eq hd]; exact h)
  gdtBitmap := fun i hi =>
    Bool.eq_iff_iff.mpr ((H'.gdt.bit i hi).trans (H.gdt.bit i hi).symm)
  gdt := by
    intro i
    by_cases hi : i < gdtFirstDynamic ∨ Item.gdt i ∈ T
    · exact F.gdt i hi
    · obtain ⟨hge, hnot⟩ := not_or.mp hi
      rw [H'.gdt.free i (Nat.le_of_not_lt hge) hnot, H.gdt.free i (Nat.le_of_not_lt hge) hnot]
  slotBitmap := fun i hi =>
    Bool.eq_iff_iff.mpr ((H'.slot.bit i hi).trans (H.slot.bit i hi).symm)
  processTable := H.processTable_eq H'
  processCount := by
    rw [H'.entry.count, H.entry.count]
    refine congrArg List.length (List.filter_congr fun i hi => ?_)
    have heq := H.processTable_eq H' i (List.mem_range.mp hi)
    rw [heq]
  taskTable := H.taskTable_eq F H'
  taskCount := by
    rw [H'.sched.count, H.sched.count]
    refine congrArg List.length (List.filter_congr fun i hi => ?_)
    have heq := H.taskTable_eq F H' i (List.mem_range.mp hi)
    rw [heq]

end Account

/-! ### Creating and destroying -/

/-- A process that has just been created is not the running task. -/
theorem Inv.new_not_running {w : World} {O : ℕ → Prop} {B : Items} {P : Multiset ℕ}
    (H : Inv w O B P) {T : Items} {k' : Kernel} {p : ℕ} (F : Frame T w.k k')
    (hB : ∀ x ∈ B + P.bind (liveItems w.k), x ∈ T)
    (hnd : (T + queuedItems p (k'.mem p)).Nodup) (hC : Complete k' p) :
    k'.tr ≠ k'.mem p procTssSelector := by
  intro htr
  have hdis := (Multiset.nodup_add.mp hnd).2.2
  have hnew : Item.gdt (k'.mem p procTssSelector / 8) ∈ queuedItems p (k'.mem p) :=
    Multiset.mem_add.mpr (Or.inl (gdt_mem_procItems hC.sel))
  -- the descriptor of the running task was held before
  have hold : Item.gdt (k'.tr / 8) ∈ T := by
    rw [F.tr]
    refine hB _ ?_
    rcases H.running with hk | ⟨q, hq, -, hsel⟩
    · rw [hk]
      exact Multiset.mem_add.mpr (Or.inl H.task.desc)
    · rw [hsel]
      exact Multiset.mem_add.mpr (Or.inr (Multiset.mem_bind.mpr ⟨q, hq,
        procItems_subset_liveItems (gdt_mem_procItems (H.complete q hq).sel)⟩))
  rw [htr] at hold
  exact Multiset.disjoint_left.mp hdis hold hnew

/-- **Creation is all or nothing, and destruction undoes it.**  After boot and
any calls and interrupts, `process_create` of either type either fails and
leaves every resource as it was, whichever step failed, or returns a process
that is not running and whose `process_destroy` brings every resource back. -/
theorem create_all_or_nothing {w₀ w : World} (h₀ : Booted w₀) (h : Reach Careful w₀ w)
    (type : ℕ) :
    Runs (processCreate type) w.k fun p k' =>
      (p = 0 → SameResources w.k k') ∧
      (p ≠ 0 → ¬RunningTask k' p ∧
        Runs (processDestroy p) k' fun _ k'' => SameResources w.k k'') := by
  obtain ⟨O, B, P, H⟩ := reach_inv h₀ h
  refine (processCreate_spec H.holds H.tasksOwned type).mono ?_
  rintro p k' ⟨F, ⟨rfl, H'⟩ | ⟨hp, H', hC⟩⟩
  · exact ⟨fun _ => H.holds.sameResources F H', fun h => absurd rfl h⟩
  have htr := H.new_not_running F (fun x => Inv.mem_base_or) H'.nodup hC
  refine ⟨fun h => absurd h hp, fun _ => ⟨fun hrun => ?_, ?_⟩⟩
  · have hsel := hrun.2
    rw [Nat.mod_eq_of_lt hC.sel_lt] at hsel
    exact htr hsel.symm
  · rw [queuedItems, ← add_assoc] at H'
    refine (processDestroy_spec H' hC.plain hC.sel_lt (Or.inl ⟨rfl, htr⟩)).mono ?_
    rintro - k'' ⟨F', H''⟩
    exact H.holds.sameResources (F.trans F') H''

theorem create_all_or_nothing_boot : ∃ w, Booted w ∧
    Runs (processCreate processTypeProtected32) w.k fun p k' =>
      (p = 0 → SameResources w.k k') ∧
      (p ≠ 0 → ¬RunningTask k' p ∧
        Runs (processDestroy p) k' fun _ k'' => SameResources w.k k'') := by
  obtain ⟨w, hw⟩ := exists_booted
  exact ⟨w, hw, create_all_or_nothing hw .refl _⟩

end VirtualKernel
