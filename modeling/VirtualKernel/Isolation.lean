/-
What the invariant of the system says about processes side by side.

No physical page belongs to two processes (`owned_pages_isolated`), no slot,
selector, directory, table or driver stack does (`resources_unique`), and the
kernel half is the same in every address space (`kernel_half_shared`).  All
three hold along whole runs after boot; the runs of the first and the third
consist of the calls in `MemoryCall`, in which no task is switched, and the
runs of the second of every call and interrupt.
-/
import VirtualKernel.PrepareTask

namespace VirtualKernel

open Lib

/-! ### Runs without interrupts -/

/-- The calls about processes and memory. -/
def MemoryCall : Op → Prop
  | .create _ => True
  | .destroy _ => True
  | .prepare _ _ _ _ => True
  | .heapGrow _ => True
  | .heapAlloc _ => True
  | .heapFree _ => True
  | .storageMap _ => True
  | _ => False

theorem MemoryCall.isCall {op : Op} (h : MemoryCall op) : op.IsCall := by
  cases op <;> trivial

theorem Op.IsLoading.memoryCall {op : Op} (h : op.IsLoading) : MemoryCall op := by
  cases op <;> trivial

/-- Nobody awaits reaping in a run without faults, so that every process that
may be destroyed is one that `Careful` lets go. -/
theorem reach_memory {w₀ w : World} (h₀ : Booted w₀)
    (h : Reach (fun _ op => MemoryCall op) w₀ w) : ∃ O B P, Inv w O B P := by
  have key : (∃ O B P, Inv w O B P) ∧ w.k.sched.reapProcess = 0 := by
    obtain ⟨O, B, H⟩ := booted_inv h₀
    refine h.invariant
      (I := fun w => (∃ O B P, Inv w O B P) ∧ w.k.sched.reapProcess = 0) ⟨⟨O, B, 0, H⟩, ?_⟩ ?_
    · exact H.reap.resolve_right (Multiset.notMem_zero _)
    · rintro w w' op ⟨⟨O, B, P, H⟩, hz⟩ ha hm he
      have hc : Careful w op := by
        rintro p rfl hp
        exact ha.1.1 (hp.trans hz)
      obtain ⟨O', P', H'⟩ := H.step ha hc he
      exact ⟨⟨O', B, P', H'⟩, (H.steady ha hc hm.isCall he).reap.trans hz⟩
  exact key.1

/-! ### Physical pages -/

/-- A page of a process is used, allocatable, no page of the heap, and stands
in one entry only. -/
theorem Inv.owned_page {w : World} {O : ℕ → Prop} {B : Items} {P : Multiset ℕ} (H : Inv w O B P)
    {d i j n : ℕ} (hd : LiveDir w.k d) (hn : ownedAt w.k.ram d i j = some n) :
    w.k.ram.used n = true ∧ Allocatable n ∧ (∀ j', heapAt w.k.ram j' ≠ some n) ∧
      ∀ d' i' j', LiveDir w.k d' → ownedAt w.k.ram d' i' j' = some n →
        d' = d ∧ i' = i ∧ j' = j := by
  have hpages := H.holds.ram.pages
  have hat : PageAt (ownedAt w.k.ram) (heapAt w.k.ram) O (dirsOf _) none (.pte d i j) n :=
    ⟨H.liveDir hd, hn⟩
  refine ⟨(hpages.ledger.exact n).mpr ⟨_, hat⟩, hpages.ok _ n hat (by simp), ?_, ?_⟩
  · intro j' hj'
    cases hpages.ledger.inj hat (show PageAt _ _ _ _ _ (.heap j') n from hj')
  · intro d' i' j' hd' hn'
    exact PageOwner.pte.inj
      (hpages.ledger.inj (c := .pte d' i' j') ⟨H.liveDir hd', hn'⟩ hat)

/-- **Physical pages are isolated.**  After boot and any calls, a page that a
`PAGE_OWNED` entry of a live directory maps is marked used, lies in main RAM
outside the reserved ranges, does not back the kernel heap and stands in no
other such entry; so `pmm_alloc_page` does not return it. -/
theorem owned_pages_isolated {w₀ w : World} (h₀ : Booted w₀)
    (h : Reach (fun _ op => MemoryCall op) w₀ w) :
    (∀ d i j n, LiveDir w.k d → ownedAt w.k.ram d i j = some n →
      w.k.ram.used n = true ∧ Allocatable n ∧ (∀ j', heapAt w.k.ram j' ≠ some n) ∧
      ∀ d' i' j', LiveDir w.k d' → ownedAt w.k.ram d' i' j' = some n →
        d' = d ∧ i' = i ∧ j' = j) ∧
    ∀ phys r', pmmAllocPage w.k.ram = (phys, r') → phys ≠ 0 →
      ∀ d i j, LiveDir w.k d → ownedAt w.k.ram d i j ≠ some (phys / pageSize) := by
  obtain ⟨O, B, P, H⟩ := reach_memory h₀ h
  refine ⟨fun d i j n hd hn => H.owned_page hd hn, ?_⟩
  intro phys r' halloc hne d i j hd hown
  rcases pmmAllocPage_spec H.holds.ram with ⟨hnone, -⟩ | ⟨n, r₁, hsome, -, hfree, -⟩
  · rw [hnone] at halloc
    exact hne (Prod.mk.inj halloc).1.symm
  · rw [hsome] at halloc
    rw [← (Prod.mk.inj halloc).1, Nat.mul_div_cancel n (by decide)] at hown
    rw [(H.owned_page hd hown).1] at hfree
    exact Bool.noConfusion hfree

/-- Two processes, of which one is loaded. -/
theorem owned_pages_isolated_loaded : ∃ w₀ w p q n, Booted w₀ ∧
    Reach (fun _ op => MemoryCall op) w₀ w ∧ Live w.k p ∧ Live w.k q ∧ p ≠ q ∧
    ownedAt w.k.ram (w.k.mem p procPageDir) (codePage 1 / 2 ^ 22)
      (codePage 1 / 2 ^ 12 % 2 ^ 10) = some n ∧
    (∀ d i j n, LiveDir w.k d → ownedAt w.k.ram d i j = some n →
      w.k.ram.used n = true ∧ Allocatable n ∧ (∀ j', heapAt w.k.ram j' ≠ some n) ∧
      ∀ d' i' j', LiveDir w.k d' → ownedAt w.k.ram d' i' j' = some n →
        d' = d ∧ i' = i ∧ j' = j) ∧
    ∀ phys r', pmmAllocPage w.k.ram = (phys, r') → phys ≠ 0 →
      ∀ d i j, LiveDir w.k d → ownedAt w.k.ram d i j ≠ some (phys / pageSize) := by
  obtain ⟨w₀, w, p, q, h₀, h, hp, hq, hne, ⟨n, hn⟩, -⟩ := exists_neighbours
  have h' : Reach (fun _ op => MemoryCall op) w₀ w := h.mono fun _ _ hop => hop.memoryCall
  exact ⟨w₀, w, p, q, n, h₀, h', hp, hq, hne, hn, owned_pages_isolated h₀ h'⟩

/-! ### The kernel half -/

/-- The kernel half of a live directory is a copy of the kernel's. -/
theorem Inv.kernel_entry {w : World} {O : ℕ → Prop} {B : Items} {P : Multiset ℕ}
    (H : Inv w O B P) {d i : ℕ} (hd : LiveDir w.k d) (h1 : 512 ≤ i) (h2 : i < 1024) :
    w.k.ram.frame d i = w.k.ram.frame pageDirBase i := by
  have hcopy : w.k.ram.frame d i = kernelCopy w.k.ram i := by
    rcases H.holds.ram.tables.dir_pde d (H.liveDir hd) i h2 with h | ⟨-, h⟩
    · exact h
    · rw [tableOf, if_neg (by omega)] at h
      cases h
  rw [hcopy, kernelCopy]
  rcases H.holds.ram.tables.kernel_pde i h2 with hz | ⟨hp, hu⟩
  · rw [hz]
    exact ite_self 0
  · exact if_pos ⟨by omega, hp, hu⟩

/-- **The kernel half is the same in every address space**: after boot and any
calls, every live directory translates the linear addresses from `80000000h`
on as the kernel's directory does. -/
theorem kernel_half_shared {w₀ w : World} (h₀ : Booted w₀)
    (h : Reach (fun _ op => MemoryCall op) w₀ w) :
    ∀ pd v, LiveDir w.k pd → 0x80000000 ≤ v → v < 2 ^ 32 →
      getPhysicalAddress pd v w.k.ram = getPhysicalAddress pageDirBase v w.k.ram := by
  obtain ⟨O, B, P, H⟩ := reach_memory h₀ h
  intro pd v hpd h1 h2
  have hpd0 : pd ≠ 0 := by
    obtain ⟨p, hp, rfl⟩ := hpd
    exact (H.complete p (H.live_iff.mp hp)).dir
  have hi : w.k.ram.frame pd (v / 2 ^ 22) = w.k.ram.frame pageDirBase (v / 2 ^ 22) :=
    H.kernel_entry hpd (by omega) (by omega)
  simp only [getPhysicalAddress, hi, hpd0, show pageDirBase ≠ 0 by decide, false_or]

/-- Two processes with directories of their own. -/
theorem kernel_half_shared_loaded : ∃ w₀ w p q, Booted w₀ ∧
    Reach (fun _ op => MemoryCall op) w₀ w ∧ Live w.k p ∧ Live w.k q ∧ p ≠ q ∧
    ∀ pd v, LiveDir w.k pd → 0x80000000 ≤ v → v < 2 ^ 32 →
      getPhysicalAddress pd v w.k.ram = getPhysicalAddress pageDirBase v w.k.ram := by
  obtain ⟨w₀, w, p, q, h₀, h, hp, hq, hne, -⟩ := exists_neighbours
  have h' : Reach (fun _ op => MemoryCall op) w₀ w := h.mono fun _ _ hop => hop.memoryCall
  exact ⟨w₀, w, p, q, h₀, h', hp, hq, hne, kernel_half_shared h₀ h'⟩

/-! ### Resources of processes -/

/-- A page of the pool that a live process or the kernel uses as directory or
table. -/
def TableInUse (k : Kernel) (a : ℕ) : Prop :=
  (∃ p, Live k p ∧ (a = k.mem p procPageDir ∨ ∃ i, tableOf k.ram (k.mem p procPageDir) i = some a)) ∨
    ∃ i, ktableOf k.ram i = some a

/-- The selector `s` of the GDT belongs to the process `p`. -/
def Selects (k : Kernel) (p s : ℕ) : Prop :=
  s ≠ 0 ∧ (s = k.mem p procTssSelector ∨ s = k.mem p procLdtSelector)

/-- The stacks that the drivers keep for a slot. -/
def driverStacks (slot : ℕ) : List ℕ := [keyboardStack slot, graphicsStack slot, azaliaStack slot]

/-- What no two processes share, what is never handed out, and the free list.
`k₀` is the kernel after boot.  VM86 processes have no slot and no LDT. -/
structure ResourcesUnique (k₀ k : Kernel) : Prop where
  slot : ∀ p q, Live k p → Live k q → k.mem p procSlotIndex ≠ noIndex →
    k.mem p procSlotIndex = k.mem q procSlotIndex → p = q
  selector : ∀ p q s, Live k p → Live k q → Selects k p s → Selects k q s → p = q
  dir : ∀ p q, Live k p → Live k q → k.mem p procPageDir = k.mem q procPageDir → p = q
  table : ∀ p q i j t, Live k p → Live k q → tableOf k.ram (k.mem p procPageDir) i = some t →
    tableOf k.ram (k.mem q procPageDir) j = some t → p = q
  stack : ∀ p q, Live k p → Live k q → p ≠ q → k.mem p procSlotIndex ≠ noIndex →
    k.mem q procSlotIndex ≠ noIndex → ∀ a ∈ driverStacks (k.mem p procSlotIndex),
      ∀ b ∈ driverStacks (k.mem q procSlotIndex), a + 0x2000 ≤ b ∨ b + 0x2000 ≤ a
  fixed : ∀ i ≤ 8, k.gdtBitmap i = true ∧ k.gdt i = k₀.gdt i ∧
    ∀ p s, Live k p → Selects k p s → s / 8 ≠ i
  freeList : ∃ l, Chain (fun a => k.ram.frame a 0) k.ram.pageTableFreeList l ∧ l.Nodup ∧
    ∀ a ∈ l, pageTablePoolBase ≤ a ∧ a < k.ram.pageTableNext ∧ ¬TableInUse k a
  alloc : ∀ t r', allocPageTable k.ram = (some t, r') → ¬TableInUse k t

theorem driverStacks_disjoint {s t : ℕ} (hs : s < processMaxCount) (ht : t < processMaxCount)
    (hst : s ≠ t) : ∀ a ∈ driverStacks s, ∀ b ∈ driverStacks t, a + 0x2000 ≤ b ∨ b + 0x2000 ≤ a := by
  simp only [processMaxCount] at hs ht
  simp only [driverStacks, keyboardStack, graphicsStack, azaliaStack, List.mem_cons,
    List.not_mem_nil, or_false]
  rintro a (rfl | rfl | rfl) b (rfl | rfl | rfl) <;> omega

theorem Selects.mem {k : Kernel} {p s : ℕ} (hs : Selects k p s) :
    Item.gdt (s / 8) ∈ procItems p (k.mem p) := by
  obtain ⟨hne, rfl | rfl⟩ := hs
  · exact gdt_mem_procItems hne
  · exact ldt_mem_procItems hne

namespace Inv

variable {w : World} {O : ℕ → Prop} {B : Items} {P : Multiset ℕ}

/-- A page in use by a live process or the kernel is a node of the pool. -/
theorem node_of_inUse (H : Inv w O B P) {a : ℕ} (ha : TableInUse w.k a) :
    ∃ x, NodeAt w.k.ram (dirsOf (B + heldItems w.held + P.bind (liveItems w.k))) x a := by
  rcases ha with ⟨p, hp, rfl | ⟨i, hi⟩⟩ | ⟨i, hi⟩
  · exact ⟨.dir _, H.dir_mem (H.live_iff.mp hp), rfl⟩
  · exact ⟨.table _ i, H.dir_mem (H.live_iff.mp hp), hi⟩
  · exact ⟨.ktable i, hi⟩

/-- The invariant makes resources unique. -/
theorem resourcesUnique (H : Inv w O B P) {k₀ : Kernel}
    (hg : ∀ i < gdtFirstDynamic, w.k.gdt i = k₀.gdt i) : ResourcesUnique k₀ w.k where
  slot := fun p q hp hq => H.slot_inj (H.live_iff.mp hp) (H.live_iff.mp hq)
  selector := fun p q s hp hq h1 h2 =>
    H.eq_of_mem (H.live_iff.mp hp) (H.live_iff.mp hq) h1.mem h2.mem
  dir := fun p q hp hq => H.dir_inj (H.live_iff.mp hp) (H.live_iff.mp hq)
  table := by
    intro p q i j t hp hq h1 h2
    have hp' := H.live_iff.mp hp
    have hq' := H.live_iff.mp hq
    exact H.dir_inj hp' hq' (H.holds.ram.tables.table_inj (H.dir_mem hq') (H.dir_mem hp') h2 h1).1
  stack := by
    intro p q hp hq hne hsp hsq
    have hp' := H.live_iff.mp hp
    have hq' := H.live_iff.mp hq
    exact driverStacks_disjoint (H.slot_lt hp' hsp) (H.slot_lt hq' hsq)
      fun h => hne (H.slot_inj hp' hq' hsp h)
  fixed := by
    -- a selector of a process is one that was allocated
    intro i hi
    have hlt : i < gdtFirstDynamic := Nat.lt_succ_of_le hi
    refine ⟨?_, hg i hlt, fun p s hp hs he => ?_⟩
    · exact (H.holds.gdt.bit i (lt_trans hlt (by decide))).mpr (Or.inl hlt)
    · have := (H.holds.gdt.range _ (H.mem_items (H.live_iff.mp hp) hs.mem)).1
      omega
  freeList := by
    obtain ⟨l, hc, hmem⟩ := H.holds.ram.tables.pool.list
    refine ⟨l, hc, hc.nodup, fun a ha => ?_⟩
    obtain ⟨⟨h1, h2, -⟩, hfree⟩ := (hmem a).mp ha
    exact ⟨h1, h2, fun hu => hfree (H.node_of_inUse hu)⟩
  alloc := by
    -- a page in use is a node of some directory, and the allocated page is none
    intro t r' halloc hu
    obtain ⟨x, hx⟩ := H.node_of_inUse hu
    rcases allocPageTable_spec H.holds.ram.tables with ⟨hnone, -, -⟩ | ⟨t', r₁, hsome, F⟩
    · rw [hnone] at halloc
      cases halloc
    · rw [hsome] at halloc
      obtain rfl := Option.some.inj (Prod.mk.inj halloc).1
      exact F.fresh x hx

/-- No step touches the fixed descriptors. -/
theorem step_fixed (H : Inv w O B P) {w' : World} {op : Op} (ha : op.Allowed w)
    (hc : Careful w op) (h : op.exec w = some w') {i : ℕ} (hi : i < gdtFirstDynamic) :
    w'.k.gdt i = w.k.gdt i := by
  cases op with
  | tick image =>
    obtain ⟨_, -, -, -, hg, -⟩ := H.tick h
    exact hg i hi
  | fault image =>
    obtain ⟨p, hp, hrun, htype⟩ := ha
    obtain ⟨_, -, -, -, -, hg, -⟩ := H.fault hp hrun htype h
    exact hg i hi
  | _ => exact (H.steady ha hc trivial h).gdt i hi

end Inv

/-- **Resources are unique across processes**, after every run of calls and
interrupts in which `process_destroy` leaves the running task and the process
that awaits reaping alone. -/
theorem resources_unique {w₀ w : World} (h₀ : Booted w₀) (h : Reach Careful w₀ w) :
    ResourcesUnique w₀.k w.k := by
  obtain ⟨O, B, H⟩ := booted_inv h₀
  have key : (∃ O B P, Inv w O B P) ∧ ∀ i < gdtFirstDynamic, w.k.gdt i = w₀.k.gdt i := by
    refine h.invariant (I := fun w => (∃ O B P, Inv w O B P) ∧
      ∀ i < gdtFirstDynamic, w.k.gdt i = w₀.k.gdt i) ⟨⟨O, B, 0, H⟩, fun _ _ => rfl⟩ ?_
    rintro w w' op ⟨⟨O, B, P, H⟩, hg⟩ ha hc he
    obtain ⟨O', P', H'⟩ := H.step ha hc he
    exact ⟨⟨O', B, P', H'⟩, fun i hi => (H.step_fixed ha hc he hi).trans (hg i hi)⟩
  obtain ⟨⟨O, B, P, H⟩, hg⟩ := key
  exact H.resourcesUnique hg

/-- Two processes, of which one is loaded. -/
theorem resources_unique_loaded : ∃ w₀ w p q, Booted w₀ ∧ Reach Careful w₀ w ∧ Live w.k p ∧
    Live w.k q ∧ p ≠ q ∧ ResourcesUnique w₀.k w.k := by
  obtain ⟨w₀, w, p, q, h₀, h, hp, hq, hne, -⟩ := exists_neighbours
  have h' : Reach Careful w₀ w := h.mono fun _ _ hop => hop.careful
  exact ⟨w₀, w, p, q, h₀, h', hp, hq, hne, resources_unique h₀ h'⟩

end VirtualKernel
