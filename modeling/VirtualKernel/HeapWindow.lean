/-
The user heap of a process and its data segment.

`process_memory_create` places the heap at `USER_HEAP_BASE`, before the process
has a slot; `process_create_random_ldt` places the data segment at
`USER_DATA_OFFSET` above the base of the slot.  Slots start at `100000h`, so
that the first page of the heap lies below the data segment of every process
(`heap_unusable`).
-/
import VirtualKernel.Objects
import VirtualKernel.CreateRuns

namespace VirtualKernel

open Lib

/-- The linear page `v` has been mapped for the heap of the process `p`: by
`process_memory_create` at the base of the heap, or by `process_heap_grow`,
which maps the page at the heap mark and moves the mark up. -/
def UserHeapPage (k : Kernel) (p v : ℕ) : Prop :=
  v = k.mem p procHeapBase ∨
    k.mem p procHeapBase ≤ v ∧ v < k.mem p procHeapCurrent ∧ v % pageSize = 0

/-- The page `v` lies in the data segment of the process `p`. -/
def InDataSegment (k : Kernel) (p v : ℕ) : Prop :=
  k.mem p procSlotBase + userDataOffset ≤ v ∧
    v + pageSize ≤ k.mem p procSlotBase + userDataOffset + userDataSize

/-- The other pages of a process: the gateway, the stack and the code. -/
def otherPages (k : Kernel) (p : ℕ) : List ℕ :=
  userSyscallGatewayPage ::
    add32 (k.mem p procSlotBase) (userStackOffset + userStackSize - pageSize) ::
      (entryAddress k p).toList.map pageAddr

/-- A process can use the pages of its heap. -/
structure HeapUsable (k : Kernel) (p : ℕ) : Prop where
  segment : ∀ v, UserHeapPage k p v → InDataSegment k p v
  apart : ∀ v, UserHeapPage k p v → v ∉ otherPages k p

/-- The first page of the heap lies below the data segment. -/
theorem Placed.not_usable {k : Kernel} {p : ℕ} (h : Placed (k.mem p))
    (htype : k.mem p procType = processTypeProtected32) : ¬HeapUsable k p := by
  intro hu
  obtain ⟨hheap, -, hslot⟩ := h htype
  have hlow := (hu.segment _ (Or.inl rfl)).1
  rw [hheap, hslot] at hlow
  simp only [slotBase, processSlotSize, processAreaBase, userDataOffset, userHeapBase] at hlow
  omega

/-- **The heap is out of reach.**  After every run of calls and interrupts, the
heap of a live protected process has a page outside its data segment. -/
theorem heap_unusable {w₀ w : World} (h₀ : Booted w₀) (h : Reach Careful w₀ w) {p : ℕ}
    (hp : Live w.k p) (htype : w.k.mem p procType = processTypeProtected32) :
    ¬HeapUsable w.k p := (reach_placed h₀ h hp).not_usable htype

/-- The first process there is. -/
theorem heap_unusable_first : ∃ w₀ w p, Booted w₀ ∧ Reach Careful w₀ w ∧ Live w.k p ∧
    w.k.mem p procType = processTypeProtected32 ∧ ¬HeapUsable w.k p := by
  obtain ⟨w₀, _, w, B, P, p, -, -, -, h, -, htype⟩ := exists_created (n := 0) (by decide)
  have hp : Live w.k p := h.inv.live_iff.mpr (Multiset.mem_cons_self p P)
  exact ⟨w₀, w, p, h.booted, h.reach, hp, htype, heap_unusable h.booted h.reach hp htype⟩

theorem not_heapUsable : ¬∀ w₀ w p, Booted w₀ → Reach Careful w₀ w → Live w.k p →
    w.k.mem p procType = processTypeProtected32 → HeapUsable w.k p := by
  intro hall
  obtain ⟨w₀, _, w, B, P, p, -, -, -, h, -, htype⟩ := exists_created (n := 0) (by decide)
  have hp : Live w.k p := h.inv.live_iff.mpr (Multiset.mem_cons_self p P)
  exact (reach_placed h.booted h.reach hp).not_usable htype
    (hall w₀ w p h.booted h.reach hp htype)

end VirtualKernel
