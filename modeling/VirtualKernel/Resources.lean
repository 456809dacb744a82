/-
The resources of the kernel and who holds them.

`Item` names one resource: a block of the kernel heap, a descriptor, a slot, a
page directory, an entry of the process table, a queued task.  `Holds k O T`
says that the allocators of `k` have handed out exactly the items of `T`, each
once.  `Frame T k k'` says that the items of `T` look the same in `k'`.

A routine is described by what it does to the items it touches, for every `T`
of items that it does not touch: from `T + X` it goes to `T + Y`, with
`Frame T`.  Lemmas of that shape compose along a program.
-/
import VirtualKernel.Spaces
import VirtualKernel.SchedulerInv
import Mathlib.Data.Multiset.UnionInter

namespace VirtualKernel

open Lib

/-- One resource of the kernel. -/
inductive Item
  | block (p : ℕ)
  | gdt (i : ℕ)
  | slot (i : ℕ)
  | dir (d : ℕ)
  | entry (i p : ℕ)
  | task (sel : ℕ)
deriving DecidableEq, Repr

/-- The items that somebody holds. -/
abbrev Items : Type := Multiset Item

/-- The live directories among the items. -/
def dirsOf (T : Items) (d : ℕ) : Prop := Item.dir d ∈ T

/-- The heap has exactly the blocks of `T` in use. -/
def HeapHolds (h : Heap) (T : Items) : Prop :=
  ∃ bs, HeapRep h bs ∧ ∀ p, Item.block p ∈ T ↔ ∃ b ∈ bs, b.used = true ∧ b.addr + heapHdrSize = p

/-- The descriptors in use are the fixed ones and those of `T`; the other
dynamic ones are empty. -/
structure GdtHolds (bitmap : ℕ → Bool) (gdt : ℕ → ℕ × ℕ) (T : Items) : Prop where
  range : ∀ i, Item.gdt i ∈ T → gdtFirstDynamic ≤ i ∧ i < gdtEntryCount
  bit : ∀ i < gdtEntryCount, bitmap i = true ↔ i < gdtFirstDynamic ∨ Item.gdt i ∈ T
  free : ∀ i, gdtFirstDynamic ≤ i → Item.gdt i ∉ T → gdt i = (0, 0)

structure SlotHolds (bitmap : ℕ → Bool) (T : Items) : Prop where
  range : ∀ i, Item.slot i ∈ T → i < processMaxCount
  bit : ∀ i < processMaxCount, bitmap i = true ↔ Item.slot i ∈ T

/-- The process table has exactly the entries of `T`. -/
structure EntryHolds (table : ℕ → ℕ) (count : ℕ) (T : Items) : Prop where
  range : ∀ i p, Item.entry i p ∈ T → i < processMaxCount ∧ p ≠ 0
  entry : ∀ i < processMaxCount, ∀ p, p ≠ 0 → (table i = p ↔ Item.entry i p ∈ T)
  count : count = ((List.range processMaxCount).filter fun i => table i ≠ 0).length

/-- The task table has exactly the selectors of `T`. -/
structure TaskHolds (table : ℕ → ℕ) (T : Items) : Prop where
  range : ∀ v, Item.task v ∈ T → v ≠ 0 ∧ v < 2 ^ 16
  task : ∀ v, v ≠ 0 → ((∃ i < maxTasks, table i = v) ↔ Item.task v ∈ T)

/-- **The account of the kernel**: what the allocators have handed out is what
is in `T`; `O` are the physical pages in use for other reasons. -/
structure Holds (k : Kernel) (O : ℕ → Prop) (T : Items) : Prop where
  nodup : T.Nodup
  heap : HeapHolds k.heap T
  ram : RamInv k.ram O (dirsOf T) none k.heap.committed
  windows : Windows k.ram
  gdt : GdtHolds k.gdtBitmap k.gdt T
  slot : SlotHolds k.slotBitmap T
  entry : EntryHolds k.processTable k.processActiveCount T
  task : TaskHolds k.sched.taskTable T
  sched : SchedOk k.sched k.tr

/-- The items of `T`, the fixed descriptors and the words of the interrupt
image are the same in `k'`. -/
structure Frame (T : Items) (k k' : Kernel) : Prop where
  ram : RamFrame (dirsOf T) k.ram k'.ram
  mem : ∀ p, Item.block p ∈ T → k'.mem p = k.mem p
  gdt : ∀ i, i < gdtFirstDynamic ∨ Item.gdt i ∈ T → k'.gdt i = k.gdt i
  task : ∀ i < maxTasks, Item.task (k.sched.taskTable i) ∈ T →
    k'.sched.taskTable i = k.sched.taskTable i
  current : k'.sched.currentIndex = k.sched.currentIndex
  kernel : k'.sched.kernelTssSelector = k.sched.kernelTssSelector
  reap : k'.sched.reapProcess = k.sched.reapProcess
  tr : k'.tr = k.tr
  storage : k'.drivers.storageInitialized = k.drivers.storageInitialized

namespace Frame

variable {T T' : Items} {k k' k'' : Kernel}

theorem refl (T : Items) (k : Kernel) : Frame T k k :=
  ⟨.refl _ _, fun _ _ => rfl, fun _ _ => rfl, fun _ _ _ => rfl, rfl, rfl, rfl, rfl, rfl⟩

theorem mono (h : Frame T k k') (hT : ∀ x ∈ T', x ∈ T) : Frame T' k k' where
  ram := h.ram.mono fun _ hd => hT _ hd
  mem := fun p hp => h.mem p (hT _ hp)
  gdt := fun i hi => h.gdt i (hi.imp_right (hT _))
  task := fun i hi ht => h.task i hi (hT _ ht)
  current := h.current
  kernel := h.kernel
  reap := h.reap
  tr := h.tr
  storage := h.storage

theorem left {X : Items} (h : Frame (T + X) k k') : Frame T k k' :=
  h.mono fun _ hx => Multiset.mem_add.mpr (Or.inl hx)

theorem trans (h : Frame T k k') (h' : Frame T k' k'') : Frame T k k'' where
  ram := h.ram.trans h'.ram
  mem := fun p hp => (h'.mem p hp).trans (h.mem p hp)
  gdt := fun i hi => (h'.gdt i hi).trans (h.gdt i hi)
  task := by
    intro i hi ht
    have h1 := h.task i hi ht
    exact (h'.task i hi (by rw [h1]; exact ht)).trans h1
  current := h'.current.trans h.current
  kernel := h'.kernel.trans h.kernel
  reap := h'.reap.trans h.reap
  tr := h'.tr.trans h.tr
  storage := h'.storage.trans h.storage

end Frame

/-! ### Accounts that agree on one kind of item -/

section Congr

variable {T T' : Items}

theorem HeapHolds.congr {h : Heap} (H : HeapHolds h T)
    (hT : ∀ p, Item.block p ∈ T' ↔ Item.block p ∈ T) : HeapHolds h T' := by
  obtain ⟨bs, hrep, hb⟩ := H
  exact ⟨bs, hrep, fun p => (hT p).trans (hb p)⟩

theorem GdtHolds.congr {bitmap : ℕ → Bool} {gdt : ℕ → ℕ × ℕ} (H : GdtHolds bitmap gdt T)
    (hT : ∀ i, Item.gdt i ∈ T' ↔ Item.gdt i ∈ T) : GdtHolds bitmap gdt T' where
  range := fun i hi => H.range i ((hT i).mp hi)
  bit := fun i hi => by rw [hT]; exact H.bit i hi
  free := fun i hi hn => H.free i hi fun h => hn ((hT i).mpr h)

theorem SlotHolds.congr {bitmap : ℕ → Bool} (H : SlotHolds bitmap T)
    (hT : ∀ i, Item.slot i ∈ T' ↔ Item.slot i ∈ T) : SlotHolds bitmap T' where
  range := fun i hi => H.range i ((hT i).mp hi)
  bit := fun i hi => by rw [hT]; exact H.bit i hi

theorem EntryHolds.congr {table : ℕ → ℕ} {count : ℕ} (H : EntryHolds table count T)
    (hT : ∀ i p, Item.entry i p ∈ T' ↔ Item.entry i p ∈ T) : EntryHolds table count T' where
  range := fun i p hi => H.range i p ((hT i p).mp hi)
  entry := fun i hi p hp => by rw [hT]; exact H.entry i hi p hp
  count := H.count

theorem TaskHolds.congr {table : ℕ → ℕ} (H : TaskHolds table T)
    (hT : ∀ v, Item.task v ∈ T' ↔ Item.task v ∈ T) : TaskHolds table T' where
  range := fun v hv => H.range v ((hT v).mp hv)
  task := fun v hv => by rw [hT]; exact H.task v hv

end Congr

namespace Holds

variable {k : Kernel} {O : ℕ → Prop} {T : Items}

/-- Memory of blocks, driver windows and time stamps are not accounted for. -/
theorem congr_state (H : Holds k O T) {k' : Kernel} (hh : k'.heap = k.heap) (hr : k'.ram = k.ram)
    (hgb : k'.gdtBitmap = k.gdtBitmap) (hg : k'.gdt = k.gdt) (hs : k'.slotBitmap = k.slotBitmap)
    (hp : k'.processTable = k.processTable) (hc : k'.processActiveCount = k.processActiveCount)
    (hd : k'.sched = k.sched) (ht : k'.tr = k.tr) : Holds k' O T where
  nodup := H.nodup
  heap := by rw [hh]; exact H.heap
  ram := by rw [hr, hh]; exact H.ram
  windows := by rw [hr]; exact H.windows
  gdt := by rw [hgb, hg]; exact H.gdt
  slot := by rw [hs]; exact H.slot
  entry := by rw [hp, hc]; exact H.entry
  task := by rw [hd]; exact H.task
  sched := by rw [hd, ht]; exact H.sched

theorem setMem (H : Holds k O T) (p : ℕ) (f : ℕ → ℕ) : Holds (k.setMem p f) O T :=
  H.congr_state rfl rfl rfl rfl rfl rfl rfl rfl rfl

end Holds

theorem Frame.setMem {T : Items} {k : Kernel} {p : ℕ} (hp : Item.block p ∉ T) (f : ℕ → ℕ) :
    Frame T k (k.setMem p f) where
  ram := .refl _ _
  mem := fun q hq => Function.update_of_ne (fun h => hp (by rw [← h]; exact hq)) _ _
  gdt := fun _ _ => rfl
  task := fun _ _ _ => rfl
  current := rfl
  kernel := rfl
  reap := rfl
  tr := rfl
  storage := rfl

end VirtualKernel
