/-
The state of the kernel and the routines that manage descriptors, slots and
the process table.

`Kernel.mem p o` is the word at offset `o` of the kernel-heap block with
payload pointer `p`; the objects that live there are process objects, task
state segments, local descriptor tables and their bitmaps.  The other fields
are the variables of `VirtualKernel.asm`, the global descriptor table, the
scheduler words, the words published by the drivers and the task register.

A routine of the kernel is a `KM` program: it may fail to return only where the
kernel heap does.
-/
import VirtualKernel.Paging
import VirtualKernel.Scheduler
import VirtualKernel.Lib.Runs

namespace VirtualKernel

open Lib

/-- The words that the drivers publish and the memory of their windows. -/
structure Drivers where
  keyboardReady : ℕ
  keyboardDataSelector : ℕ
  keyboardGateSelector : ℕ
  graphicsReady : ℕ
  graphicsDataSelector : ℕ
  graphicsGateSelector : ℕ
  mouseGateSelector : ℕ
  azaliaGateSelector : ℕ
  azaliaFlatData : ℕ
  storageInitialized : ℕ
  storageMappedMmio : ℕ
  mem : ℕ → ℕ

/-- `user_syscall_gateway_blob` as assembled: its bytes, its size and the
offsets of the far pointers that `driver_patch_gateway` fills in. -/
structure Gateway where
  bytes : ℕ → ℕ
  size : ℕ
  keyboardPointer : ℕ
  graphicsPointer : ℕ
  mousePointer : ℕ
  audioPointer : ℕ

/-- The state of the kernel.  `tsc` gives the values of the coming `rdtsc`
instructions, `gdt` the two words of each descriptor. -/
structure Kernel where
  ram : Ram
  heap : Heap
  mem : ℕ → ℕ → ℕ
  gdtBitmap : ℕ → Bool
  gdt : ℕ → ℕ × ℕ
  slotBitmap : ℕ → Bool
  processTable : ℕ → ℕ
  processActiveCount : ℕ
  sched : Sched
  kernelTssBase : ℕ
  kernelTssSelector : ℕ
  drivers : Drivers
  gateway : Gateway
  tsc : ℕ → ℕ
  tr : ℕ

/-- Programs of the kernel. -/
abbrev KM (α : Type) : Type := StateT Kernel Option α

/-! ### Memory of the kernel heap -/

/-- Run a routine of `Paging`. -/
def onRam {α : Type} (f : Ram → α × Ram) : KM α :=
  modifyGet fun k => ((f k.ram).1, { k with ram := (f k.ram).2 })

/-- Run a routine of the scheduler. -/
def onSched {α : Type} (f : Sched → α × Sched) : KM α :=
  modifyGet fun k => ((f k.sched).1, { k with sched := (f k.sched).2 })

/-- `heap_alloc(size)`. -/
def kHeapAlloc (size : ℕ) : KM ℕ := fun k =>
  (heapAlloc heapCommit size k.heap k.ram).map fun x => (x.1, { k with heap := x.2.1, ram := x.2.2 })

theorem kHeapAlloc_run {size r : ℕ} {k : Kernel} {h : Heap} {w : Ram}
    (hr : heapAlloc heapCommit size k.heap k.ram = some (r, h, w)) :
    (kHeapAlloc size).run k = some (r, { k with heap := h, ram := w }) := by
  change (heapAlloc heapCommit size k.heap k.ram).map
    (fun x => (x.1, { k with heap := x.2.1, ram := x.2.2 })) = _
  rw [hr]
  rfl

/-- `heap_free(ptr)`. -/
def kHeapFree (ptr : ℕ) : KM Unit := fun k =>
  (heapFree ptr k.heap).map fun h => ((), { k with heap := h })

theorem kHeapFree_run {ptr : ℕ} {k : Kernel} {h : Heap} (hr : heapFree ptr k.heap = some h) :
    (kHeapFree ptr).run k = some ((), { k with heap := h }) := by
  change (heapFree ptr k.heap).map (fun h => ((), { k with heap := h })) = _
  rw [hr]
  rfl

/-- `mov eax, [p + off]`. -/
def load (p off : ℕ) : KM ℕ := modifyGet fun k => (k.mem p off, k)

def Kernel.setMem (k : Kernel) (p : ℕ) (f : ℕ → ℕ) : Kernel :=
  { k with mem := Function.update k.mem p f }

/-- `mov [p + off], eax`. -/
def store (p off v : ℕ) : KM Unit :=
  modify fun k => k.setMem p (Function.update (k.mem p) off v)

/-- Replace the low half of the word at `off`. -/
def setLow (f : ℕ → ℕ) (off v : ℕ) : ℕ → ℕ :=
  Function.update f off (f off / 2 ^ 16 * 2 ^ 16 + v % 2 ^ 16)

/-- Replace the high half of the word at `off`. -/
def setHigh (f : ℕ → ℕ) (off v : ℕ) : ℕ → ℕ :=
  Function.update f off (v % 2 ^ 16 * 2 ^ 16 + f off % 2 ^ 16)

/-- Rewrite the block `p`. -/
def rewrite (p : ℕ) (g : Kernel → (ℕ → ℕ) → (ℕ → ℕ)) : KM Unit :=
  modify fun k => k.setMem p (g k (k.mem p))

/-- `rep stosd` of zeros over `n` bytes from `p`. -/
def zeroFill (p n : ℕ) : KM Unit :=
  rewrite p fun _ f o => if o < n then 0 else f o

/-! ### Offsets -/

abbrev procPageDir : ℕ := 0
abbrev procHeapBase : ℕ := 4
abbrev procHeapCurrent : ℕ := 8
abbrev procHeapLimit : ℕ := 12
abbrev procLdtBase : ℕ := 16
abbrev procLdtBitmap : ℕ := 20
abbrev procLdtSelector : ℕ := 24
abbrev procUserCs : ℕ := 28
abbrev procUserDs : ℕ := 32
abbrev procUserSs : ℕ := 36
abbrev procTssBase : ℕ := 40
abbrev procTssSelector : ℕ := 44
abbrev procKstackTop : ℕ := 48
abbrev procSlotIndex : ℕ := 52
abbrev procSlotBase : ℕ := 56
abbrev procType : ℕ := 60
abbrev procTableIndex : ℕ := 64
abbrev procMemSize : ℕ := 72

abbrev tssEsp0 : ℕ := 0x04
abbrev tssSs0 : ℕ := 0x08
abbrev tssEsp1 : ℕ := 0x0C
abbrev tssSs1 : ℕ := 0x10
abbrev tssEsp2 : ℕ := 0x14
abbrev tssSs2 : ℕ := 0x18
abbrev tssCr3 : ℕ := 0x1C
abbrev tssEip : ℕ := 0x20
abbrev tssEflags : ℕ := 0x24
abbrev tssEsp : ℕ := 0x38
abbrev tssEbp : ℕ := 0x3C
abbrev tssEs : ℕ := 0x48
abbrev tssCs : ℕ := 0x4C
abbrev tssSs : ℕ := 0x50
abbrev tssDs : ℕ := 0x54
abbrev tssFs : ℕ := 0x58
abbrev tssGs : ℕ := 0x5C
abbrev tssLdtr : ℕ := 0x60
abbrev tssTrace : ℕ := 0x64
abbrev tss32Size : ℕ := 0x68
abbrev tssOwnerProcess : ℕ := 0x68
abbrev tssObjectSize : ℕ := 0x6C

abbrev v86IoBitmapBase : ℕ := 0x88
abbrev v86IoBitmapTerminator : ℕ := 0x2088
abbrev v86TssLimit : ℕ := 0x2088
abbrev v86TssOwnerProcess : ℕ := 0x208C
abbrev v86TssObjectSize : ℕ := 0x2090

abbrev kernelDs : ℕ := 0x10

/-! ### Global descriptors -/

abbrev gdtFirstDynamic : ℕ := 9
abbrev gdtEntryCount : ℕ := 8192

/-- `gdt_alloc_selector`: the first free dynamic entry, as a selector. -/
def gdtAllocSelector : KM (Option ℕ) :=
  modifyGet fun k =>
    match (List.range' gdtFirstDynamic (gdtEntryCount - gdtFirstDynamic)).find?
        fun i => !k.gdtBitmap i with
    | none => (none, k)
    | some i => (some (i * 8), { k with gdtBitmap := Function.update k.gdtBitmap i true })

/-- `gdt_write_raw_descriptor(selector, low, high)`. -/
def gdtWriteRawDescriptor (sel : ℕ) (desc : ℕ × ℕ) : KM Unit :=
  modify fun k => { k with gdt := Function.update k.gdt (sel % 2 ^ 16 / 8) desc }

/-- `gdt_free_selector(selector)`. -/
def gdtFreeSelector (sel : ℕ) : KM Unit :=
  modify fun k =>
    let eax := sel / 8
    if sel.testBit 2 ∨ eax < gdtFirstDynamic ∨ gdtEntryCount ≤ eax then k
    else { k with gdtBitmap := Function.update k.gdtBitmap eax false
                  gdt := Function.update k.gdt eax (0, 0) }

/-- `build_system_descriptor(base, limit, access)`: byte granular, no flags. -/
def buildSystemDescriptor (base limit access : ℕ) : ℕ × ℕ :=
  (base % 2 ^ 16 * 2 ^ 16 + limit % 2 ^ 16,
    base / 2 ^ 16 % 2 ^ 8 ||| access * 2 ^ 8 ||| limit / 2 ^ 16 % 2 ^ 4 * 2 ^ 16 |||
      (base &&& 0xFF000000))

/-- The descriptor words of `gdt_write_segment_descriptor` and
`ldt_write_segment_descriptor`: 4 KiB granular above 1 MiB. -/
def segmentDescriptor (base limit access : ℕ) : ℕ × ℕ :=
  let ecx := if limit ≤ 0xFFFFF then limit else limit / 2 ^ 12
  let edx := if limit ≤ 0xFFFFF then 0x40 else 0xC0
  (base % 2 ^ 16 * 2 ^ 16 + ecx % 2 ^ 16,
    base / 2 ^ 16 % 2 ^ 8 ||| access * 2 ^ 8 ||| ecx / 2 ^ 16 % 2 ^ 4 * 2 ^ 16 |||
      edx * 2 ^ 16 ||| (base &&& 0xFF000000))

/-- The base that the processor and the kernel read out of a descriptor. -/
def descriptorBase (desc : ℕ × ℕ) : ℕ :=
  desc.1 / 2 ^ 16 % 2 ^ 16 ||| desc.2 % 2 ^ 8 * 2 ^ 16 ||| desc.2 / 2 ^ 24 % 2 ^ 8 * 2 ^ 24

/-- Allocate a selector and write a descriptor there. -/
def gdtCreateDescriptor (desc : ℕ × ℕ) : KM (Option ℕ) := do
  match ← gdtAllocSelector with
  | none => return none
  | some sel =>
    gdtWriteRawDescriptor sel desc
    return some sel

/-- `gdt_create_ldt_descriptor(base, limit)`. -/
def gdtCreateLdtDescriptor (base limit : ℕ) : KM (Option ℕ) :=
  gdtCreateDescriptor (buildSystemDescriptor base limit 0x82)

/-- `gdt_create_tss_descriptor_with_limit(base, limit)`. -/
def gdtCreateTssDescriptorWithLimit (base limit : ℕ) : KM (Option ℕ) :=
  gdtCreateDescriptor (buildSystemDescriptor base limit 0x89)

/-- `gdt_create_tss_descriptor(base)`. -/
def gdtCreateTssDescriptor (base : ℕ) : KM (Option ℕ) :=
  gdtCreateTssDescriptorWithLimit base 0x67

/-! ### Process slots -/

abbrev processAreaBase : ℕ := 0x00100000
abbrev processSlotSize : ℕ := 0x00A00000
abbrev processMaxCount : ℕ := 100

/-- `process_slot_alloc()`: the first free slot and its linear base. -/
def processSlotAlloc : KM (Option (ℕ × ℕ)) :=
  modifyGet fun k =>
    match (List.range processMaxCount).find? fun i => !k.slotBitmap i with
    | none => (none, k)
    | some i => (some (i, add32 (processSlotSize * i) processAreaBase),
        { k with slotBitmap := Function.update k.slotBitmap i true })

/-- `process_slot_free(slot_index)`. -/
def processSlotFree (i : ℕ) : KM Unit :=
  modify fun k =>
    if processMaxCount ≤ i then k
    else { k with slotBitmap := Function.update k.slotBitmap i false }

/-! ### The process table -/

/-- `process_register(process)`. -/
def processRegister (esi : ℕ) : KM ℕ :=
  modifyGet fun k =>
    if esi = 0 ∨ k.mem esi procTableIndex ≠ noIndex then (0, k)
    else
      match (List.range processMaxCount).find? fun i => k.processTable i = 0 with
      | none => (0, k)
      | some i => (1, Kernel.setMem
          { k with processTable := Function.update k.processTable i esi
                   processActiveCount := add32 k.processActiveCount 1 }
          esi (Function.update (k.mem esi) procTableIndex i))

/-- `process_unregister(process)`. -/
def processUnregister (esi : ℕ) : KM Unit :=
  modify fun k =>
    let ebx := k.mem esi procTableIndex
    if esi = 0 ∨ processMaxCount ≤ ebx ∨ k.processTable ebx ≠ esi then k
    else Kernel.setMem
      { k with processTable := Function.update k.processTable ebx 0
               processActiveCount := k.processActiveCount - 1 }
      esi (Function.update (k.mem esi) procTableIndex noIndex)

/-- `scheduler_add_process(process)`. -/
def kSchedulerAddProcess (esi : ℕ) : KM ℕ := do
  let sel ← load esi procTssSelector
  onSched (schedulerAddProcess esi sel)

/-- `scheduler_remove_process(process)`. -/
def kSchedulerRemoveProcess (esi : ℕ) : KM ℕ := do
  let sel ← load esi procTssSelector
  onSched (schedulerRemoveProcess esi sel)

end VirtualKernel
