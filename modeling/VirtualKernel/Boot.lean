/-
The way to the first process: what the bootstrap leaves in memory
(`setup_paging`, `init_gdt`) and `kernel_high_entry` up to the call of the C
layer.

A step that fails sends the kernel to `kernel_high_hang`; `kernelHighEntry`
returns `false` there.
-/
import VirtualKernel.Interrupts

namespace VirtualKernel

open Lib

/-! ### The bootstrap -/

/-- The entries that `setup_paging` writes into the cleared directory: 4 MiB
supervisor pages. -/
def bootDirectory (i : ℕ) : ℕ :=
  if i = 0x30000000 / 2 ^ 22 then 0x30000000 ||| 0x83
  else if i = 0x80000000 / 2 ^ 22 then 0x34000000 ||| 0x83
  else if i = 0 then 0x83
  else if i = 0xFEC00000 / 2 ^ 22 then 0xFEC00000 ||| 0x83
  else if i = 0xFF000000 / 2 ^ 22 then 0x32000000 ||| 0x83
  else if i = 0x30400000 / 2 ^ 22 then 0x30400000 ||| 0x83
  else 0

/-- `setup_paging`. -/
def setupPaging (r : Ram) : Ram := r.setPage pageDirBase bootDirectory

/-- `set_gdt_entry` with base 0, limit `0FFFFFh` and the flags `0C0h`; only
bits 8 to 11 of the limit reach the upper word. -/
def fixedDescriptor (access : ℕ) : ℕ × ℕ := (0xFFFF, access * 2 ^ 8 + 0xCF * 2 ^ 16)

/-- `init_gdt`: the null descriptor, eight flat segments, nothing else. -/
def initGdt (i : ℕ) : ℕ × ℕ :=
  if i = 1 ∨ i = 3 ∨ i = 5 then fixedDescriptor 0x9A
  else if i = 2 ∨ i = 4 ∨ i = 6 then fixedDescriptor 0x92
  else if i = 7 then fixedDescriptor 0xFA
  else if i = 8 then fixedDescriptor 0xF2
  else (0, 0)

/-- What `kernel_high_entry` finds: the tables of the bootstrap and the
variables of the image as they are assembled. -/
structure AtEntry (k : Kernel) : Prop where
  dir : k.ram.frame pageDirBase = bootDirectory
  pmmNextPage : k.ram.pmmNextPage = mainRamStart / pageSize
  pageTableNext : k.ram.pageTableNext = pageTablePoolBase
  pageTableFreeList : k.ram.pageTableFreeList = 0
  gdt : k.gdt = initGdt
  storage : k.drivers.storageInitialized = 0

/-! ### `kernel_high_entry` -/

abbrev kernelVgaVirt : ℕ := 0x80B80000
abbrev kernelVgaFontVirt : ℕ := 0x80A00000

/-- `map_kernel_vga`. -/
def mapKernelVga (r : Ram) : Bool × Ram :=
  match mapPagePool kernelVgaVirt 0xB8000 pagePresentRw r with
  | (false, r) => (false, r)
  | (true, r) =>
    match mapPagePool kernelVgaFontVirt 0xA0000 pagePresentRw r with
    | (false, r) => (false, r)
    | (true, r) => mapPagePool (kernelVgaFontVirt + pageSize) (0xA0000 + pageSize) pagePresentRw r

/-- `heap_init` on the kernel's state. -/
def kHeapInit : KM Unit := fun k =>
  (heapInit heapCommit k.heap.hdr k.ram).map fun x =>
    ((), { k with heap := x.2.1, ram := x.2.2 })

/-- `heap_validate` on the kernel's state. -/
def kHeapValidate : KM ℕ := fun k => (heapValidate k.heap).map fun v => (v, k)

/-- `gdt_allocator_init`. -/
def gdtAllocatorInit : KM Unit :=
  modify fun k => { k with gdtBitmap := fun i => decide (i < gdtFirstDynamic) }

/-- `process_slot_allocator_init`. -/
def processSlotAllocatorInit : KM Unit :=
  modify fun k => { k with slotBitmap := fun _ => false }

/-- `process_table_init`. -/
def processTableInit : KM Unit :=
  modify fun k => { k with processTable := fun _ => 0, processActiveCount := 0 }

/-- The fields of the kernel's own TSS. -/
def kernelTssFields (cr3 ldtr : ℕ) (f : ℕ → ℕ) : ℕ → ℕ :=
  let f := Function.update f tssCr3 cr3
  let f := setLow f tssLdtr ldtr
  let f := Function.update f tssEsp0 0x3000F000
  let f := setLow f tssSs0 kernelDs
  setHigh f tssTrace tss32Size

/-- `ltr`: load the task register and mark the descriptor busy. -/
def loadTaskRegister (sel : ℕ) (k : Kernel) : Kernel :=
  { k with gdt := Function.update k.gdt (sel / 8) (setBusy true (k.gdt (sel / 8))), tr := sel }

/-- `create_kernel_tss()`, with what CR3 and LDTR hold. -/
def createKernelTss (cr3 ldtr : ℕ) : KM (Option ℕ) := do
  let tss ← kHeapAlloc tss32Size
  if tss = 0 then return none
  else
    modify fun k => { k with kernelTssBase := tss }
    zeroFill tss tss32Size
    rewrite tss fun _ f => kernelTssFields cr3 ldtr f
    match ← gdtCreateTssDescriptor tss with
    | none =>
      kHeapFree tss
      return none
    | some sel =>
      modify fun k => loadTaskRegister sel { k with
        kernelTssSelector := sel, sched := { k.sched with kernelTssSelector := sel } }
      return some sel

/-- The features of the processor that the kernel insists on. -/
structure Cpu where
  sep : Bool
  vme : Bool

/-- `enable_systemcall()`: the bootstrap stack of `sysenter`. -/
def enableSystemcall (cpu : Cpu) : KM Bool := do
  if cpu.sep then
    let eax ← kHeapAlloc pageSize
    return eax ≠ 0
  else return false

/-- `kernel_high_entry` up to the call of `kernel_main`. -/
def kernelHighEntry (cpu : Cpu) : KM Bool := do
  onRam fun r => ((), pmmInit r)
  if ← onRam mapKernelVga then
    kHeapInit
    let _ ← kHeapValidate
    gdtAllocatorInit
    processSlotAllocatorInit
    processTableInit
    modify fun k => { k with sched := schedulerInit }
    match ← createKernelTss pageDirBase 0 with
    | none => return false
    | some _ =>
      if ← enableSystemcall cpu then return cpu.vme else return false
  else return false

/-! ### The window of the storage driver -/

abbrev storageMmio : ℕ := 0x80C00000

/-- `storage_initialize()`: reserve the table of the window.  `false` is the
panic of the kernel. -/
def storageInitialize : KM Bool := do
  let k ← get
  if k.drivers.storageInitialized ≠ 0 then return true
  else
    if ← onRam (mapPagePool storageMmio 0x3004F000 pagePresentRw) then
      modify fun k => { k with drivers := { k.drivers with storageInitialized := 1 } }
      return true
    else return false

/-- `storage_map_mmio_window(physical)` on the window's own words: point the
window at a device. -/
def storageMapMmioWindow (physical : ℕ) : KM ℕ := do
  let k ← get
  let page := pageAddr physical
  let offset := physical % 2 ^ 12
  if page = 0 ∨ physical % 16 ≠ 0 ∨ 0xF00 < offset then return 0
  else if k.drivers.storageMappedMmio = page then return storageMmio + offset
  else
    if ← onRam (mapPagePool storageMmio page 0x1B) then
      modify fun k => { k with drivers := { k.drivers with storageMappedMmio := page } }
      return storageMmio + offset
    else return 0

end VirtualKernel
