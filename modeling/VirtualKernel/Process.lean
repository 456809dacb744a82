/-
Processes: `process_create`, `process_destroy` and what they are made of.

Each routine follows its source step by step, with the failure labels as the
branches that undo what has been done.  Registers that a routine reloads from
an object right after storing them there are kept in a variable.
-/
import VirtualKernel.Kernel

namespace VirtualKernel

open Lib

abbrev processTypeProtected32 : ℕ := 0
abbrev processTypeV86 : ℕ := 1

abbrev userHeapBase : ℕ := 0x00400000
abbrev userHeapMaxSize : ℕ := 0x00400000
abbrev userSyscallGatewayPage : ℕ := 0x7FFFF000

abbrev userCodeOffset : ℕ := 0x00000000
abbrev userCodeSize : ℕ := 0x00400000
abbrev userDataOffset : ℕ := 0x00400000
abbrev userDataSize : ℕ := 0x00500000
abbrev userStackOffset : ℕ := 0x00900000
abbrev userStackSize : ℕ := 0x00100000

abbrev ldtEntryCount : ℕ := 512
abbrev ldtSize : ℕ := 4096
abbrev ldtBitmapSize : ℕ := 64

/-! ### Local descriptor tables -/

/-- Bit `i` of a bitmap in memory: `bt dword [edi], esi`. -/
def bitOf (f : ℕ → ℕ) (i : ℕ) : Bool := (f (i / 32 * 4)).testBit (i % 32)

/-- `bts dword [edi], esi`. -/
def setBit (f : ℕ → ℕ) (i : ℕ) : ℕ → ℕ :=
  Function.update f (i / 32 * 4) (f (i / 32 * 4) ||| 2 ^ (i % 32))

/-- The scan of `ldt_alloc_selector`: `ebx` entries are tried, with a wrap to
entry 1. -/
def ldtAllocScan (f : ℕ → ℕ) (count : ℕ) : ℕ → ℕ → Option ℕ
  | 0, _ => none
  | ebx + 1, esi =>
    let esi := if esi < count then esi else 1
    if bitOf f esi then ldtAllocScan f count ebx (esi + 1) else some esi

/-- `ldt_alloc_selector(ldt_bitmap, ldt_entry_count)`: a selector at a random
free entry. -/
def ldtAllocSelector (bitmap count : ℕ) : KM (Option ℕ) :=
  modifyGet fun k =>
    if count < 2 then (none, k)
    else
      let start := k.tsc 0 % 2 ^ 32 % (count - 1) + 1
      let k := { k with tsc := fun n => k.tsc (n + 1) }
      match ldtAllocScan (k.mem bitmap) count count start with
      | none => (none, k)
      | some esi => (some (esi * 8 ||| 7), k.setMem bitmap (setBit (k.mem bitmap) esi))

/-- `ldt_write_segment_descriptor(ldt_base, selector, base, limit, access)`. -/
def ldtWriteSegmentDescriptor (ldt sel base limit access : ℕ) : KM Unit :=
  rewrite ldt fun _ f =>
    let off := sel &&& 0xFFF8
    Function.update (Function.update f off (segmentDescriptor base limit access).1) (off + 4)
      (segmentDescriptor base limit access).2

/-- The three segments of a process: code, data and stack. -/
def processWriteSegments (esi ldt base : ℕ) : KM ℕ := do
  ldtWriteSegmentDescriptor ldt (← load esi procUserCs) (add32 base userCodeOffset)
    (userCodeSize - 1) 0xFA
  ldtWriteSegmentDescriptor ldt (← load esi procUserDs) (add32 base userDataOffset)
    (userDataSize - 1) 0xF2
  ldtWriteSegmentDescriptor ldt (← load esi procUserSs) (add32 base userStackOffset)
    (userStackSize - 1) 0xF2
  return 1

/-- `process_create_random_ldt_free_gdt_ldt` and the labels below it. -/
def processLdtFreeGdt (sel bitmap ldt : ℕ) : KM ℕ := do
  gdtFreeSelector sel
  kHeapFree bitmap
  kHeapFree ldt
  return 0

/-- The three selectors of a process, from a cleared bitmap on. -/
def processAllocLdtSelectors (esi sel bitmap ldt base : ℕ) : KM ℕ := do
  match ← ldtAllocSelector bitmap ldtEntryCount with
  | none => processLdtFreeGdt sel bitmap ldt
  | some cs =>
    store esi procUserCs cs
    match ← ldtAllocSelector bitmap ldtEntryCount with
    | none => processLdtFreeGdt sel bitmap ldt
    | some ds =>
      store esi procUserDs ds
      match ← ldtAllocSelector bitmap ldtEntryCount with
      | none => processLdtFreeGdt sel bitmap ldt
      | some ss =>
        store esi procUserSs ss
        processWriteSegments esi ldt base

/-- `process_create_random_ldt(process, process_linear_base)`. -/
def processCreateRandomLdt (esi base : ℕ) : KM ℕ := do
  if esi = 0 then return 0
  else
    let ldt ← kHeapAlloc ldtSize
    if ldt = 0 then return 0
    else
      store esi procLdtBase ldt
      zeroFill ldt ldtSize
      let bitmap ← kHeapAlloc ldtBitmapSize
      if bitmap = 0 then
        kHeapFree ldt
        return 0
      else
        store esi procLdtBitmap bitmap
        zeroFill bitmap ldtBitmapSize
        rewrite bitmap fun _ f => setBit f 0
        match ← gdtCreateLdtDescriptor ldt (ldtSize - 1) with
        | none =>
          kHeapFree bitmap
          kHeapFree ldt
          return 0
        | some sel =>
          store esi procLdtSelector sel
          processAllocLdtSelectors esi sel bitmap ldt base

/-! ### Task state segments -/

/-- Clear `n` bytes of a driver window. -/
def clearWindow (a n : ℕ) : KM Unit :=
  modify fun k => { k with drivers :=
    { k.drivers with mem := fun x => if a ≤ x ∧ x < a + n then 0 else k.drivers.mem x } }

/-- One driver stack of 8 KiB: clear the window of the slot and set a stack
field and a segment field of the TSS. -/
def prepareStack (edi window esp espField ssField selector : ℕ) : KM Unit := do
  clearWindow window 0x2000
  rewrite edi fun _ f => setLow (Function.update f espField esp) ssField selector

/-- The driver stack windows of a slot. -/
def keyboardStack (slot : ℕ) : ℕ := slot * 2 ^ 13 + 0x10000 + 0x70000000
def graphicsStack (slot : ℕ) : ℕ := slot * 2 ^ 13 + 0x20000 + 0x71000000
def azaliaStack (slot : ℕ) : ℕ := slot * 2 ^ 13 + 0x72020000

/-- `keyboard_prepare_process`. -/
def keyboardPrepareProcess (esi edi : ℕ) : KM Unit := do
  let k ← get
  let eax := k.mem esi procSlotIndex
  if k.drivers.keyboardReady ≠ 1 ∨ processMaxCount ≤ eax then return ()
  else
    prepareStack edi (keyboardStack eax) (eax * 2 ^ 13 + 0x10000 + 0x2000) tssEsp2 tssSs2
      k.drivers.keyboardDataSelector

/-- `graphics_prepare_process`, with `azalia_prepare_process` when there is no
graphics driver. -/
def graphicsPrepareProcess (esi edi : ℕ) : KM Unit := do
  let k ← get
  let eax := k.mem esi procSlotIndex
  if k.drivers.graphicsReady ≠ 1 then
    if k.drivers.azaliaGateSelector = 0 ∨ processMaxCount ≤ eax then return ()
    else
      prepareStack edi (azaliaStack eax) (azaliaStack eax + 0x2000) tssEsp1 tssSs1
        k.drivers.azaliaFlatData
  else if processMaxCount ≤ eax then return ()
  else
    prepareStack edi (graphicsStack eax) (eax * 2 ^ 13 + 0x20000 + 0x2000) tssEsp1 tssSs1
      k.drivers.graphicsDataSelector

/-- The fields of a protected-mode TSS above the kernel stack, from the
process object `p`. -/
def tssFields (p f : ℕ → ℕ) : ℕ → ℕ :=
  let f := Function.update f tssCr3 (p procPageDir)
  let f := Function.update f tssEip 0
  let f := Function.update f tssEflags 0x202
  let f := Function.update f tssEsp userStackSize
  let f := Function.update f tssEbp userStackSize
  let f := setLow f tssCs (p procUserCs)
  let f := setLow f tssDs (p procUserDs)
  let f := setLow f tssEs (p procUserDs)
  let f := setLow f tssFs (p procUserDs)
  let f := setLow f tssGs (p procUserDs)
  let f := setLow f tssSs (p procUserSs)
  let f := setLow f tssLdtr (p procLdtSelector)
  setHigh f tssTrace tss32Size

/-- The fields of a VM86 TSS above the kernel stack. -/
def v86TssFields (p f : ℕ → ℕ) : ℕ → ℕ :=
  let f := Function.update f tssCr3 (p procPageDir)
  let f := Function.update f tssEip 0
  let f := Function.update f tssEflags 0xA0202
  let f := Function.update f tssEsp 0xFFF0
  let f := Function.update f tssEbp 0xFFF0
  let f := setLow f tssCs (v86EntryLinear / 16)
  let f := setLow f tssSs 0x9000
  let f := setLow f tssDs 0
  let f := setLow f tssEs 0
  let f := setLow f tssFs 0
  let f := setLow f tssGs 0
  let f := setLow f tssLdtr 0
  setHigh f tssTrace v86IoBitmapBase

/-- `process_create_tss_free_tss`. -/
def processTssFree (esi tss : ℕ) : KM Bool := do
  kHeapFree tss
  store esi procTssBase 0
  return false

/-- `process_create_tss_free_stack` and the label below it. -/
def processTssFreeStack (esi tss stack : ℕ) : KM Bool := do
  kHeapFree stack
  store esi procKstackTop 0
  processTssFree esi tss

/-- The part that the two constructors of a TSS share: the object, the kernel
stack and the descriptor.  `owner` writes what belongs behind the TSS, `fields`
the rest of its fields. -/
def createTss (esi objectSize limit : ℕ) (owner : ℕ → (ℕ → ℕ) → ℕ → ℕ) (fields : ℕ → ℕ → KM Unit) :
    KM Bool := do
  if esi = 0 then return false
  else
    let tss ← kHeapAlloc objectSize
    if tss = 0 then return false
    else
      store esi procTssBase tss
      zeroFill tss objectSize
      rewrite tss fun _ f => owner esi f
      let stack ← kHeapAlloc pageSize
      if stack = 0 then processTssFree esi tss
      else
        store esi procKstackTop (add32 stack pageSize)
        rewrite tss fun _ f =>
          setLow (Function.update f tssEsp0 (add32 stack pageSize)) tssSs0 kernelDs
        fields esi tss
        match ← gdtCreateTssDescriptorWithLimit tss limit with
        | none => processTssFreeStack esi tss stack
        | some sel =>
          store esi procTssSelector sel
          return true

/-- `process_create_tss(process)`. -/
def processCreateTss (esi : ℕ) : KM Bool :=
  createTss esi tssObjectSize 0x67 (fun p f => Function.update f tssOwnerProcess p) fun esi tss => do
    keyboardPrepareProcess esi tss
    graphicsPrepareProcess esi tss
    rewrite tss fun k f => tssFields (k.mem esi) f

/-- `v86_process_create_tss(process)`: the owner lies behind the I/O bitmap,
whose terminator byte is set. -/
def v86ProcessCreateTss (esi : ℕ) : KM Bool :=
  createTss esi v86TssObjectSize v86TssLimit
    (fun p f =>
      let f := Function.update f v86TssOwnerProcess p
      Function.update f v86IoBitmapTerminator (f v86IoBitmapTerminator / 2 ^ 8 * 2 ^ 8 + 0xFF))
    fun esi tss => rewrite tss fun k f => v86TssFields (k.mem esi) f

/-! ### Memory of a process -/

/-- Map a new page, filled with `f`, at `virt` of the directory `pd`. -/
def mapNewPage (pd virt flags : ℕ) (f : ℕ → ℕ) (ebx : ℕ) (r : Ram) : Bool × Ram :=
  match fillTempPage ebx f r with
  | (.done, r) =>
    match mapUserPage pd virt ebx flags r with
    | (true, r) => (true, r)
    | (false, r) => (false, pmmFreePage ebx r)
  | (_, r) => (false, pmmFreePage ebx r)

/-- Allocate a page and map it; used where the source allocates, fills and maps
a user page and frees the page when a later step fails. -/
def allocMapPage (pd virt flags : ℕ) (f : ℕ → ℕ) (r : Ram) : Bool × Ram :=
  match pmmAllocPage r with
  | (0, r) => (false, r)
  | (ebx, r) => mapNewPage pd virt flags f ebx r

/-- A cleared process object without slot and table entry. -/
def processObject (type : ℕ) (f : ℕ → ℕ) (o : ℕ) : ℕ :=
  if o < procMemSize then
    if o = procSlotIndex ∨ o = procTableIndex then noIndex else if o = procType then type else 0
  else f o

/-- `process_memory_create_destroy_directory` and the label below it. -/
def processMemoryUndo (esi dir : ℕ) : KM ℕ := do
  onRam fun r => ((), destroyPageDirectory dir r)
  kHeapFree esi
  return 0

/-- `process_memory_create()`: the process object, or 0. -/
def processMemoryCreate : KM ℕ := do
  let esi ← kHeapAlloc procMemSize
  if esi = 0 then return 0
  else
    rewrite esi fun _ f => processObject processTypeProtected32 f
    match ← onRam createPageDirectory with
    | none =>
      kHeapFree esi
      return 0
    | some dir =>
      rewrite esi fun _ f =>
        Function.update (Function.update (Function.update (Function.update f procPageDir dir)
          procHeapBase userHeapBase) procHeapCurrent userHeapBase) procHeapLimit
          (userHeapBase + userHeapMaxSize)
      if ← onRam (allocMapPage dir userHeapBase (pagePresentRwUser ||| pageOwned) userHeapPage) then
        store esi procHeapCurrent (userHeapBase + pageSize)
        return esi
      else processMemoryUndo esi dir

/-- `v86_process_memory_create()`. -/
def v86ProcessMemoryCreate : KM ℕ := do
  let esi ← kHeapAlloc procMemSize
  if esi = 0 then return 0
  else
    rewrite esi fun _ f => processObject processTypeV86 f
    match ← onRam createPageDirectory with
    | none =>
      kHeapFree esi
      return 0
    | some dir =>
      store esi procPageDir dir
      if ← onRam (v86MapLowMemory dir) then return esi
      else processMemoryUndo esi dir

/-- `process_memory_destroy(process_memory)`. -/
def processMemoryDestroy (esi : ℕ) : KM Unit := do
  if esi = 0 then return ()
  else
    let dir ← load esi procPageDir
    onRam fun r => ((), destroyPageDirectory dir r)
    kHeapFree esi

/-- The bytes of the gateway page: the blob, with the selectors of the drivers
patched into its far pointers. -/
def gatewayBytes (g : Gateway) (d : Drivers) : ℕ → ℕ :=
  let patch (f : ℕ → ℕ) (pointer sel : ℕ) : ℕ → ℕ :=
    Function.update (Function.update f (pointer + 4) (sel % 2 ^ 8)) (pointer + 5) (sel / 2 ^ 8 % 2 ^ 8)
  let f := fun o => if o < g.size then g.bytes o else 0
  let f := patch f g.keyboardPointer d.keyboardGateSelector
  let f := patch f g.graphicsPointer d.graphicsGateSelector
  let f := patch f g.mousePointer d.mouseGateSelector
  patch f g.audioPointer d.azaliaGateSelector

/-- `process_install_syscall_gateway(process)` on a directory; when the
temporary mapping cannot be removed the page is not freed. -/
def installGateway (pd : ℕ) (f : ℕ → ℕ) (r : Ram) : Bool × Ram :=
  match pmmAllocPage r with
  | (0, r) => (false, r)
  | (ebx, r) =>
    match fillTempPage ebx f r with
    | (.mapFailed, r) => (false, pmmFreePage ebx r)
    | (.unmapFailed, r) => (false, r)
    | (.done, r) =>
      match mapUserPage pd userSyscallGatewayPage ebx (pagePresentUser ||| pageOwned) r with
      | (true, r) => (true, r)
      | (false, r) => (false, pmmFreePage ebx r)

/-- `process_install_syscall_gateway(process)`. -/
def processInstallSyscallGateway (esi : ℕ) : KM Bool := do
  let k ← get
  let dir := k.mem esi procPageDir
  if esi = 0 ∨ dir = 0 then return false
  else onRam (installGateway dir (pageOfBytes (gatewayBytes k.gateway k.drivers)))

/-- `process_heap_grow(process_memory)`: the new page, or 0. -/
def processHeapGrow (esi : ℕ) : KM ℕ := do
  let k ← get
  let edx := k.mem esi procHeapCurrent
  if esi = 0 ∨ k.mem esi procHeapLimit ≤ edx then return 0
  else
    if ← onRam (allocMapPage (k.mem esi procPageDir) edx (pagePresentRwUser ||| pageOwned)
        userHeapPage) then
      store esi procHeapCurrent (add32 edx pageSize)
      return edx
    else return 0

/-! ### Destroying a process -/

/-- `graphics_release_process`. -/
def graphicsReleaseProcess (esi : ℕ) : KM Unit :=
  modify fun k =>
    let eax := k.mem esi procTssSelector
    if k.drivers.graphicsReady ≠ 1 ∨ eax = 0 ∨ eax ≠ k.drivers.mem 0x71008000 then k
    else { k with drivers :=
      { k.drivers with mem := Function.update k.drivers.mem 0x71008000 0 } }

/-- Release the resource named by the field `off` unless it is `none`, then
clear the field. -/
def releaseField (esi off none : ℕ) (release : ℕ → KM Unit) : KM Unit := do
  let eax ← load esi off
  if eax = none then return ()
  else
    release eax
    store esi off none

/-- `process_destroy(process)` after the process has left the scheduler. -/
def processTeardown (esi : ℕ) : KM Unit := do
  processUnregister esi
  graphicsReleaseProcess esi
  releaseField esi procTssSelector 0 gdtFreeSelector
  releaseField esi procTssBase 0 kHeapFree
  releaseField esi procKstackTop 0 fun eax => kHeapFree (sub32 eax pageSize)
  releaseField esi procLdtSelector 0 gdtFreeSelector
  releaseField esi procLdtBitmap 0 kHeapFree
  releaseField esi procLdtBase 0 kHeapFree
  releaseField esi procSlotIndex noIndex fun eax => do
    processSlotFree eax
    store esi procSlotBase 0
  releaseField esi procPageDir 0 fun eax => onRam fun r => ((), destroyPageDirectory eax r)
  kHeapFree esi

/-- `process_destroy(process)`. -/
def processDestroy (esi : ℕ) : KM Unit := do
  if esi = 0 then return ()
  else
    let eax ← kSchedulerRemoveProcess esi
    if eax = 0 then return () else processTeardown esi

/-! ### Creating a process -/

/-- `process_create_destroy_process`. -/
def processCreateUndo (esi : ℕ) : KM ℕ := do
  processDestroy esi
  return 0

/-- The end of both constructors: enter the process table and the scheduler. -/
def processPublish (esi : ℕ) : KM ℕ := do
  let eax ← processRegister esi
  if eax = 0 then processCreateUndo esi
  else
    let eax ← kSchedulerAddProcess esi
    if eax = 0 then processCreateUndo esi else return esi

/-- `process_create_protected32`: the process object, or 0. -/
def processCreateProtected32 : KM ℕ := do
  let esi ← processMemoryCreate
  if esi = 0 then return 0
  else
    store esi procType processTypeProtected32
    match ← processSlotAlloc with
    | none =>
      processMemoryDestroy esi
      return 0
    | some (slot, base) =>
      rewrite esi fun _ f => Function.update (Function.update f procSlotIndex slot) procSlotBase base
      let eax ← processCreateRandomLdt esi base
      if eax = 0 then
        processSlotFree slot
        processMemoryDestroy esi
        return 0
      else
        if ← processCreateTss esi then
          if ← processInstallSyscallGateway esi then processPublish esi
          else processCreateUndo esi
        else processCreateUndo esi

/-- `v86_process_create`. -/
def v86ProcessCreate : KM ℕ := do
  let esi ← v86ProcessMemoryCreate
  if esi = 0 then return 0
  else
    if ← v86ProcessCreateTss esi then processPublish esi
    else processCreateUndo esi

/-- `process_create(process_type)`. -/
def processCreate (type : ℕ) : KM ℕ :=
  if type = processTypeProtected32 then processCreateProtected32
  else if type = processTypeV86 then v86ProcessCreate
  else pure 0

/-! ### Loading a test image -/

/-- The linear entry address of `process_prepare_test_task`: the entry of the
TSS resolved through the code descriptor in the LDT, when all checks pass. -/
def entryAddress (k : Kernel) (esi : ℕ) : Option ℕ :=
  let tss := k.mem esi procTssBase
  let eip := k.mem tss tssEip
  let cs := k.mem tss tssCs % 2 ^ 16
  let off := cs &&& 0xFFF8
  let ldt := k.mem esi procLdtBase
  let low := k.mem ldt off
  let high := k.mem ldt (off + 4)
  let edx := descriptorBase (low, high) + eip
  if tss = 0 ∨ userCodeSize ≤ eip ∨ ¬cs.testBit 2 ∨ ldtSize - 8 < off ∨ ldt = 0 then none
  else if ¬high.testBit 15 ∨ ¬high.testBit 11 then none
  else if 2 ^ 32 ≤ edx ∨ userSpaceLimit ≤ edx then none
  else some edx

/-- The code page: zero, with the `size` bytes of the image at the entry. -/
def imageBytes (entry size : ℕ) (image : ℕ → ℕ) (o : ℕ) : ℕ :=
  if entry % pageSize ≤ o ∧ o < entry % pageSize + size then image (o - entry % pageSize) else 0

/-- `process_prepare_test_task(process, source, size)`; `image` are the bytes at
`source`.  The caller passes an address at which `size` bytes can be read. -/
def processPrepareTestTask (esi source size : ℕ) (image : ℕ → ℕ) : KM ℕ := do
  let k ← get
  if esi = 0 ∨ source = 0 ∨ size = 0 ∨ pageSize < size then return 0
  else
    match entryAddress k esi with
    | none => return 0
    | some edx =>
      if pageSize < edx % pageSize + size then return 0
      else
        let flags := pagePresentRwUser ||| pageOwned
        let page := pageOfBytes (imageBytes edx size image)
        if ← onRam (allocMapPage (k.mem esi procPageDir) (pageAddr edx) flags page) then
          let top := add32 (k.mem esi procSlotBase) (userStackOffset + userStackSize - pageSize)
          if ← onRam (allocMapPage (k.mem esi procPageDir) top flags fun _ => 0) then return 1
          else return 0
        else return 0

end VirtualKernel
