/-
Physical pages, page tables and address spaces: `pmm_init` through
`get_physical_address`, and the routines that fill one page through the
temporary windows of the kernel.

`Ram.used` is the PMM bitmap by page number.  `Ram.frame a` is the page at the
physical address `a`, read as 1024 words; page directories and page tables are
frames.  A routine that reports success in the carry flag returns a `Bool` or
an `Option`.
-/
import VirtualKernel.Heap

namespace VirtualKernel

open Lib

abbrev mainRamStart : ℕ := 0x00100000
abbrev mainRamEnd : ℕ := 0x3F780000
abbrev pageTablePoolBase : ℕ := 0x30500000
abbrev pageTablePoolEnd : ℕ := 0x30800000
abbrev pageDirBase : ℕ := 0x30030000
abbrev userSpaceLimit : ℕ := 0x80000000
abbrev kernelTempPage : ℕ := 0x80800000
abbrev kernelTempSource : ℕ := 0x80801000

abbrev pagePresentRw : ℕ := 0x003
abbrev pagePresentUser : ℕ := 0x005
abbrev pagePresentRwUser : ℕ := 0x007
abbrev pageOwned : ℕ := 0x200

/-- The flag bits of a page-table word. -/
def present (e : ℕ) : Bool := e.testBit 0
def writeBit (e : ℕ) : Bool := e.testBit 1
def userBit (e : ℕ) : Bool := e.testBit 2
def psBit (e : ℕ) : Bool := e.testBit 7
def ownedBit (e : ℕ) : Bool := e.testBit 9

/-- The memory below the kernel heap. -/
structure Ram where
  used : ℕ → Bool
  pmmNextPage : ℕ
  frame : ℕ → ℕ → ℕ
  pageTableNext : ℕ
  pageTableFreeList : ℕ

/-! ### Physical pages -/

def pmmMarkRangeFree (start stop : ℕ) (r : Ram) : Ram :=
  { r with used := fun n => if start / pageSize ≤ n ∧ n < stop / pageSize then false else r.used n }

def pmmMarkRangeUsed (start stop : ℕ) (r : Ram) : Ram :=
  { r with used := fun n => if start / pageSize ≤ n ∧ n < stop / pageSize then true else r.used n }

/-- `pmm_init`. -/
def pmmInit (r : Ram) : Ram :=
  let r := { r with used := fun _ => true }
  let r := pmmMarkRangeFree mainRamStart mainRamEnd r
  let r := pmmMarkRangeUsed 0x30000000 0x30800000 r
  let r := pmmMarkRangeUsed 0x32000000 0x32400000 r
  pmmMarkRangeUsed 0x34000000 0x34400000 r

/-- `pmm_alloc_page`: the first free page from the hint on, or 0. -/
def pmmAllocPage (r : Ram) : ℕ × Ram :=
  let scan := List.range' r.pmmNextPage (mainRamEnd / pageSize - r.pmmNextPage)
  match scan.find? fun n => !r.used n with
  | none => (0, r)
  | some n => (n * pageSize, { r with used := Function.update r.used n true, pmmNextPage := n + 1 })

/-- `pmm_free_page(phys)`. -/
def pmmFreePage (phys : ℕ) (r : Ram) : Ram :=
  if phys = 0 then r
  else
    let n := phys / pageSize
    { r with used := Function.update r.used n false
             pmmNextPage := if n < r.pmmNextPage then n else r.pmmNextPage }

/-! ### The page-table pool -/

/-- Replace the page at `a`. -/
def Ram.setPage (r : Ram) (a : ℕ) (f : ℕ → ℕ) : Ram :=
  { r with frame := Function.update r.frame a f }

/-- Replace one word of the page at `a`. -/
def Ram.setWord (r : Ram) (a i v : ℕ) : Ram :=
  r.setPage a (Function.update (r.frame a) i v)

@[simp] theorem Ram.frame_setPage_self (r : Ram) (a : ℕ) (f : ℕ → ℕ) :
    (r.setPage a f).frame a = f := Function.update_self _ _ _

theorem Ram.frame_setPage_of_ne (r : Ram) {a b : ℕ} (f : ℕ → ℕ) (h : b ≠ a) :
    (r.setPage a f).frame b = r.frame b := Function.update_of_ne h _ _

@[simp] theorem Ram.frame_setWord_self (r : Ram) (a i v : ℕ) :
    (r.setWord a i v).frame a = Function.update (r.frame a) i v := Function.update_self _ _ _

theorem Ram.frame_setWord_of_ne (r : Ram) {a b : ℕ} (i v : ℕ) (h : b ≠ a) :
    (r.setWord a i v).frame b = r.frame b := Function.update_of_ne h _ _

/-- `alloc_page_table`: a zeroed page of the pool. -/
def allocPageTable (r : Ram) : Option ℕ × Ram :=
  if r.pageTableFreeList ≠ 0 then
    let eax := r.pageTableFreeList
    let r := { r with pageTableFreeList := r.frame eax 0 }
    (some eax, r.setPage eax fun _ => 0)
  else
    let eax := r.pageTableNext
    if pageTablePoolEnd ≤ eax then (none, r)
    else
      let r := { r with pageTableNext := add32 eax pageSize }
      (some eax, r.setPage eax fun _ => 0)

/-- `free_page_table(page)`: push the page on the list threaded through the
first words of the free pages. -/
def freePageTable (page : ℕ) (r : Ram) : Ram :=
  if page = 0 ∨ page < pageTablePoolBase ∨ pageTablePoolEnd ≤ page ∨ page % pageSize ≠ 0 then r
  else { r.setWord page 0 r.pageTableFreeList with pageTableFreeList := page }

/-! ### Mappings -/

/-- `map_page(virt, phys, flags)` in the kernel's own directory, where the entry of `virt`
is absent or has a table of the pool.  The pool is mapped one to one, so the entry is
written at its physical address; `mapPage` below is the routine without this assumption. -/
def mapPagePool (virt phys flags : ℕ) (r : Ram) : Bool × Ram :=
  let pte := pageAddr phys ||| flags ||| pagePresentRw
  let i := virt / 2 ^ 22
  let j := virt / 2 ^ 12 % 2 ^ 10
  if present (r.frame pageDirBase i) then
    (true, r.setWord (pageAddr (r.frame pageDirBase i)) j pte)
  else
    match allocPageTable r with
    | (none, r) => (false, r)
    | (some t, r) => (true, (r.setWord pageDirBase i (t ||| pagePresentRw)).setWord t j pte)

/-- `map_user_page(page_dir, virt, phys, flags)`. -/
def mapUserPage (pd virt phys flags : ℕ) (r : Ram) : Bool × Ram :=
  let pte := pageAddr phys ||| (flags % 2 ^ 12 ||| pagePresentUser)
  let i := virt / 2 ^ 22
  let j := virt / 2 ^ 12 % 2 ^ 10
  if pd = 0 ∨ userSpaceLimit ≤ virt ∨ virt % pageSize ≠ 0 ∨ phys % pageSize ≠ 0 then (false, r)
  else if present (r.frame pd i) then
    if psBit (r.frame pd i) ∨ ¬userBit (r.frame pd i) then (false, r)
    else (true, r.setWord (pageAddr (r.frame pd i)) j pte)
  else
    match allocPageTable r with
    | (none, r) => (false, r)
    | (some t, r) => (true, (r.setWord pd i (t ||| pagePresentRwUser)).setWord t j pte)

/-- `unmap_page(page_dir, virt)`: the page that was mapped. -/
def unmapPage (pd virt : ℕ) (r : Ram) : Option ℕ × Ram :=
  let pde := r.frame pd (virt / 2 ^ 22)
  let j := virt / 2 ^ 12 % 2 ^ 10
  if pd = 0 ∨ ¬present pde ∨ psBit pde then (none, r)
  else
    let pte := r.frame (pageAddr pde) j
    if ¬present pte then (none, r)
    else (some (pageAddr pte), r.setWord (pageAddr pde) j 0)

/-- `get_physical_address(page_dir, virt)`; `none` is the carry flag. -/
def getPhysicalAddress (pd virt : ℕ) (r : Ram) : Option ℕ :=
  let pde := r.frame pd (virt / 2 ^ 22)
  if pd = 0 ∨ ¬present pde then none
  else if psBit pde then some ((pde &&& 0xFFC00000) ||| (virt &&& 0x003FFFFF))
  else
    let pte := r.frame (pageAddr pde) (virt / 2 ^ 12 % 2 ^ 10)
    if ¬present pte then none else some (pageAddr pte ||| (virt &&& 0xFFF))

/-- Write the word at the linear address `a`; `none` is the page fault of an address that
is not mapped.  CR0.WP is clear, so the kernel may write to every page. -/
def storeLinear (a v : ℕ) (r : Ram) : Option Ram :=
  (getPhysicalAddress pageDirBase a r).map fun p => r.setWord (pageAddr p) (p % pageSize / 4) v

/-- `map_page(virt, phys, flags)`.  The entry is written at the linear address that is the
physical address in the directory entry; the size bit is not looked at. -/
def mapPage (virt phys flags : ℕ) (r : Ram) : Option (Bool × Ram) :=
  let pte := pageAddr phys ||| flags ||| pagePresentRw
  let i := virt / 2 ^ 22
  let j := virt / 2 ^ 12 % 2 ^ 10
  if present (r.frame pageDirBase i) then
    (storeLinear (add32 (pageAddr (r.frame pageDirBase i)) (4 * j)) pte r).map fun r => (true, r)
  else
    match allocPageTable r with
    | (none, r) => some (false, r)
    | (some t, r) =>
      (storeLinear (add32 t (4 * j)) pte (r.setWord pageDirBase i (t ||| pagePresentRw))).map
        fun r => (true, r)

/-- The page and the mapping that `heap_grow_one_page` asks for. -/
def heapCommit (virt : ℕ) (r : Ram) : Bool × Ram :=
  match pmmAllocPage r with
  | (0, r) => (false, r)
  | (ebx, r) => mapPagePool virt ebx pagePresentRw r

/-! ### Directories -/

/-- The directory entry that a new process directory takes over from the
kernel's: supervisor entries other than the first. -/
def kernelCopy (r : Ram) (i : ℕ) : ℕ :=
  if i ≠ 0 ∧ present (r.frame pageDirBase i) ∧ ¬userBit (r.frame pageDirBase i) then
    r.frame pageDirBase i
  else 0

/-- `create_page_directory()`. -/
def createPageDirectory (r : Ram) : Option ℕ × Ram :=
  match allocPageTable r with
  | (none, r) => (none, r)
  | (some d, r) => (some d, r.setPage d fun i => if i < 1024 then kernelCopy r i else r.frame d i)

/-- One turn of the inner loop of `destroy_page_directory`. -/
def destroyPte (t : ℕ) (r : Ram) (j : ℕ) : Ram :=
  let e := r.frame t j
  if ¬present e ∨ ¬userBit e then r
  else
    let r := if ownedBit e then pmmFreePage (pageAddr e) r else r
    r.setWord t j 0

/-- One turn of the outer loop of `destroy_page_directory`. -/
def destroyPde (pd : ℕ) (r : Ram) (i : ℕ) : Ram :=
  let e := r.frame pd i
  if ¬present e ∨ ¬userBit e ∨ psBit e then r
  else
    let t := pageAddr e
    let r := (List.range 1024).foldl (destroyPte t) r
    (freePageTable t r).setWord pd i 0

/-- `destroy_page_directory(page_dir)`. -/
def destroyPageDirectory (pd : ℕ) (r : Ram) : Ram :=
  if pd = 0 ∨ pd = pageDirBase then r
  else freePageTable pd ((List.range 512).foldl (destroyPde pd) r)

/-! ### Filling a page through the temporary windows -/

/-- Overwrite the page that the kernel sees at `virt`. -/
def storePage (virt : ℕ) (f : ℕ → ℕ) (r : Ram) : Ram :=
  match getPhysicalAddress pageDirBase virt r with
  | none => r
  | some a => r.setPage a f

/-- How filling a page through `KERNEL_TEMP_PAGE` ends. -/
inductive TempFill
  | mapFailed
  | unmapFailed
  | done
deriving DecidableEq, Repr

/-- Map `phys` at `KERNEL_TEMP_PAGE`, overwrite it with `f` and unmap it: with `userHeapPage`,
`process_memory_init_heap_page`. -/
def fillTempPage (phys : ℕ) (f : ℕ → ℕ) (r : Ram) : TempFill × Ram :=
  match mapPagePool kernelTempPage phys pagePresentRw r with
  | (false, r) => (.mapFailed, r)
  | (true, r) =>
    match unmapPage pageDirBase kernelTempPage (storePage kernelTempPage f r) with
    | (none, r) => (.unmapFailed, r)
    | (some _, r) => (.done, r)

/-- A new user heap page: zero but for one free block header. -/
def userHeapPage (i : ℕ) : ℕ :=
  if i = 0 then heapMagic else if i = 1 then pageSize - heapHdrSize else 0

/-- A page given by its bytes. -/
def pageOfBytes (g : ℕ → ℕ) (i : ℕ) : ℕ :=
  g (4 * i) % 256 + g (4 * i + 1) % 256 * 2 ^ 8 + g (4 * i + 2) % 256 * 2 ^ 16 +
    g (4 * i + 3) % 256 * 2 ^ 24

/-! ### The memory of a VM86 process -/

abbrev v86PrivateEnd : ℕ := 0x000A0000
abbrev v86DeviceEnd : ℕ := 0x000C0000
abbrev v86AddressLimit : ℕ := 0x00100000
abbrev v86EntryLinear : ℕ := 0x00010000

/-- One page of private conventional memory: a copy of the real page, with
a jump to itself at the entry point. -/
def v86PrivatePage (edx : ℕ) (source : ℕ → ℕ) (i : ℕ) : ℕ :=
  if edx = v86EntryLinear ∧ i = 0 then source 0 / 2 ^ 16 * 2 ^ 16 + 0xFEEB else source i

/-- Copy the real page `edx` into the new page `ebx` and map it at `edx`. -/
def v86CopyPrivatePage (pd edx ebx : ℕ) (r : Ram) : Bool × Ram :=
  match mapPagePool kernelTempSource edx pagePresentRw r with
  | (false, r) => (false, pmmFreePage ebx r)
  | (true, r) =>
    match mapPagePool kernelTempPage ebx pagePresentRw r with
    | (false, r) => (false, pmmFreePage ebx (unmapPage pageDirBase kernelTempSource r).2)
    | (true, r) =>
      let source := match getPhysicalAddress pageDirBase kernelTempSource r with
        | none => fun _ => 0
        | some a => r.frame a
      let r := storePage kernelTempPage (v86PrivatePage edx source) r
      match unmapPage pageDirBase kernelTempPage r with
      | (none, r) => (false, pmmFreePage ebx (unmapPage pageDirBase kernelTempSource r).2)
      | (some _, r) =>
        match unmapPage pageDirBase kernelTempSource r with
        | (none, r) => (false, pmmFreePage ebx r)
        | (some _, r) =>
          match mapUserPage pd edx ebx (pagePresentRwUser ||| pageOwned) r with
          | (false, r) => (false, pmmFreePage ebx r)
          | (true, r) => (true, r)

/-- One turn of `v86_map_low_memory_private_loop`. -/
def v86MapPrivatePage (pd edx : ℕ) (r : Ram) : Bool × Ram :=
  match pmmAllocPage r with
  | (0, r) => (false, r)
  | (ebx, r) => v86CopyPrivatePage pd edx ebx r

/-- Run `step` on the pages `edx`, `edx + PAGE_SIZE`, … below `stop`; the first
failure ends the loop. -/
def forPages (step : ℕ → Ram → Bool × Ram) : List ℕ → Ram → Bool × Ram
  | [], r => (true, r)
  | edx :: rest, r =>
    match step edx r with
    | (false, r) => (false, r)
    | (true, r) => forPages step rest r

/-- The page addresses from `start` to below `stop`. -/
def pagesIn (start stop : ℕ) : List ℕ :=
  (List.range' (start / pageSize) (stop / pageSize - start / pageSize)).map (· * pageSize)

/-- `v86_map_low_memory` on the directory of the process: private memory, the
shared device aperture, the shared ROM. -/
def v86MapLowMemory (pd : ℕ) (r : Ram) : Bool × Ram :=
  match forPages (v86MapPrivatePage pd) (pagesIn 0 v86PrivateEnd) r with
  | (false, r) => (false, r)
  | (true, r) =>
    match forPages (fun edx => mapUserPage pd edx edx pagePresentRwUser)
        (pagesIn v86PrivateEnd v86DeviceEnd) r with
    | (false, r) => (false, r)
    | (true, r) =>
      forPages (fun edx => mapUserPage pd edx edx pagePresentUser)
        (pagesIn v86DeviceEnd v86AddressLimit) r

end VirtualKernel
