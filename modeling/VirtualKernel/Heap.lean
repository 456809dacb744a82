/-
The kernel heap of `VirtualKernel.asm`: `heap_init` through `heap_validate`.

The heap lives at `KHEAP_BASE` and is a list of blocks, each with a 16-byte
header (magic, payload size, flag, link).  `Heap.hdr` is the header memory,
indexed by the address of the header.  Growing by a page needs a physical page
and a mapping; `commit v w` stands for `pmm_alloc_page` followed by
`map_page v …` on a state `w` of the memory below, and says whether both
succeeded.

Every walk along the links has the fuel `walkFuel`.  A walk over distinct
32-bit addresses that does not end within it never ends, so `none` is a walk
that does not return.
-/
import VirtualKernel.Lib.Word
import Mathlib.Logic.Function.Basic

namespace VirtualKernel

open Lib

abbrev pageSize : ℕ := 0x1000
abbrev kheapBase : ℕ := 0x80400000
abbrev kheapMaxSize : ℕ := 0x00400000
abbrev heapMagic : ℕ := 0xC0DEF00D
abbrev heapFlagUsed : ℕ := 1
abbrev heapFlagFree : ℕ := 0
abbrev heapHdrSize : ℕ := 16
abbrev heapMinSplit : ℕ := heapHdrSize + 8

/-- Bound on the steps of a walk along 32-bit links. -/
def walkFuel : ℕ := 2 ^ 32

/-- The four header words of a heap block. -/
structure Header where
  magic : ℕ
  size : ℕ
  flag : ℕ
  next : ℕ
deriving DecidableEq, Repr

/-- The heap variables and the header memory. -/
structure Heap where
  hdr : ℕ → Header
  head : ℕ
  committed : ℕ
  limit : ℕ

/-! ### Coalescing -/

/-- The loop of `heap_coalesce` from the block `esi` on. -/
def heapCoalesceLoop : ℕ → ℕ → (ℕ → Header) → Option (ℕ → Header)
  | 0, _, _ => none
  | fuel + 1, esi, hdr =>
    if esi = 0 then some hdr
    else
      let ebx := (hdr esi).next
      if ebx = 0 then some hdr
      else if (hdr esi).flag = heapFlagFree ∧ (hdr ebx).flag = heapFlagFree ∧
          add32 (add32 esi heapHdrSize) (hdr esi).size = ebx then
        -- absorb the neighbour and look at the same block again
        heapCoalesceLoop fuel esi
          (Function.update hdr esi { hdr esi with
            size := add32 (hdr esi).size (add32 (hdr ebx).size heapHdrSize)
            next := (hdr ebx).next })
      else heapCoalesceLoop fuel ebx hdr

def heapCoalesce (h : Heap) : Option Heap :=
  (heapCoalesceLoop walkFuel h.head h.hdr).map fun hdr => { h with hdr := hdr }

/-! ### Growth -/

/-- The last block of the list that starts at `edx`. -/
def heapFindTail (hdr : ℕ → Header) : ℕ → ℕ → Option ℕ
  | 0, _ => none
  | fuel + 1, edx =>
    if (hdr edx).next = 0 then some edx else heapFindTail hdr fuel (hdr edx).next

/-- Link the block `esi` behind the last block of the list. -/
def heapLinkTail (h : Heap) (esi : ℕ) : Option Heap :=
  if h.head = 0 then some { h with head := esi }
  else (heapFindTail h.hdr walkFuel h.head).map fun edx =>
    { h with hdr := Function.update h.hdr edx { h.hdr edx with next := esi } }

/-- The header written at the start of a new page. -/
def heapPageHeader : Header where
  magic := heapMagic
  size := pageSize - heapHdrSize
  flag := heapFlagFree
  next := 0

section Growth

variable {σ : Type} (commit : ℕ → σ → Bool × σ)

/-- `heap_grow_one_page`: append one page as a free block and coalesce. -/
def heapGrowOnePage (h : Heap) (w : σ) : Option (ℕ × Heap × σ) :=
  if h.limit ≤ h.committed then some (0, h, w)
  else
    match commit h.committed w with
    | (false, w) => some (0, h, w)
    | (true, w) => do
      let esi := h.committed
      let h ← heapLinkTail { h with hdr := Function.update h.hdr esi heapPageHeader } esi
      let h ← heapCoalesce { h with committed := add32 h.committed pageSize }
      return (1, h, w)

/-- The loop of `heap_grow_pages`; a page that cannot be added ends it. -/
def heapGrowPagesNext : ℕ → Heap → σ → Option (ℕ × Heap × σ)
  | 0, h, w => some (1, h, w)
  | ecx + 1, h, w => do
    let (eax, h, w) ← heapGrowOnePage commit h w
    if eax = 0 then return (0, h, w)
    heapGrowPagesNext ecx h w

/-- `heap_grow_pages(count)`. -/
def heapGrowPages (count : ℕ) (h : Heap) (w : σ) : Option (ℕ × Heap × σ) :=
  if count = 0 then some (0, h, w) else heapGrowPagesNext commit count h w

/-- `heap_init`. -/
def heapInit (hdr : ℕ → Header) (w : σ) : Option (ℕ × Heap × σ) :=
  heapGrowOnePage commit
    { hdr := hdr, head := 0, committed := kheapBase, limit := kheapBase + kheapMaxSize } w

/-! ### Allocation -/

/-- How the scan of `heap_alloc` ends. -/
inductive HeapScan
  | found (esi : ℕ)
  | needGrow
  | corrupt
deriving DecidableEq, Repr

/-- `heap_alloc_scan`: the first free block of at least `ebx` bytes. -/
def heapAllocScan (hdr : ℕ → Header) (ebx : ℕ) : ℕ → ℕ → Option HeapScan
  | 0, _ => none
  | fuel + 1, esi =>
    if esi = 0 then some .needGrow
    else if (hdr esi).magic ≠ heapMagic then some .corrupt
    else if (hdr esi).flag ≠ heapFlagFree then heapAllocScan hdr ebx fuel (hdr esi).next
    else if (hdr esi).size < ebx then heapAllocScan hdr ebx fuel (hdr esi).next
    else some (.found esi)

/-- Take `ebx` bytes of the free block `esi`: split off the rest when it is
large enough for a block of its own, then mark the block used. -/
def heapTakeBlock (hdr : ℕ → Header) (esi ebx : ℕ) : ℕ → Header :=
  let ecx := (hdr esi).size - ebx
  if ecx < heapMinSplit then
    Function.update hdr esi { hdr esi with flag := heapFlagUsed }
  else
    let edi := add32 (add32 esi heapHdrSize) ebx
    let hdr' := Function.update hdr edi
      { magic := heapMagic, size := ecx - heapHdrSize, flag := heapFlagFree
        next := (hdr esi).next }
    Function.update hdr' esi { hdr' esi with size := ebx, flag := heapFlagUsed, next := edi }

/-- Pages requested by `heap_alloc_need_grow` for a rounded request. -/
def heapGrowCount (ebx : ℕ) : ℕ := add32 (add32 ebx heapHdrSize) (pageSize - 1) / pageSize

/-- `heap_alloc_retry_scan`: scan, grow when nothing fits, scan again. -/
def heapAllocRetry (ebx : ℕ) : ℕ → Heap → σ → Option (ℕ × Heap × σ)
  | 0, _, _ => none
  | fuel + 1, h, w => do
    match ← heapAllocScan h.hdr ebx walkFuel h.head with
    | .corrupt => return (0, h, w)
    | .found esi => return (add32 esi heapHdrSize, { h with hdr := heapTakeBlock h.hdr esi ebx }, w)
    | .needGrow =>
      let (eax, h, w) ← heapGrowPages commit (heapGrowCount ebx) h w
      if eax = 0 then return (0, h, w)
      heapAllocRetry ebx fuel h w

/-- The request rounded up to a multiple of 8 (`add ebx, 7` /
`and ebx, 0FFFFFFF8h`, modulo `2 ^ 32`). -/
def heapRound (size : ℕ) : ℕ := add32 size 7 / 8 * 8

/-- `heap_alloc(size)`: the payload pointer, or 0. -/
def heapAlloc (size : ℕ) (h : Heap) (w : σ) : Option (ℕ × Heap × σ) :=
  if size = 0 then some (0, h, w) else heapAllocRetry commit (heapRound size) walkFuel h w

end Growth

/-! ### Freeing and validation -/

/-- `heap_free(ptr)`. -/
def heapFree (ptr : ℕ) (h : Heap) : Option Heap :=
  if ptr = 0 then some h
  else
    let esi := sub32 ptr heapHdrSize
    if (h.hdr esi).magic ≠ heapMagic then some h
    else if (h.hdr esi).flag ≠ heapFlagUsed then some h
    else
      let freed : Header := { h.hdr esi with flag := heapFlagFree }
      heapCoalesce { h with hdr := Function.update h.hdr esi freed }

/-- The loop of `heap_validate`: 1 for a list in order, 0 for corruption.
`dword a off` is the dword at `[a + off]`; where it is `none` the page is not mapped,
the processor faults, and `heap_validate` does not return. -/
def heapValidateLoop (dword : ℕ → ℕ → Option ℕ) (committed : ℕ) : ℕ → ℕ → Option ℕ
  | 0, _ => none
  | fuel + 1, esi =>
    if esi = 0 then some 1
    else if esi < kheapBase then some 0
    else if committed ≤ esi then some 0
    else do
      let magic ← dword esi 0
      if magic ≠ heapMagic then return 0
      else
        let size ← dword esi 4
        if size = 0 then return 0
        else
          let flag ← dword esi 8
          if flag ≠ heapFlagFree ∧ flag ≠ heapFlagUsed then return 0
          -- the end of the block, modulo `2 ^ 32`
          else if committed < add32 (add32 esi heapHdrSize) size then return 0
          else
            let ebx ← dword esi 12
            if ebx = 0 then return 1
            else if ebx ≤ esi then return 0
            else if committed < ebx then return 0
            else if flag ≠ heapFlagFree then heapValidateLoop dword committed fuel ebx
            else
              -- `ebx` may be `heap_committed`, behind which nothing need be mapped
              let neighbour ← dword ebx 8
              if neighbour ≠ heapFlagFree then heapValidateLoop dword committed fuel ebx
              else if add32 (add32 esi heapHdrSize) size = ebx then return 0
              else heapValidateLoop dword committed fuel ebx

/-- The dword at `[a + off]` of the header at `a`: the pages from `KHEAP_BASE` up to
`heap_committed` are mapped. -/
def Heap.dword (h : Heap) (a off : ℕ) : Option ℕ :=
  if kheapBase ≤ a ∧ a + off + 4 ≤ h.committed then
    some (if off = 0 then (h.hdr a).magic else if off = 4 then (h.hdr a).size
      else if off = 8 then (h.hdr a).flag else (h.hdr a).next)
  else none

/-- `heap_validate()`. -/
def heapValidate (h : Heap) : Option ℕ := heapValidateLoop h.dword h.committed walkFuel h.head

end VirtualKernel
