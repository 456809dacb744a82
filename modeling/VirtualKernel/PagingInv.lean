/-
The invariant of physical memory and address spaces.

A set `D` of live directories splits the page-table pool: a page of the pool is
a live directory, a user table of one, a table of the kernel's own directory,
or on the free list (`NodeAt`).  In the same way every used physical page has
one reason to be used (`PageAt`): a `PAGE_OWNED` entry of a live directory, the
kernel heap, a routine that has just allocated it, or something else (`O`).
`RamInv` says that both accounts are exact.  `DirFrame D r r'` says that the
directories of `D` are the same in `r'` as in `r`.
-/
import VirtualKernel.Paging
import VirtualKernel.Lib.FreePool
import VirtualKernel.Lib.Ledger

namespace VirtualKernel

open Lib

/-! ### Tables of a directory -/

/-- The user table of the directory `d` at entry `i`. -/
def tableOf (r : Ram) (d i : ℕ) : Option ℕ :=
  if i < 512 ∧ present (r.frame d i) ∧ userBit (r.frame d i) ∧ ¬psBit (r.frame d i) then
    some (pageAddr (r.frame d i))
  else none

/-- The table of the kernel's own directory at entry `i`. -/
def ktableOf (r : Ram) (i : ℕ) : Option ℕ :=
  if i < 1024 ∧ present (r.frame pageDirBase i) ∧ ¬psBit (r.frame pageDirBase i) then
    some (pageAddr (r.frame pageDirBase i))
  else none

/-- The places in which a page of the pool can be in use. -/
inductive Node
  | dir (d : ℕ)
  | table (d i : ℕ)
  | ktable (i : ℕ)

/-- The page of the pool at a place. -/
def NodeAt (r : Ram) (D : ℕ → Prop) : Node → ℕ → Prop
  | .dir d, a => D d ∧ a = d
  | .table d i, a => D d ∧ tableOf r d i = some a
  | .ktable i, a => ktableOf r i = some a

/-- The directory entry of the kernel heap, `KHEAP_BASE shr 22`. -/
abbrev kheapPde : ℕ := 0x201

/-- Page numbers that `pmm_init` leaves free: main RAM without the three
reserved ranges. -/
def Allocatable (n : ℕ) : Prop :=
  mainRamStart / pageSize ≤ n ∧ n < mainRamEnd / pageSize ∧
    ¬(0x30000000 / pageSize ≤ n ∧ n < 0x30800000 / pageSize) ∧
    ¬(0x32000000 / pageSize ≤ n ∧ n < 0x32400000 / pageSize) ∧
    ¬(0x34000000 / pageSize ≤ n ∧ n < 0x34400000 / pageSize)

instance : DecidablePred Allocatable := fun n => by unfold Allocatable; infer_instance

/-- The page number of a `PAGE_OWNED` entry of the directory `d`. -/
def ownedAt (r : Ram) (d i j : ℕ) : Option ℕ :=
  (tableOf r d i).bind fun t =>
    if j < 1024 ∧ present (r.frame t j) ∧ ownedBit (r.frame t j) then
      some (pageAddr (r.frame t j) / pageSize)
    else none

/-- The page number that backs the heap at entry `j` of the heap's table. -/
def heapAt (r : Ram) (j : ℕ) : Option ℕ :=
  (ktableOf r kheapPde).bind fun t =>
    if j < 1024 ∧ present (r.frame t j) then some (pageAddr (r.frame t j) / pageSize) else none

/-- The reasons for a physical page to be in use. -/
inductive PageOwner
  | other
  | pending
  | pte (d i j : ℕ)
  | heap (j : ℕ)

/-- `PageAt own heap O D pend x n`: the page number `n` is in use for the
reason `x`.  `own d i j` and `heap j` are the pages of the entries of user
tables and of the heap's table. -/
def PageAt (own : ℕ → ℕ → ℕ → Option ℕ) (heap : ℕ → Option ℕ) (O D : ℕ → Prop) (pend : Option ℕ) :
    PageOwner → ℕ → Prop
  | .other, n => O n
  | .pending, n => pend = some n
  | .pte d i j, n => D d ∧ own d i j = some n
  | .heap j, n => heap j = some n

/-- The account of physical pages: `O` are the pages used for other reasons,
`D` the live directories, `pend` a page on its way into a mapping. -/
structure PageInv (own : ℕ → ℕ → ℕ → Option ℕ) (heap : ℕ → Option ℕ) (used : ℕ → Bool) (next : ℕ)
    (O D : ℕ → Prop) (pend : Option ℕ) : Prop where
  ledger : Ledger (PageAt own heap O D pend) fun n => used n = true
  ok : ∀ x n, PageAt own heap O D pend x n → x ≠ .other → Allocatable n
  reserved : ∀ n, ¬Allocatable n → O n
  hint : ∀ n, mainRamStart / pageSize ≤ n → n < next → used n = true

/-- The invariant of directories and tables, `c` being the committed end of
the kernel heap. -/
structure TableInv (r : Ram) (D : ℕ → Prop) (c : ℕ) : Prop where
  pool : FreePool pageSize pageTablePoolBase pageTablePoolEnd (fun a => r.frame a 0)
    r.pageTableFreeList r.pageTableNext fun a => ∃ x, NodeAt r D x a
  node_inj : ∀ {x y a}, NodeAt r D x a → NodeAt r D y a → x = y
  kernel_pde : ∀ i < 1024, r.frame pageDirBase i = 0 ∨
    present (r.frame pageDirBase i) ∧ ¬userBit (r.frame pageDirBase i)
  dir_pde : ∀ d, D d → ∀ i < 1024, r.frame d i = kernelCopy r i ∨
    kernelCopy r i = 0 ∧ (tableOf r d i).isSome
  user_pde : ∀ d i t, D d → tableOf r d i = some t → writeBit (r.frame d i) = true
  user_pte : ∀ d i t, D d → tableOf r d i = some t → ∀ j < 1024,
    r.frame t j = 0 ∨ present (r.frame t j) ∧ userBit (r.frame t j)
  heap_tail : ∀ t, ktableOf r kheapPde = some t → ∀ j, (c - kheapBase) / pageSize ≤ j → j < 1024 →
    r.frame t j = 0

/-- **The invariant of physical memory.** -/
structure RamInv (r : Ram) (O D : ℕ → Prop) (pend : Option ℕ) (c : ℕ) : Prop where
  tables : TableInv r D c
  pages : PageInv (ownedAt r) (heapAt r) r.used r.pmmNextPage O D pend

/-- The directories of `D`, their tables and the kernel's directory are the
same in `r'`. -/
structure DirFrame (D : ℕ → Prop) (r r' : Ram) : Prop where
  kernel : r'.frame pageDirBase = r.frame pageDirBase
  dir : ∀ d, D d → r'.frame d = r.frame d
  table : ∀ d i t, D d → tableOf r d i = some t → r'.frame t = r.frame t

/-- The kernel's directory and its tables are the same in `r'`. -/
structure KernelFrame (r r' : Ram) : Prop where
  dir : r'.frame pageDirBase = r.frame pageDirBase
  table : ∀ i t, ktableOf r i = some t → r'.frame t = r.frame t

section Views

variable {r r' : Ram} {D : ℕ → Prop}

theorem tableOf_congr {d : ℕ} (h : r'.frame d = r.frame d) (i : ℕ) :
    tableOf r' d i = tableOf r d i := by
  rw [tableOf, tableOf, h]

theorem ktableOf_congr (h : r'.frame pageDirBase = r.frame pageDirBase) (i : ℕ) :
    ktableOf r' i = ktableOf r i := by
  rw [ktableOf, ktableOf, h]

theorem kernelCopy_congr (h : r'.frame pageDirBase = r.frame pageDirBase) (i : ℕ) :
    kernelCopy r' i = kernelCopy r i := by
  rw [kernelCopy, kernelCopy, h]

namespace DirFrame

theorem refl (D : ℕ → Prop) (r : Ram) : DirFrame D r r :=
  ⟨rfl, fun _ _ => rfl, fun _ _ _ _ _ => rfl⟩

theorem of_frame (hf : r'.frame = r.frame) : DirFrame D r r' :=
  ⟨by rw [hf], fun _ _ => by rw [hf], fun _ _ _ _ _ => by rw [hf]⟩

theorem mono {D' : ℕ → Prop} (h : DirFrame D r r') (hD : ∀ d, D' d → D d) : DirFrame D' r r' :=
  ⟨h.kernel, fun d hd => h.dir d (hD d hd), fun d i t hd ht => h.table d i t (hD d hd) ht⟩

theorem tableOf_eq (h : DirFrame D r r') {d : ℕ} (hd : D d) (i : ℕ) :
    tableOf r' d i = tableOf r d i := tableOf_congr (h.dir d hd) i

theorem trans {r'' : Ram} (h : DirFrame D r r') (h' : DirFrame D r' r'') : DirFrame D r r'' where
  kernel := h'.kernel.trans h.kernel
  dir := fun d hd => (h'.dir d hd).trans (h.dir d hd)
  table := fun d i t hd ht =>
    (h'.table d i t hd ((h.tableOf_eq hd i).trans ht)).trans (h.table d i t hd ht)

theorem ownedAt_eq (h : DirFrame D r r') {d : ℕ} (hd : D d) (i j : ℕ) :
    ownedAt r' d i j = ownedAt r d i j := by
  rw [ownedAt, ownedAt, h.tableOf_eq hd]
  cases ht : tableOf r d i with
  | none => rfl
  | some t => simp only [Option.bind_some, h.table d i t hd ht]

/-- Writing a page that is neither the kernel's directory nor a page of a
directory of `D`. -/
theorem setPage {a : ℕ} (f : ℕ → ℕ) (hk : a ≠ pageDirBase) (hd : ∀ d, D d → a ≠ d)
    (ht : ∀ d i t, D d → tableOf r d i = some t → a ≠ t) : DirFrame D r (r.setPage a f) where
  kernel := Function.update_of_ne hk.symm _ _
  dir := fun d h => Function.update_of_ne (hd d h).symm _ _
  table := fun d i t h1 h2 => Function.update_of_ne (ht d i t h1 h2).symm _ _

end DirFrame

end Views

end VirtualKernel
