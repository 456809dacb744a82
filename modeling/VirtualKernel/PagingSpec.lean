/-
What the routines of `Paging` do to `RamInv`.

One lemma for each routine: allocating and freeing a physical page, the two
temporary windows, `map_user_page`, `unmap_page`, opening and destroying a
directory, and backing one more page of the kernel heap.
-/
import VirtualKernel.TablePool

namespace VirtualKernel

open Lib

/-- The directory entry of the two temporary windows, `KERNEL_TEMP_PAGE shr 22`. -/
abbrev tempPde : ℕ := 0x202

/-- The index of `KERNEL_TEMP_PAGE` in the table of the temporary windows. -/
abbrev tempPte : ℕ := 0

/-- Nothing is mapped at `KERNEL_TEMP_PAGE`. -/
def TempClosed (r : Ram) : Prop :=
  ∀ k, ktableOf r tempPde = some k → present (r.frame k tempPte) = false

/-- The kernel tables that exist once booting is over; between the calls the
temporary window is closed. -/
structure Windows (r : Ram) : Prop where
  heap : (ktableOf r kheapPde).isSome
  temp : (ktableOf r tempPde).isSome
  closed : TempClosed r

theorem TempClosed.of_pte {r : Ram} {k : ℕ} (hk : ktableOf r tempPde = some k)
    (hp : present (r.frame k tempPte) = false) : TempClosed r := by
  intro t ht
  obtain rfl : k = t := Option.some.inj (hk.symm.trans ht)
  exact hp

theorem TempClosed.congr {r r' : Ram} (h : TempClosed r) (F : KernelFrame r r') : TempClosed r' := by
  intro k hk
  rw [ktableOf_congr F.dir] at hk
  rw [F.table _ k hk]
  exact h k hk

/-- At most the pages of main RAM and the entry of `KERNEL_TEMP_PAGE` have other
contents. -/
def OnlyScratch (r r' : Ram) : Prop := ∀ a j, (∀ n, Allocatable n → a ≠ n * pageSize) →
  (ktableOf r tempPde = some a → j ≠ kernelTempPage / 2 ^ 12 % 2 ^ 10) → r'.frame a j = r.frame a j

theorem OnlyScratch.congr {r₀ r r' r'' : Ram} (h : OnlyScratch r r') (h₀ : r.frame = r₀.frame)
    (h₁ : r''.frame = r'.frame) : OnlyScratch r₀ r'' := by
  intro a j ha hj
  rw [h₁, ← h₀]
  refine h a j ha fun hk => hj ?_
  rw [← hk]
  exact (ktableOf_congr (by rw [h₀]) _).symm

/-- The allocators are in the same state. -/
structure SameAlloc (r r' : Ram) : Prop where
  used : r'.used = r.used
  hint : r'.pmmNextPage = r.pmmNextPage

section Spec

variable {r r' : Ram} {O D : ℕ → Prop} {pend : Option ℕ} {c : ℕ}

theorem TableInv.congr_frame (H : TableInv r D c) (hf : r'.frame = r.frame)
    (hfl : r'.pageTableFreeList = r.pageTableFreeList)
    (hnx : r'.pageTableNext = r.pageTableNext) : TableInv r' D c := by
  refine H.of_dirs hfl hnx (by rw [hf]) (fun d _ => by rw [hf]) (fun a _ _ => by rw [hf]) ?_ ?_
  · rw [hf]
    exact H.user_pte
  · rw [hf]
    exact H.heap_tail

/-- The directories of `D` are the same in `r'`, and the pages of the kernel
heap still back it. -/
structure HeapFrame (D : ℕ → Prop) (r r' : Ram) : Prop extends DirFrame D r r' where
  heap : ∀ j n, heapAt r j = some n → heapAt r' j = some n

theorem HeapFrame.trans {r'' : Ram} (h : HeapFrame D r r') (h' : HeapFrame D r' r'') :
    HeapFrame D r r'' :=
  ⟨h.toDirFrame.trans h'.toDirFrame, fun j n hj => h'.heap j n (h.heap j n hj)⟩

/-- Moreover the temporary window is not left open. -/
structure RamFrame (D : ℕ → Prop) (r r' : Ram) : Prop extends HeapFrame D r r' where
  closed : TempClosed r → TempClosed r'

namespace RamFrame

theorem of_kernel (h : DirFrame D r r') (hk : KernelFrame r r') : RamFrame D r r' :=
  ⟨⟨h, fun j _ hj => (hk.heapAt_eq j).trans hj⟩, fun hc => hc.congr hk⟩

theorem refl (D : ℕ → Prop) (r : Ram) : RamFrame D r r := ⟨⟨.refl D r, fun _ _ => id⟩, id⟩

theorem of_frame (hf : r'.frame = r.frame) : RamFrame D r r' :=
  of_kernel (.of_frame hf) (.of_frame hf)

theorem mono {D' : ℕ → Prop} (h : RamFrame D r r') (hD : ∀ d, D' d → D d) : RamFrame D' r r' :=
  ⟨⟨h.toDirFrame.mono hD, h.heap⟩, h.closed⟩

theorem trans {r'' : Ram} (h : RamFrame D r r') (h' : RamFrame D r' r'') : RamFrame D r r'' :=
  ⟨h.toHeapFrame.trans h'.toHeapFrame, fun hc => h'.closed (h.closed hc)⟩

end RamFrame

theorem Windows.of_kernel (W : Windows r) (hk : r'.frame pageDirBase = r.frame pageDirBase)
    (hc : TempClosed r → TempClosed r') : Windows r' :=
  ⟨by rw [ktableOf_congr hk]; exact W.heap, by rw [ktableOf_congr hk]; exact W.temp, hc W.closed⟩

theorem Windows.congr (W : Windows r) (F : RamFrame D r r') : Windows r' :=
  W.of_kernel F.kernel F.closed

/-- A change of memory that the two accounts do not see. -/
theorem RamInv.congr (H : RamInv r O D pend c) (ht : TableInv r' D c) (hf : DirFrame D r r')
    (hh : ∀ j, heapAt r' j = heapAt r j) (hs : SameAlloc r r') : RamInv r' O D pend c where
  tables := ht
  pages := by
    rw [hs.used, hs.hint]
    exact H.pages.congr (fun _ => Iff.rfl) (fun d i j hd => hf.ownedAt_eq hd i j) hh

/-! ### Physical pages -/

/-- **`pmm_alloc_page`** fails only when no page of main RAM is free. -/
theorem pmmAllocPage_spec (H : RamInv r O D none c) :
    (pmmAllocPage r = (0, r) ∧ ∀ n, Allocatable n → r.used n = true) ∨
    ∃ n r', pmmAllocPage r = (n * pageSize, r') ∧ Allocatable n ∧ r.used n = false ∧
      r'.used = Function.update r.used n true ∧ r'.frame = r.frame ∧
      r'.pageTableFreeList = r.pageTableFreeList ∧ r'.pageTableNext = r.pageTableNext ∧
      RamInv r' O D (some n) c := by
  rw [pmmAllocPage]
  cases hfind : (List.range' r.pmmNextPage (mainRamEnd / pageSize - r.pmmNextPage)).find?
      fun n => !r.used n with
  | none =>
    -- below the hint every page is used, from there on the search has found none
    refine Or.inl ⟨rfl, fun n hn => ?_⟩
    by_cases hlt : n < r.pmmNextPage
    · exact H.pages.hint n hn.1 hlt
    · have hmem : n ∈ List.range' r.pmmNextPage (mainRamEnd / pageSize - r.pmmNextPage) := by
        have := hn.2.1
        rw [List.mem_range'_1]
        omega
      simpa using List.find?_eq_none.mp hfind n hmem
  | some n =>
    obtain ⟨hp, hmem, hbefore⟩ := List.find?_range'_eq_some.mp hfind
    have hfree : r.used n = false := by simpa using hp
    have hall : Allocatable n := by
      by_contra hna
      rw [H.pages.used_of_not_allocatable hna] at hfree
      cases hfree
    refine Or.inr ⟨n, _, rfl, hall, hfree, rfl, rfl, rfl, rfl, H.tables.congr_frame rfl rfl rfl, ?_⟩
    refine H.pages.alloc hfree fun m h1 h2 => ?_
    by_cases hlt : m < r.pmmNextPage
    · exact H.pages.hint m h1 hlt
    · simpa using hbefore m (by omega) h2

theorem Allocatable.ne_zero {n : ℕ} (h : Allocatable n) : n * pageSize ≠ 0 := by
  have := h.1
  simp only [mainRamStart, pageSize] at this ⊢
  omega

theorem Allocatable.lt_word {n : ℕ} (h : Allocatable n) : n * pageSize < 2 ^ 32 := by
  have := h.2.1
  simp only [mainRamEnd, pageSize] at this ⊢
  omega

theorem Allocatable.pageAddr_eq {n : ℕ} (h : Allocatable n) :
    pageAddr (n * pageSize) = n * pageSize :=
  pageAddr_of_aligned (Nat.mul_mod_left _ _) h.lt_word

/-- Freeing a page that was allocated and not yet mapped. -/
theorem pmmFreePage_pending {n : ℕ} (H : RamInv r O D (some n) c) :
    RamInv (pmmFreePage (n * pageSize) r) O D none c ∧
      (pmmFreePage (n * pageSize) r).frame = r.frame := by
  have hn : Allocatable n := H.pages.ok .pending n rfl (by simp)
  rw [pmmFreePage, if_neg hn.ne_zero, Nat.mul_div_cancel n (by decide)]
  refine ⟨⟨H.tables.congr_frame rfl rfl rfl, ?_⟩, rfl⟩
  exact H.pages.release

/-! ### The temporary windows -/

/-- Writing a page that `pmm_alloc_page` hands out. -/
theorem RamInv.setContent (H : RamInv r O D pend c) {n : ℕ} (hn : Allocatable n) (f : ℕ → ℕ) :
    RamInv (r.setPage (n * pageSize) f) O D pend c ∧ RamFrame D r (r.setPage (n * pageSize) f) := by
  have hres := hn.2.2.1
  have hk : n * pageSize ≠ pageDirBase := by
    simp only [pageSize, pageDirBase] at hres ⊢
    omega
  obtain ⟨ht, hf, hh⟩ := H.tables.setPage_other f hk
    (fun x hx => absurd hx (H.tables.allocatable_not_node hn)) (fun hin => by
      obtain ⟨h1, h2, -⟩ := hin
      have h3 := H.tables.pool.next_le
      simp only [pageSize, pageTablePoolBase, pageTablePoolEnd] at h1 h2 h3 hres
      omega)
  refine ⟨H.congr ht hf hh ⟨rfl, rfl⟩, .of_kernel hf ⟨hf.kernel, fun i t hit => ?_⟩⟩
  refine Ram.frame_setPage_of_ne _ _ ?_
  rintro rfl
  exact H.tables.allocatable_not_node hn (x := .ktable i) hit

/-- Writing an entry of a kernel table other than the heap's. -/
theorem RamInv.setWindow (H : RamInv r O D pend c) {i k : ℕ} (hk : ktableOf r i = some k)
    (hi : i ≠ kheapPde) (j v : ℕ) :
    RamInv (r.setWord k j v) O D pend c ∧ HeapFrame D r (r.setWord k j v) := by
  obtain ⟨ht, hf, hh⟩ := H.tables.setPage_other (a := k) (Function.update (r.frame k) j v)
    (H.tables.node_ne_pageDirBase (x := .ktable i) hk)
    (fun x hx => ⟨i, H.tables.node_inj hx hk, hi⟩) (fun _ => ⟨.ktable i, hk⟩)
  exact ⟨H.congr ht hf hh ⟨rfl, rfl⟩, hf, fun j _ hj => (hh j).trans hj⟩

/-- The temporary window stays closed when another entry is written, or its own
without the present bit. -/
theorem TempClosed.setWord (hc : TempClosed r) (H : TableInv r D c) {i k : ℕ}
    (hk : ktableOf r i = some k) {j v : ℕ}
    (hv : i = tempPde → j = tempPte → present v = false) : TempClosed (r.setWord k j v) := by
  intro t ht
  have hne := H.node_ne_pageDirBase (x := .ktable i) hk
  rw [ktableOf_congr (Ram.frame_setWord_of_ne r _ _ hne.symm)] at ht
  by_cases htk : t = k
  · subst htk
    have hi : i = tempPde := Node.ktable.inj (H.node_inj hk (show NodeAt r D (.ktable tempPde) t from ht))
    rw [Ram.frame_setWord_self]
    by_cases hj : j = tempPte
    · rw [hj, Function.update_self]
      exact hv hi hj
    · rw [Function.update_of_ne (Ne.symm hj)]
      exact hc t ht
  · rw [Ram.frame_setWord_of_ne r _ _ htk]
    exact hc t ht

theorem TempClosed.setOther (hc : TempClosed r) (H : TableInv r D c) {i k : ℕ}
    (hk : ktableOf r i = some k) (hi : i ≠ tempPde) (j v : ℕ) : TempClosed (r.setWord k j v) :=
  hc.setWord H hk fun h => absurd h hi

theorem ktableOf_eq_some {i k : ℕ} : ktableOf r i = some k ↔ i < 1024 ∧
    present (r.frame pageDirBase i) = true ∧ psBit (r.frame pageDirBase i) = false ∧
    pageAddr (r.frame pageDirBase i) = k := by
  unfold ktableOf
  split_ifs with h
  · simp only [Bool.not_eq_true] at h
    simp [h]
  · simp only [false_iff]
    rintro ⟨h1, h2, h3, -⟩
    exact h ⟨h1, h2, by simp [h3]⟩

theorem tableOf_eq_some {d i t : ℕ} : tableOf r d i = some t ↔ i < 512 ∧
    present (r.frame d i) = true ∧ userBit (r.frame d i) = true ∧ psBit (r.frame d i) = false ∧
    pageAddr (r.frame d i) = t := by
  unfold tableOf
  split_ifs with h
  · simp only [Bool.not_eq_true] at h
    simp [h]
  · simp only [false_iff]
    rintro ⟨h1, h2, h3, h4, -⟩
    exact h ⟨h1, h2, h3, by simp [h4]⟩

theorem mapPagePool_eq {i k : ℕ} (hk : ktableOf r i = some k) {virt : ℕ} (hv : virt / 2 ^ 22 = i)
    (phys flags : ℕ) : mapPagePool virt phys flags r =
      (true, r.setWord k (virt / 2 ^ 12 % 2 ^ 10) (pageAddr phys ||| flags ||| pagePresentRw)) := by
  obtain ⟨-, hp, -, ha⟩ := ktableOf_eq_some.mp hk
  rw [mapPagePool, hv, if_pos hp, ha]

theorem unmapPage_eq {i k : ℕ} (hk : ktableOf r i = some k) {virt : ℕ} (hv : virt / 2 ^ 22 = i)
    (hp : present (r.frame k (virt / 2 ^ 12 % 2 ^ 10)) = true) :
    unmapPage pageDirBase virt r = (some (pageAddr (r.frame k (virt / 2 ^ 12 % 2 ^ 10))),
      r.setWord k (virt / 2 ^ 12 % 2 ^ 10) 0) := by
  obtain ⟨-, h1, h2, ha⟩ := ktableOf_eq_some.mp hk
  rw [unmapPage, hv, ha]
  dsimp only
  rw [if_neg (by simp [h1, h2]), if_neg (by simp only [hp, not_true_eq_false, not_false_eq_true])]

theorem getPhysicalAddress_eq {i k : ℕ} (hk : ktableOf r i = some k) {virt : ℕ}
    (hv : virt / 2 ^ 22 = i) (hlow : virt &&& 0xFFF = 0)
    (hp : present (r.frame k (virt / 2 ^ 12 % 2 ^ 10)) = true) :
    getPhysicalAddress pageDirBase virt r =
      some (pageAddr (r.frame k (virt / 2 ^ 12 % 2 ^ 10))) := by
  obtain ⟨-, h1, h2, ha⟩ := ktableOf_eq_some.mp hk
  rw [getPhysicalAddress, hv, ha, hlow]
  dsimp only
  rw [if_neg (by simp [h1]), if_neg (by simp [h2]),
    if_neg (by simp only [hp, not_true_eq_false, not_false_eq_true]), Nat.or_zero]

/-- The entry that `map_page` writes for a window. -/
theorem windowPte_bits (phys : ℕ) :
    present (pageAddr phys ||| pagePresentRw ||| pagePresentRw) = true ∧
      pageAddr (pageAddr phys ||| pagePresentRw ||| pagePresentRw) = pageAddr phys := by
  constructor
  · rw [present, Nat.testBit_or]
    simp [pagePresentRw]
  · rw [pageAddr_or _ (by decide), pageAddr_or _ (by decide),
      pageAddr_of_aligned (pageAddr_aligned _) (pageAddr_lt _)]

/-- **Filling a fresh page** through `KERNEL_TEMP_PAGE` always succeeds and
changes no address space. -/
theorem fillTempPage_spec (H : RamInv r O D pend c) (W : Windows r) {n : ℕ} (hn : Allocatable n)
    (f : ℕ → ℕ) : ∃ r', fillTempPage (n * pageSize) f r = (.done, r') ∧ RamInv r' O D pend c ∧
      RamFrame D r r' ∧ SameAlloc r r' ∧ OnlyScratch r r' := by
  obtain ⟨k, hk⟩ := Option.isSome_iff_exists.mp W.temp
  have hv : kernelTempPage / 2 ^ 22 = tempPde := by decide
  obtain ⟨hb1, hb2⟩ := windowPte_bits (n * pageSize)
  set pte := pageAddr (n * pageSize) ||| pagePresentRw ||| pagePresentRw with hpte
  set r₁ := r.setWord k (kernelTempPage / 2 ^ 12 % 2 ^ 10) pte with hr₁
  obtain ⟨H₁, F₁⟩ := H.setWindow hk (by decide) (kernelTempPage / 2 ^ 12 % 2 ^ 10) pte
  rw [← hr₁] at H₁ F₁
  have hk₁ : ktableOf r₁ tempPde = some k := (ktableOf_congr F₁.kernel _).trans hk
  have hword : r₁.frame k (kernelTempPage / 2 ^ 12 % 2 ^ 10) = pte := by
    rw [hr₁, Ram.frame_setWord_self, Function.update_self]
  -- the store goes to the new page, and the window stays as it is
  set r₂ := r₁.setPage (n * pageSize) f with hr₂
  have hstore : storePage kernelTempPage f r₁ = r₂ := by
    rw [storePage, getPhysicalAddress_eq hk₁ hv (by decide) (by rw [hword]; exact hb1), hword, hb2,
      hn.pageAddr_eq]
  obtain ⟨H₂, F₂⟩ := H₁.setContent hn f
  rw [← hr₂] at H₂ F₂
  have hk₂ : ktableOf r₂ tempPde = some k := (ktableOf_congr F₂.kernel _).trans hk₁
  have hne : k ≠ n * pageSize := fun he =>
    H₁.tables.allocatable_not_node hn (x := .ktable tempPde) (he ▸ hk₁)
  have hword₂ : r₂.frame k (kernelTempPage / 2 ^ 12 % 2 ^ 10) = pte := by
    rw [hr₂, Ram.frame_setPage_of_ne _ _ hne, hword]
  obtain ⟨H₃, F₃⟩ := H₂.setWindow hk₂ (by decide) (kernelTempPage / 2 ^ 12 % 2 ^ 10) 0
  -- the last store closes the window
  have hclosed : TempClosed (r₂.setWord k (kernelTempPage / 2 ^ 12 % 2 ^ 10) 0) := by
    refine .of_pte ((ktableOf_congr F₃.kernel _).trans hk₂) ?_
    rw [Ram.frame_setWord_self]
    exact congrArg present (Function.update_self (kernelTempPage / 2 ^ 12 % 2 ^ 10) 0 (r₂.frame k))
  refine ⟨_, ?_, H₃, ⟨(F₁.trans F₂.toHeapFrame).trans F₃, fun _ => hclosed⟩, ⟨rfl, rfl⟩,
    fun a j ha hj => ?_⟩
  · rw [fillTempPage, mapPagePool_eq hk hv]
    simp only [← hpte, ← hr₁, hstore]
    rw [unmapPage_eq hk₂ hv (by rw [hword₂]; exact hb1)]
  · by_cases hak : a = k
    · subst hak
      rw [Ram.frame_setWord_self, Function.update_of_ne (hj hk), hr₂,
        Ram.frame_setPage_of_ne _ _ (ha n hn), hr₁, Ram.frame_setWord_self,
        Function.update_of_ne (hj hk)]
    · rw [Ram.frame_setWord_of_ne _ _ _ hak, hr₂, Ram.frame_setPage_of_ne _ _ (ha n hn), hr₁,
        Ram.frame_setWord_of_ne _ _ _ hak]

/-! ### User mappings -/

/-- The directories of `D` other than `d`. -/
def Others (D : ℕ → Prop) (d : ℕ) (x : ℕ) : Prop := D x ∧ x ≠ d

/-- The memory after one entry of the directory `d` has been written. -/
structure EntryWritten (D : ℕ → Prop) (c d i j v : ℕ) (r r' : Ram) : Prop where
  tables : TableInv r' D c
  dirs : DirFrame (Others D d) r r'
  table : (tableOf r' d i).isSome
  keep : ∀ t, tableOf r d i = some t → tableOf r' d i = some t
  word : ∀ t, tableOf r' d i = some t → r'.frame t j = v
  pde : ∀ i', i' ≠ i → r'.frame d i' = r.frame d i'
  kernel : KernelFrame r r'
  alloc : SameAlloc r r'
  owned : ∀ d' i' j', D d' → ownedAt r' d' i' j' =
    PageInv.setOwn (ownedAt r) d i j (TableInv.ownedWord v) d' i' j'

theorem EntryWritten.frame {d i j v : ℕ} (E : EntryWritten D c d i j v r r') :
    RamFrame (Others D d) r r' := .of_kernel E.dirs E.kernel

/-- **`map_user_page`** on a live directory: it fails on a supervisor or 4 MiB
entry and when no table can be had, and writes one entry otherwise. -/
theorem mapUserPage_spec (H : TableInv r D c) {d : ℕ} (hd : D d) {virt phys : ℕ} (flags : ℕ)
    (hv : virt < userSpaceLimit) (hva : virt % pageSize = 0) (hpa : phys % pageSize = 0) :
    (mapUserPage d virt phys flags r = (false, r) ∧
      (present (r.frame d (virt / 2 ^ 22)) = true ∧ tableOf r d (virt / 2 ^ 22) = none ∨
        present (r.frame d (virt / 2 ^ 22)) = false ∧ allocPageTable r = (none, r))) ∨
    ∃ r', mapUserPage d virt phys flags r = (true, r') ∧
      EntryWritten D c d (virt / 2 ^ 22) (virt / 2 ^ 12 % 2 ^ 10) (userPte phys flags) r r' := by
  set i := virt / 2 ^ 22 with hi
  set j := virt / 2 ^ 12 % 2 ^ 10 with hj
  have hd0 : d ≠ 0 := by
    have h := (H.node_bounds (x := .dir d) ⟨hd, rfl⟩).1
    simp only [pageTablePoolBase] at h
    omega
  have hi512 : i < 512 := by
    simp only [userSpaceLimit] at hv
    omega
  have hj1024 : j < 1024 := Nat.mod_lt _ (by decide)
  obtain ⟨hb1, hb2, -, -⟩ := userPte_bits phys flags
  have hword : userPte phys flags = 0 ∨
      present (userPte phys flags) ∧ userBit (userPte phys flags) := Or.inr ⟨hb1, hb2⟩
  have hguard : ¬(d = 0 ∨ userSpaceLimit ≤ virt ∨ virt % pageSize ≠ 0 ∨ phys % pageSize ≠ 0) := by
    omega
  rw [mapUserPage, if_neg hguard, ← hi, ← hj]
  by_cases hp : present (r.frame d i) = true
  · rw [if_pos hp]
    by_cases hu : psBit (r.frame d i) = true ∨ ¬userBit (r.frame d i) = true
    · rw [if_pos hu]
      refine Or.inl ⟨rfl, Or.inl ⟨hp, if_neg ?_⟩⟩
      rintro ⟨-, -, h1, h2⟩
      exact hu.elim h2 fun h => h h1
    · -- the entry has a table of its own
      obtain ⟨hps, hus⟩ := not_or.mp hu
      have ht : tableOf r d i = some (pageAddr (r.frame d i)) :=
        if_pos ⟨hi512, hp, not_not.mp hus, hps⟩
      obtain ⟨h1, h2, h3, h4⟩ := H.setPte hd ht hj1024 hword
      rw [if_neg hu]
      have hne := H.table_ne_dir hd hd ht
      refine Or.inr ⟨_, rfl, h1, h2, ?_, fun t' ht' => ?_, fun t' ht' => ?_, fun i' _ => ?_, h3,
        ⟨rfl, rfl⟩, h4⟩
      · rw [tableOf_congr (Ram.frame_setWord_of_ne r _ _ hne.symm), ht]
        rfl
      · rw [tableOf_congr (Ram.frame_setWord_of_ne r _ _ hne.symm), ht']
      · rw [tableOf_congr (Ram.frame_setWord_of_ne r _ _ hne.symm), ht] at ht'
        obtain rfl := Option.some.inj ht'
        rw [Ram.frame_setWord_self, Function.update_self]
        rfl
      · rw [Ram.frame_setWord_of_ne r _ _ hne.symm]
  · rw [if_neg hp]
    rcases allocPageTable_spec H with ⟨hnone, -, -⟩ | ⟨t, r₁, hsome, F⟩
    · rw [hnone]
      exact Or.inl ⟨rfl, Or.inr ⟨by simpa using hp, rfl⟩⟩
    · -- a fresh table is linked first
      rw [hsome]
      obtain ⟨h1, h2, h3, h4, h5⟩ := H.linkTable F hd hi512 (by simpa using hp)
      set r₂ := r₁.setWord d i (t ||| pagePresentRwUser) with hr₂
      obtain ⟨g1, g2, g3, g4⟩ := h1.setPte hd h2 hj1024 hword
      have hne := h1.table_ne_dir hd hd h2
      refine Or.inr ⟨_, rfl, g1, h3.trans g2, ?_, fun t' ht' => ?_, fun t' ht' => ?_,
        fun i' hi' => ?_, h4.trans g3, ⟨F.used, F.hint⟩, ?_⟩
      · rw [tableOf_congr (Ram.frame_setWord_of_ne r₂ _ _ hne.symm), h2]
        rfl
      · rw [tableOf, if_neg fun h => hp h.2.1] at ht'
        cases ht'
      · rw [tableOf_congr (Ram.frame_setWord_of_ne r₂ _ _ hne.symm), h2] at ht'
        obtain rfl := Option.some.inj ht'
        rw [Ram.frame_setWord_self, Function.update_self]
        rfl
      · rw [Ram.frame_setWord_of_ne r₂ _ _ hne.symm, hr₂, Ram.frame_setWord_self,
          Function.update_of_ne hi', F.frame_of_ne (F.ne_dir hd).symm]
      · intro d' i' j' hd'
        refine (g4 d' i' j' hd').trans ?_
        rw [PageInv.setOwn, PageInv.setOwn, h5 d' i' j' hd']

/-- The entry of `map_user_page` owns a page exactly when the caller says so. -/
theorem ownedWord_userPte (phys flags : ℕ) : TableInv.ownedWord (userPte phys flags) =
    if flags.testBit 9 then some (pageAddr phys / pageSize) else none := by
  obtain ⟨hb1, -, hb3, hb4⟩ := userPte_bits phys flags
  simp [TableInv.ownedWord, hb1, hb3, hb4]

/-- A page without owner bit is mapped; what the entry owned before is left
behind. -/
theorem RamInv.entry_shared (H : RamInv r O D pend c) {d i j v : ℕ} (hd : D d)
    (E : EntryWritten D c d i j v r r') (hv : TableInv.ownedWord v = none) :
    RamInv r' (fun n => O n ∨ ownedAt r d i j = some n) D pend c where
  tables := E.tables
  pages := by
    rw [E.alloc.used, E.alloc.hint]
    refine (H.pages.drop hd i j).congr (fun _ => Iff.rfl) (fun d' i' j' hd' => ?_)
      E.kernel.heapAt_eq
    rw [E.owned d' i' j' hd', hv]

/-- The pending page is mapped as owned. -/
theorem RamInv.entry_owned {n : ℕ} (H : RamInv r O D (some n) c) {d i j v : ℕ} (hd : D d)
    (E : EntryWritten D c d i j v r r') (hv : TableInv.ownedWord v = some n) :
    RamInv r' (fun m => O m ∨ ownedAt r d i j = some m) D none c where
  tables := E.tables
  pages := by
    rw [E.alloc.used, E.alloc.hint]
    have hdrop := H.pages.drop hd i j
    have hnone : PageInv.setOwn (ownedAt r) d i j none d i j = none := by simp [PageInv.setOwn]
    refine (hdrop.place hd hnone).congr (fun _ => Iff.rfl) (fun d' i' j' hd' => ?_)
      E.kernel.heapAt_eq
    rw [E.owned d' i' j' hd', hv, PageInv.setOwn, PageInv.setOwn, PageInv.setOwn]
    split_ifs <;> rfl

/-- An entry of a kernel table is cleared; a page of the heap stays used. -/
theorem RamInv.clear_ktable (H : RamInv r O D pend c) {i t j : ℕ} (hk : ktableOf r i = some t)
    (hj : j < 1024) :
    ∃ O', RamInv (r.setWord t j 0) O' D pend c ∧ DirFrame D r (r.setWord t j 0) ∧
      (∀ n, O n → O' n) ∧ (TempClosed r → TempClosed (r.setWord t j 0)) := by
  have hclosed : TempClosed r → TempClosed (r.setWord t j 0) := fun hc =>
    hc.setWord H.tables hk fun _ _ => rfl
  by_cases hheap : i = kheapPde
  · rw [hheap] at hk
    obtain ⟨h1, h2, h3⟩ := H.tables.setHeapPte (v := 0) hk hj
      fun j' hj' => ⟨hj', fun _ => rfl⟩
    refine ⟨fun n => O n ∨ heapAt r j = some n, ⟨h1, ?_⟩, h2, fun _ => Or.inl, hclosed⟩
    refine (H.pages.dropHeap j).congr (fun _ => Iff.rfl) (fun d' i' j' hd' => ?_) h3
    exact h2.ownedAt_eq hd' i' j'
  · obtain ⟨h1, h2⟩ := H.setWindow hk hheap j 0
    exact ⟨O, h1, h2.toDirFrame, fun _ => id, hclosed⟩

/-- **`unmap_page`** on a live directory or the kernel's, for any address: at
most one entry changes, and its page, if it owned one, stays used. -/
theorem unmapPage_spec (H : RamInv r O D pend c) {d virt : ℕ} (hd : D d ∨ d = pageDirBase)
    (hv : virt < 2 ^ 32) :
    ∃ O', RamInv (unmapPage d virt r).2 O' D pend c ∧ DirFrame (Others D d) r (unmapPage d virt r).2 ∧
      (∀ n, O n → O' n) ∧ (TempClosed r → TempClosed (unmapPage d virt r).2) := by
  set i := virt / 2 ^ 22 with hi
  set j := virt / 2 ^ 12 % 2 ^ 10 with hj
  have hi1024 : i < 1024 := by omega
  have hj1024 : j < 1024 := Nat.mod_lt _ (by decide)
  have hsame : RamInv r O D pend c ∧ DirFrame (Others D d) r r ∧ (∀ n, O n → O n) ∧
      (TempClosed r → TempClosed r) := ⟨H, .refl _ _, fun _ => id, id⟩
  rw [unmapPage]
  dsimp only
  rw [← hi, ← hj]
  by_cases hg : d = 0 ∨ ¬present (r.frame d i) = true ∨ psBit (r.frame d i) = true
  · rw [if_pos hg]
    exact ⟨O, hsame⟩
  rw [if_neg hg]
  obtain ⟨-, hg⟩ := not_or.mp hg
  obtain ⟨hp, hps⟩ := not_or.mp hg
  have hp : present (r.frame d i) = true := not_not.mp hp
  by_cases hpp : ¬present (r.frame (pageAddr (r.frame d i)) j) = true
  · rw [if_pos hpp]
    exact ⟨O, hsame⟩
  rw [if_neg hpp]
  -- the table may be one of the kernel's, which the directory has copied
  have hcopied : r.frame d i = r.frame pageDirBase i →
      ∃ O', RamInv (r.setWord (pageAddr (r.frame d i)) j 0) O' D pend c ∧
        DirFrame (Others D d) r (r.setWord (pageAddr (r.frame d i)) j 0) ∧ (∀ n, O n → O' n) ∧
          (TempClosed r → TempClosed (r.setWord (pageAddr (r.frame d i)) j 0)) := by
    intro hkp
    have hk : ktableOf r i = some (pageAddr (r.frame d i)) := by
      refine ktableOf_eq_some.mpr ⟨hi1024, ?_, ?_, ?_⟩
      · rw [← hkp]
        exact hp
      · rw [← hkp]
        simpa using hps
      · rw [← hkp]
    obtain ⟨O', h1, h2, h3⟩ := H.clear_ktable hk hj1024
    exact ⟨O', h1, h2.mono fun _ h => h.1, h3⟩
  rcases hd with hd | rfl
  · rcases H.tables.dir_pde d hd i hi1024 with hcopy | ⟨-, hsome⟩
    · refine hcopied ?_
      rw [hcopy] at hp ⊢
      unfold kernelCopy at hp ⊢
      split_ifs at hp ⊢
      · rfl
      · cases hp
    · -- or one of the directory itself
      obtain ⟨t, ht⟩ := Option.isSome_iff_exists.mp hsome
      obtain rfl : pageAddr (r.frame d i) = t := (tableOf_eq_some.mp ht).2.2.2.2
      obtain ⟨h1, h2, h3, h4⟩ := H.tables.setPte hd ht hj1024 (v := 0) (Or.inl rfl)
      have hne := H.tables.table_ne_dir hd hd ht
      refine ⟨_, H.entry_shared hd ⟨h1, h2, ?_, fun t' ht' => ?_, fun t' ht' => ?_, fun i' _ => ?_,
        h3, ⟨rfl, rfl⟩, h4⟩ rfl, h2, fun _ => Or.inl, fun hc => hc.congr h3⟩
      · rw [tableOf_congr (Ram.frame_setWord_of_ne r _ _ hne.symm), ht]
        rfl
      · exact (tableOf_congr (Ram.frame_setWord_of_ne r _ _ hne.symm) i).trans ht'
      · obtain rfl := Option.some.inj
          (ht.symm.trans ((tableOf_congr (Ram.frame_setWord_of_ne r _ _ hne.symm) i).symm.trans ht'))
        exact (congrFun (Ram.frame_setWord_self r _ _ _) _).trans (Function.update_self _ _ _)
      · rw [Ram.frame_setWord_of_ne r _ _ hne.symm]
  · exact hcopied rfl

end Spec

end VirtualKernel
