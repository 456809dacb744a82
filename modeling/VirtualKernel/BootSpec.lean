/-
The system after boot has its invariant.

`pmm_init` on the tables of the bootstrap gives the invariant of physical
memory with no directory (`pmmInit_ramInv`); until there are processes the
kernel may still get new tables (`mapPagePool_boot`).  `kernelHighEntry_inv` follows
the boot sequence, `booted_inv` adds the initialisers of the drivers.
-/
import VirtualKernel.SystemTick

namespace VirtualKernel

open Lib

section Memory

variable {r r' : Ram} {O D : ℕ → Prop} {pend : Option ℕ} {c : ℕ}

/-! ### The tables of the bootstrap -/

/-- The entries of the bootstrap are supervisor pages of 4 MiB. -/
theorem bootDirectory_word (i : ℕ) : bootDirectory i = 0 ∨
    present (bootDirectory i) = true ∧ userBit (bootDirectory i) = false ∧
      psBit (bootDirectory i) = true := by
  unfold bootDirectory
  split_ifs
  all_goals first | exact Or.inl rfl | exact Or.inr (by decide)

theorem ktableOf_boot (hdir : r.frame pageDirBase = bootDirectory) (i : ℕ) :
    ktableOf r i = none := by
  rw [ktableOf, hdir]
  rcases bootDirectory_word i with h | ⟨-, -, h⟩
  · simp [h, present_zero]
  · simp [h]

/-- The pages that are used after `pmm_init`. -/
theorem pmmInit_used (r : Ram) (n : ℕ) : (pmmInit r).used n = true ↔ ¬Allocatable n := by
  simp only [pmmInit, pmmMarkRangeUsed, pmmMarkRangeFree, Allocatable]
  split_ifs <;> simp <;> omega

/-- **The invariant of physical memory after `pmm_init`.** -/
theorem pmmInit_ramInv (hdir : r.frame pageDirBase = bootDirectory)
    (hnext : r.pmmNextPage = mainRamStart / pageSize) (hpool : r.pageTableNext = pageTablePoolBase)
    (hlist : r.pageTableFreeList = 0) (hD : ∀ d, ¬D d) :
    RamInv (pmmInit r) (fun n => ¬Allocatable n) D none kheapBase := by
  have hk : ∀ i, ktableOf (pmmInit r) i = none := ktableOf_boot hdir
  have hnode : ∀ x a, ¬NodeAt (pmmInit r) D x a := by
    intro x a h
    cases x with
    | dir d => exact hD d h.1
    | table d i => exact hD d h.1
    | ktable i =>
      rw [NodeAt, hk] at h
      cases h
  have hheap : ∀ j, heapAt (pmmInit r) j = none := fun j => by rw [heapAt, hk]; rfl
  refine ⟨⟨⟨⟨[], ?_, fun a => ?_⟩, ?_, by decide, ?_, ?_, ?_⟩, ?_, fun i _ => ?_, ?_, ?_, ?_, ?_⟩, ?_⟩
  · change Chain _ r.pageTableFreeList []
    rw [hlist]
    exact rfl
  · change a ∈ [] ↔ InPool pageSize pageTablePoolBase r.pageTableNext a ∧ _
    rw [hpool]
    simp only [List.not_mem_nil, InPool, false_iff]
    omega
  · rintro a ⟨x, hx⟩
    exact absurd hx (hnode x a)
  · exact hpool.ge
  · exact hpool.le.trans (by decide)
  · change r.pageTableNext % pageSize = 0
    rw [hpool]
    decide
  · intro x y a hx
    exact absurd hx (hnode x a)
  · change r.frame pageDirBase i = 0 ∨ _
    change _ ∨ present (r.frame pageDirBase i) = true ∧ ¬userBit (r.frame pageDirBase i) = true
    rw [hdir]
    rcases bootDirectory_word i with h | ⟨h1, h2, -⟩
    · exact Or.inl h
    · exact Or.inr ⟨h1, by simp [h2]⟩
  · intro d hd
    exact absurd hd (hD d)
  · intro d i t hd
    exact absurd hd (hD d)
  · intro d i t hd
    exact absurd hd (hD d)
  · intro t ht
    rw [hk] at ht
    cases ht
  · refine ⟨⟨?_, fun n => ?_⟩, ?_, fun n => id, ?_⟩
    · intro x y n hx hy
      cases x with
      | other =>
        cases y with
        | other => rfl
        | pending => cases hy
        | pte d i j => exact absurd hy.1 (hD d)
        | heap j => rw [PageAt, hheap] at hy; cases hy
      | pending => cases hx
      | pte d i j => exact absurd hx.1 (hD d)
      | heap j => rw [PageAt, hheap] at hx; cases hx
    · rw [pmmInit_used]
      refine ⟨fun h => ⟨.other, h⟩, ?_⟩
      rintro ⟨x, hx⟩
      cases x with
      | other => exact hx
      | pending => cases hx
      | pte d i j => exact absurd hx.1 (hD d)
      | heap j => rw [PageAt, hheap] at hx; cases hx
    · intro x n hx hne
      cases x with
      | other => exact absurd rfl hne
      | pending => cases hx
      | pte d i j => exact absurd hx.1 (hD d)
      | heap j => rw [PageAt, hheap] at hx; cases hx
    · intro n h1 h2
      change n < r.pmmNextPage at h2
      omega

/-! ### New tables of the kernel -/

theorem allocPageTable_next (r : Ram) :
    (allocPageTable r).2.pageTableNext ≤ r.pageTableNext + pageSize := by
  unfold allocPageTable
  dsimp only
  split_ifs
  · exact Nat.le_add_right _ _
  · exact Nat.le_add_right _ _
  · exact Nat.mod_le _ _

/-- A call of `map_page` that fails changes nothing. -/
theorem mapPagePool_false {virt phys flags : ℕ} (h : mapPagePool virt phys flags r = (false, r')) :
    r' = r := by
  rw [mapPagePool] at h
  split_ifs at h
  · cases h
  · rw [allocPageTable] at h
    dsimp only at h
    split_ifs at h
    · cases h
    · exact (Prod.mk.inj h).2.symm
    · cases h

/-- A new table of the kernel is empty, so the temporary window stays closed. -/
theorem TempClosed.link (hc : TempClosed r) (h : ∀ i k, ktableOf r' i = some k →
    (r'.frame k = fun _ => 0) ∨ ktableOf r i = some k ∧ r'.frame k = r.frame k) :
    TempClosed r' := by
  intro k hk
  rcases h tempPde k hk with h0 | ⟨hk', hsame⟩
  · rw [h0]
    exact present_zero
  · rw [hsame]
    exact hc k hk'

/-- **`map_page`** before there are processes: a new table may be linked. -/
theorem mapPagePool_boot (H : RamInv r O D pend c) (hD : ∀ d, ¬D d) {v : ℕ} (phys flags : ℕ)
    (hv : v < 2 ^ 32) (hheap : v / 2 ^ 22 ≠ kheapPde)
    (hps : psBit (r.frame pageDirBase (v / 2 ^ 22)) = false) :
    ∃ b r', mapPagePool v phys flags r = (b, r') ∧ RamInv r' O D pend c ∧
      (∀ i, (ktableOf r i).isSome → (ktableOf r' i).isSome) ∧
      (b = true → (ktableOf r' (v / 2 ^ 22)).isSome) ∧
      (∀ i, i ≠ v / 2 ^ 22 → r'.frame pageDirBase i = r.frame pageDirBase i) ∧
      r'.pageTableNext ≤ r.pageTableNext + pageSize ∧
      ((v / 2 ^ 22 = tempPde → v / 2 ^ 12 % 2 ^ 10 ≠ tempPte) → TempClosed r → TempClosed r') := by
  set i := v / 2 ^ 22 with hi
  have hi1024 : i < 1024 := by omega
  by_cases hp : present (r.frame pageDirBase i) = true
  · have hk : ktableOf r i = some (pageAddr (r.frame pageDirBase i)) :=
      ktableOf_eq_some.mpr ⟨hi1024, hp, hps, rfl⟩
    obtain ⟨h1, h2⟩ := H.setWindow hk hheap (v / 2 ^ 12 % 2 ^ 10)
      (pageAddr phys ||| flags ||| pagePresentRw)
    refine ⟨true, _, mapPagePool_eq hk hi.symm phys flags, h1, fun i' h => ?_, fun _ => ?_,
      fun i' _ => ?_, Nat.le_add_right _ _,
      fun hv hc => hc.setWord H.tables hk fun h1 h2 => absurd h2 (hv h1)⟩
    · rw [ktableOf_congr h2.kernel]
      exact h
    · rw [ktableOf_congr h2.kernel, hk]
      rfl
    · rw [h2.kernel]
  · rcases allocPageTable_spec H.tables with ⟨hnone, -, -⟩ | ⟨t, r₁, hsome, F⟩
    · refine ⟨false, r, ?_, H, fun _ h => h, (fun h => by cases h), fun _ _ => rfl,
        Nat.le_add_right _ _, fun _ => id⟩
      rw [mapPagePool, ← hi, if_neg hp, hnone]
    · obtain ⟨h1, h2, h3, h4⟩ := H.tables.linkKernelTable hD F hi1024 (by simpa using hp)
      set r₂ := r₁.setWord pageDirBase i (t ||| pagePresentRw) with hr₂
      have H₂ : RamInv r₂ O D pend c := by
        refine ⟨h1, ?_⟩
        have hused : r₂.used = r.used := F.used
        have hhint : r₂.pmmNextPage = r.pmmNextPage := F.hint
        rw [hused, hhint]
        exact H.pages.congr (fun _ => Iff.rfl) (fun d _ _ hd => absurd hd (hD d)) h3
      obtain ⟨g1, g2⟩ := H₂.setWindow h2 hheap (v / 2 ^ 12 % 2 ^ 10)
        (pageAddr phys ||| flags ||| pagePresentRw)
      have hdir : ∀ i', i' ≠ i → r₂.frame pageDirBase i' = r.frame pageDirBase i' := by
        intro i' hi'
        rw [hr₂, Ram.frame_setWord_self, Function.update_of_ne hi', F.frame_of_ne F.ne_pageDirBase.symm]
      have hnx : r₁.pageTableNext ≤ r.pageTableNext + pageSize := by
        have h := allocPageTable_next r
        rw [hsome] at h
        exact h
      refine ⟨true, _, ?_, g1, fun i' h => ?_, fun _ => ?_, fun i' hi' => ?_, hnx, fun hv hc =>
        (hc.link h4).setWord H₂.tables h2 fun h1 h2 => absurd h2 (hv h1)⟩
      · rw [mapPagePool, ← hi, if_neg hp, hsome]
      · rw [ktableOf_congr g2.kernel]
        by_cases hii : i' = i
        · rw [hii, h2]
          rfl
        · rw [ktableOf, hdir i' hii]
          exact h
      · rw [ktableOf_congr g2.kernel, h2]
        rfl
      · rw [g2.kernel, hdir i' hi']

/-- The first page of the kernel heap, with its table. -/
theorem heapCommit_first (H : RamInv r O D none kheapBase) (hD : ∀ d, ¬D d)
    (hp : present (r.frame pageDirBase kheapPde) = false) (hfree : ∃ n, Allocatable n ∧ ¬O n)
    (hheap : ∀ j, heapAt r j = none) (hpool : r.pageTableNext < pageTablePoolEnd) :
    ∃ r', heapCommit kheapBase r = (true, r') ∧ RamInv r' O D none (kheapBase + pageSize) ∧
      (ktableOf r' kheapPde).isSome ∧ (∀ i, (ktableOf r i).isSome → (ktableOf r' i).isSome) ∧
      (∀ i, i ≠ kheapPde → r'.frame pageDirBase i = r.frame pageDirBase i) ∧
      (TempClosed r → TempClosed r') := by
  rcases pmmAllocPage_cases H (fun r => (false, r))
    (fun ebx r => mapPagePool kheapBase ebx pagePresentRw r) with
    ⟨-, hfull⟩ | ⟨n, r₁, h, hn, -, -, hf, hfl, hnx, H₁⟩
  · -- some page is nobody's
    exfalso
    obtain ⟨n, hn, hO⟩ := hfree
    obtain ⟨x, hx⟩ := (H.pages.ledger.exact n).mp (hfull n hn)
    cases x with
    | other => exact hO hx
    | pending => cases hx
    | pte d i j => exact hD d hx.1
    | heap j => rw [PageAt, hheap] at hx; cases hx
  rcases allocPageTable_spec H₁.tables with ⟨-, -, hend⟩ | ⟨t, r₂, hsome, F⟩
  · rw [hnx] at hend
    omega
  have hp₁ : present (r₁.frame pageDirBase kheapPde) = false := by rw [hf]; exact hp
  obtain ⟨h1, h2, h3, h4⟩ := H₁.tables.linkKernelTable hD F (by decide) hp₁
  set r₃ := r₂.setWord pageDirBase kheapPde (t ||| pagePresentRw) with hr₃
  have H₃ : RamInv r₃ O D (some n) kheapBase := by
    refine ⟨h1, ?_⟩
    have hused : r₃.used = r₁.used := F.used
    have hhint : r₃.pmmNextPage = r₁.pmmNextPage := F.hint
    rw [hused, hhint]
    exact H₁.pages.congr (fun _ => Iff.rfl) (fun d _ _ hd => absurd hd (hD d)) h3
  obtain ⟨r₄, hmap, H₄, F₄⟩ := mapPagePool_heap H₃ h2 (le_refl _) (by decide) (by decide)
  have hv : kheapBase / 2 ^ 22 = kheapPde := by decide
  have hrun : mapPagePool kheapBase (n * pageSize) pagePresentRw r₁ = (true, r₄) := by
    rw [← hmap, mapPagePool_eq h2 hv, mapPagePool, hv, if_neg (by rw [hp₁]; decide), hsome]
  have hdir : ∀ i, i ≠ kheapPde → r₄.frame pageDirBase i = r.frame pageDirBase i := by
    intro i hi
    rw [F₄.kernel, hr₃, Ram.frame_setWord_self, Function.update_of_ne hi,
      F.frame_of_ne F.ne_pageDirBase.symm, hf]
  refine ⟨r₄, h.trans hrun, H₄, ?_, fun i hi => ?_, hdir,
    fun hc => F₄.closed ((hc.congr (.of_frame hf)).link h4)⟩
  · rw [ktableOf_congr F₄.kernel, h2]
    rfl
  · have hne : i ≠ kheapPde := by
      rintro rfl
      rw [ktableOf, hp] at hi
      simp at hi
    rw [ktableOf, hdir i hne]
    exact hi

/-- A linked table is no 4 MiB page. -/
theorem psBit_of_ktable {i : ℕ} (h : (ktableOf r i).isSome) :
    psBit (r.frame pageDirBase i) = false := by
  obtain ⟨t, ht⟩ := Option.isSome_iff_exists.mp h
  exact (ktableOf_eq_some.mp ht).2.2.1

/-- **`map_kernel_vga`** on the tables of the bootstrap: the table of the
temporary windows exists. -/
theorem mapKernelVga_boot (H : RamInv r O D pend c) (hD : ∀ d, ¬D d)
    (hdir : r.frame pageDirBase = bootDirectory) (hnext : r.pageTableNext = pageTablePoolBase) :
    ∃ b r', mapKernelVga r = (b, r') ∧ (b = true → RamInv r' O D pend c ∧
      (ktableOf r' tempPde).isSome ∧ r'.frame pageDirBase kheapPde = 0 ∧
      r'.pageTableNext < pageTablePoolEnd ∧
      (∀ i, i ≠ tempPde → r'.frame pageDirBase i = bootDirectory i) ∧ TempClosed r') := by
  have h0 : r.frame pageDirBase tempPde = 0 := by rw [hdir]; decide
  have hh : r.frame pageDirBase kheapPde = 0 := by rw [hdir]; decide
  have hc : TempClosed r := fun k hk => by simp [ktableOf, h0, present_zero] at hk
  have hv₁ : kernelVgaVirt / 2 ^ 22 = tempPde := by decide
  have hv₂ : kernelVgaFontVirt / 2 ^ 22 = tempPde := by decide
  have hv₃ : (kernelVgaFontVirt + pageSize) / 2 ^ 22 = tempPde := by decide
  obtain ⟨b₁, r₁, hm₁, H₁, -, ht₁, hd₁, hn₁, hc₁⟩ := mapPagePool_boot H hD (v := kernelVgaVirt) 0xB8000
    pagePresentRw (by decide) (by rw [hv₁]; decide) (by rw [hv₁, h0]; decide)
  rw [hv₁] at ht₁ hd₁
  rw [mapKernelVga, hm₁]
  cases b₁ with
  | false => exact ⟨false, r₁, rfl, fun h => by cases h⟩
  | true =>
    obtain ⟨b₂, r₂, hm₂, H₂, -, ht₂, hd₂, hn₂, hc₂⟩ := mapPagePool_boot H₁ hD (v := kernelVgaFontVirt)
      0xA0000 pagePresentRw (by decide) (by rw [hv₂]; decide) (by rw [hv₂]; exact psBit_of_ktable (ht₁ rfl))
    rw [hv₂] at ht₂ hd₂
    dsimp only
    rw [hm₂]
    cases b₂ with
    | false => exact ⟨false, r₂, rfl, fun h => by cases h⟩
    | true =>
      obtain ⟨b₃, r₃, hm₃, H₃, hk₃, -, hd₃, hn₃, hc₃⟩ := mapPagePool_boot H₂ hD
        (v := kernelVgaFontVirt + pageSize) (0xA0000 + pageSize) pagePresentRw (by decide)
        (by rw [hv₃]; decide) (by rw [hv₃]; exact psBit_of_ktable (ht₂ rfl))
      rw [hv₃] at hd₃
      refine ⟨b₃, r₃, hm₃, fun _ => ⟨H₃, hk₃ _ (ht₂ rfl), ?_, ?_, fun i hi => ?_,
        hc₃ (fun _ => by decide) (hc₂ (fun _ => by decide) (hc₁ (fun _ => by decide) hc))⟩⟩
      · rw [hd₃ _ (by decide), hd₂ _ (by decide), hd₁ _ (by decide), hh]
      · simp only [pageTablePoolBase, pageTablePoolEnd, pageSize] at *
        omega
      · rw [hd₃ i hi, hd₂ i hi, hd₁ i hi, hdir]

/-- The kernel's directory after the tables of the windows and of the heap have
been linked. -/
theorem kernelPdes_boot (hboot : ∀ i, i ≠ tempPde → r.frame pageDirBase i = bootDirectory i)
    (hdir : ∀ i, i ≠ kheapPde → r'.frame pageDirBase i = r.frame pageDirBase i)
    (hheap : (ktableOf r' kheapPde).isSome) (htemp : (ktableOf r' tempPde).isSome) :
    KernelPdes r' := by
  intro i
  by_cases hh : i = kheapPde
  · exact Or.inr ⟨Or.inl hh, by rw [hh]; exact psBit_of_ktable hheap⟩
  · by_cases ht : i = tempPde
    · exact Or.inr ⟨Or.inr (Or.inl ht), by rw [ht]; exact psBit_of_ktable htemp⟩
    · exact Or.inl (by rw [hdir i hh, hboot i ht])

end Memory

/-! ### The kernel at the end of `kernel_high_entry` -/

/-- The kernel with scheduler words and task register in order. -/
def asBooted (k : Kernel) : Kernel :=
  { k with sched := { schedulerInit with kernelTssSelector := 8 }, tr := 8 }

section Entry

variable {k : Kernel} {O : ℕ → Prop} {T : Items}

/-- A program that reads neither of them runs alike. -/
theorem runs_of_asBooted {α : Type} {m : KM α} {Q : α → Kernel → Prop}
    (hm : ∀ k, m.run (asBooted k) = (m.run k).map fun x => (x.1, asBooted x.2))
    (h : Runs m (asBooted k) Q) : Runs m k fun a k' => Q a (asBooted k') := by
  obtain ⟨a, k', hr, hq⟩ := h
  rw [hm] at hr
  obtain ⟨⟨b, k₁⟩, hr₁, he⟩ := Option.map_eq_some_iff.mp hr
  obtain ⟨rfl, rfl⟩ := Prod.mk.inj he
  exact ⟨b, k₁, hr₁, hq⟩

theorem kHeapAlloc_asBooted (size : ℕ) (k : Kernel) : (kHeapAlloc size).run (asBooted k) =
    ((kHeapAlloc size).run k).map fun x => (x.1, asBooted x.2) := by
  change (heapAlloc heapCommit size k.heap k.ram).map _ =
    ((heapAlloc heapCommit size k.heap k.ram).map _).map _
  rw [Option.map_map]
  rfl

theorem kHeapFree_asBooted (ptr : ℕ) (k : Kernel) : (kHeapFree ptr).run (asBooted k) =
    ((kHeapFree ptr).run k).map fun x => (x.1, asBooted x.2) := by
  change (heapFree ptr k.heap).map _ = ((heapFree ptr k.heap).map _).map _
  rw [Option.map_map]
  rfl

theorem gdtCreateDescriptor_asBooted (desc : ℕ × ℕ) (k : Kernel) :
    (gdtCreateDescriptor desc).run (asBooted k) =
      ((gdtCreateDescriptor desc).run k).map fun x => (x.1, asBooted x.2) := by
  have hfind : ∀ k : Kernel, gdtAllocSelector.run k = some
      (((List.range' gdtFirstDynamic (gdtEntryCount - gdtFirstDynamic)).find?
        fun i => !k.gdtBitmap i).elim (none, k)
          fun i => (some (i * 8), { k with gdtBitmap := Function.update k.gdtBitmap i true })) := by
    intro k
    unfold gdtAllocSelector
    rw [show ∀ g : Kernel → Option ℕ × Kernel, (modifyGet g : KM (Option ℕ)).run k = some (g k)
      from fun _ => rfl]
    cases (List.range' gdtFirstDynamic (gdtEntryCount - gdtFirstDynamic)).find?
      fun i => !k.gdtBitmap i with
    | none => rfl
    | some i => rfl
  rw [gdtCreateDescriptor, StateT.run_bind, StateT.run_bind, hfind, hfind]
  have hb : (asBooted k).gdtBitmap = k.gdtBitmap := rfl
  rw [hb]
  cases (List.range' gdtFirstDynamic (gdtEntryCount - gdtFirstDynamic)).find?
    fun i => !k.gdtBitmap i with
  | none => rfl
  | some i => rfl

theorem Holds.of_asBooted (H : Holds (asBooted k) O T) (ht : TaskHolds k.sched.taskTable T)
    (hs : SchedOk k.sched k.tr) : Holds k O T :=
  ⟨H.nodup, H.heap, H.ram, H.windows, H.gdt, H.slot, H.entry, ht, hs⟩

/-- The account of the kernel when all allocators have been initialised and
nothing has been taken. -/
theorem holds_empty {h : Heap} {r : Ram} (hrep : HeapRep h [pageBlock kheapBase])
    (hram : RamInv r O (fun _ => False) none h.committed) (hw : Windows r) (k : Kernel)
    (hh : k.heap = h) (hr : k.ram = r) (hb : k.gdtBitmap = fun i => decide (i < gdtFirstDynamic))
    (hg : k.gdt = initGdt) (hs : k.slotBitmap = fun _ => false)
    (hp : k.processTable = fun _ => 0) (hc : k.processActiveCount = 0) :
    Holds (asBooted k) O 0 where
  nodup := Multiset.nodup_zero
  heap := by
    refine ⟨[pageBlock kheapBase], by change HeapRep k.heap _; rw [hh]; exact hrep, fun p => ?_⟩
    simp [pageBlock]
  ram := by
    have hD : dirsOf 0 = fun _ => False := funext fun d => by simp [dirsOf]
    change RamInv k.ram O (dirsOf 0) none k.heap.committed
    rw [hr, hh, hD]
    exact hram
  windows := by change Windows k.ram; rw [hr]; exact hw
  gdt := by
    refine ⟨by simp, fun i _ => ?_, fun i hi _ => ?_⟩
    · change k.gdtBitmap i = true ↔ _
      simp [hb]
    · change k.gdt i = (0, 0)
      rw [hg]
      simp only [gdtFirstDynamic] at hi
      simp only [initGdt]
      rw [if_neg (by omega), if_neg (by omega), if_neg (by omega), if_neg (by omega)]
  slot := ⟨by simp, fun i _ => by change k.slotBitmap i = true ↔ _; simp [hs]⟩
  entry := by
    refine ⟨by simp, fun i _ p hp0 => ?_, ?_⟩
    · change k.processTable i = p ↔ _
      simp [hp, hp0.symm]
    · change k.processActiveCount = ((List.range processMaxCount).filter
        fun i => decide (k.processTable i ≠ 0)).length
      rw [hc, hp]
      simp
  task := ⟨by simp, fun v hv => by simp [asBooted, schedulerInit, hv.symm]⟩
  sched := schedOk_init ⟨by decide, by decide⟩

/-- **`create_kernel_tss`** on an empty account. -/
theorem createKernelTss_boot (H : Holds (asBooted k) O 0) (cr3 ldtr : ℕ) :
    Runs (createKernelTss cr3 ldtr) k fun res k' => ∀ sel, res = some sel → ∃ tss i,
      sel = i * 8 ∧ Holds (asBooted k') O ({.block tss} + {.gdt i}) ∧
      descriptorBase (k'.gdt i) = tss ∧
      k'.drivers.storageInitialized = k.drivers.storageInitialized ∧
      k'.ram.frame pageDirBase = k.ram.frame pageDirBase := by
  refine runs_bind (runs_of_asBooted (kHeapAlloc_asBooted _) (kHeapAlloc_spec H tss32Size)) ?_
  rintro tss k₁ ⟨F₁, ⟨rfl, -⟩ | ⟨htss, H₁⟩⟩
  · rw [if_pos rfl]
    exact runs_pure fun sel h => by cases h
  rw [if_neg htss]
  refine runs_modify_bind (runs_modify_bind (runs_modify_bind ?_))
  generalize hk₂ : Kernel.setMem _ tss _ = k₂
  have H₂ : Holds (asBooted k₂) O ({.block tss}) := by
    rw [← hk₂]
    rw [zero_add] at H₁
    exact H₁.congr_state rfl rfl rfl rfl rfl rfl rfl rfl rfl
  have hd₂ : k₂.drivers = k₁.drivers := by rw [← hk₂]; rfl
  have hr₂ : k₂.ram = k₁.ram := by rw [← hk₂]; rfl
  clear hk₂
  refine runs_bind (runs_of_asBooted (gdtCreateDescriptor_asBooted _)
    (gdtCreateDescriptor_spec H₂ _)) ?_
  rintro sel k₃ (⟨rfl, hk₃⟩ | ⟨i, rfl, -, -, H₃, F₃, -, hg₃⟩)
  · rw [← hk₃, ← zero_add ({.block tss} : Items)] at H₂
    refine runs_bind (runs_of_asBooted (kHeapFree_asBooted tss) (kHeapFree_spec H₂)) ?_
    rintro - k₄ -
    exact runs_pure fun sel h => by cases h
  · refine runs_modify_bind (runs_pure ?_)
    rintro sel ⟨⟩
    have hidx : i * 8 / 8 = i := Nat.mul_div_cancel i (by decide)
    refine ⟨tss, i, rfl, ?_, ?_, ?_, ?_⟩
    · refine ⟨H₃.nodup, H₃.heap, H₃.ram, H₃.windows, ⟨H₃.gdt.range, H₃.gdt.bit, ?_⟩, H₃.slot,
        H₃.entry, H₃.task, H₃.sched⟩
      intro j hj hn
      have hji : j ≠ i * 8 / 8 := by
        rw [hidx]
        rintro rfl
        exact hn (by simp)
      exact (Function.update_of_ne hji _ _).trans (H₃.gdt.free j hj hn)
    · simp only [loadTaskRegister, hidx, Function.update_self, descriptorBase_setBusy]
      have hg : k₃.gdt i = buildSystemDescriptor tss 0x67 0x89 := hg₃
      rw [hg]
      exact descriptorBase_buildSystemDescriptor (H₃.block_lt (by simp)) (by decide)
    · have h1 : k₁.drivers.storageInitialized = k.drivers.storageInitialized := F₁.storage
      have h3 : k₃.drivers.storageInitialized = k₂.drivers.storageInitialized := F₃.storage
      change k₃.drivers.storageInitialized = _
      rw [h3, hd₂, h1]
    · have h1 : k₁.ram.frame pageDirBase = k.ram.frame pageDirBase := F₁.ram.kernel
      have h3 : k₃.ram.frame pageDirBase = k₂.ram.frame pageDirBase := F₃.ram.kernel
      change k₃.ram.frame pageDirBase = _
      rw [h3, hr₂, h1]

/-- The bootstrap stack of `sysenter`. -/
theorem enableSystemcall_boot (cpu : Cpu) (H : Holds k O T) :
    Runs (enableSystemcall cpu) k fun done k' => done = true →
      ∃ stack, Frame T k k' ∧ Holds k' O (T + {.block stack}) := by
  unfold enableSystemcall
  refine runs_ite (fun _ => ?_) fun _ => runs_pure fun h => by cases h
  refine runs_bind (kHeapAlloc_spec H pageSize) ?_
  rintro stack k' ⟨F, ⟨rfl, -⟩ | ⟨-, H'⟩⟩
  · exact runs_pure fun h => by simp at h
  · exact runs_pure fun _ => ⟨stack, F, H'⟩

/-- **The kernel at the end of `kernel_high_entry`.** -/
theorem kernelHighEntry_inv {cpu : Cpu} {k₀ k : Kernel} (h₀ : AtEntry k₀)
    (h : (kernelHighEntry cpu).run k₀ = some (true, k)) :
    ∃ B, B.card = 3 ∧ Inv ⟨k, [], []⟩ (fun n => ¬Allocatable n) B 0 := by
  obtain ⟨_, k₁, h1, h⟩ := run_bind_eq_some.mp h
  obtain ⟨-, rfl⟩ := Prod.mk.inj (Option.some.inj h1)
  obtain ⟨b, k₂, h2, h⟩ := run_bind_eq_some.mp h
  -- the tables of the kernel
  have H₁ := pmmInit_ramInv (D := fun _ => False) h₀.dir h₀.pmmNextPage h₀.pageTableNext
    h₀.pageTableFreeList fun _ => id
  obtain ⟨b', r₂, hvga, hr₂⟩ := mapKernelVga_boot H₁ (fun _ => id) h₀.dir h₀.pageTableNext
  have h2' : (b', { k₀ with ram := r₂ }) = (b, k₂) := by
    have := Option.some.inj h2
    dsimp only at this
    rwa [hvga] at this
  obtain ⟨rfl, rfl⟩ := Prod.mk.inj h2'
  cases b' with
  | false => cases Option.some.inj h
  | true =>
    obtain ⟨H₂, htemp, hpde, hpool, hboot, hclosed⟩ := hr₂ rfl
    rw [if_pos rfl] at h
    -- the first page of the heap
    have hkt : ktableOf r₂ kheapPde = none := by simp [ktableOf, hpde, present_zero]
    obtain ⟨r₃, hcommit, H₃, hheap, hkeep, hdir₃, hcl₃⟩ := heapCommit_first H₂ (fun _ => id)
      (by rw [hpde]; decide) ⟨0x100, by decide, fun h => h (by decide)⟩
      (fun j => by rw [heapAt, hkt]; rfl) hpool
    obtain ⟨eax, h₃, r₃', hgrow, hres⟩ := heapGrowOnePage_spec heapCommit
      (heapRep_empty k₀.heap.hdr) r₂
    obtain ⟨rfl, rfl, hcom, hrep⟩ : eax = 1 ∧ r₃' = r₃ ∧ h₃.committed = kheapBase + pageSize ∧
        HeapRep h₃ [pageBlock kheapBase] := by
      rcases hres with ⟨-, -, ⟨hlim, -⟩ | hfail⟩ | ⟨h1, h2, -, h4, h5⟩
      · exact absurd (show kheapBase + kheapMaxSize ≤ kheapBase from hlim) (by decide)
      · rw [hcommit] at hfail
        cases hfail
      · rw [hcommit] at h2
        obtain ⟨-, rfl⟩ := Prod.mk.inj h2
        exact ⟨h1, rfl, h4, h5⟩
    obtain ⟨_, k₃, h3, h⟩ := run_bind_eq_some.mp h
    have hk₃ : k₃ = { k₀ with heap := h₃, ram := r₃' } := by
      change (heapInit heapCommit k₀.heap.hdr r₂).map _ = some _ at h3
      rw [heapInit, hgrow] at h3
      exact (Prod.mk.inj (Option.some.inj h3)).2.symm
    obtain ⟨_, k₄, h4, h⟩ := run_bind_eq_some.mp h
    have hk₄ : k₄ = k₃ := by
      change (heapValidate k₃.heap).map _ = some _ at h4
      obtain ⟨v, -, hv⟩ := Option.map_eq_some_iff.mp h4
      exact (Prod.mk.inj hv).2.symm
    obtain ⟨_, k₅, h5, h⟩ := run_bind_eq_some.mp h
    obtain ⟨-, rfl⟩ := Prod.mk.inj (Option.some.inj h5)
    obtain ⟨_, k₆, h6, h⟩ := run_bind_eq_some.mp h
    obtain ⟨-, rfl⟩ := Prod.mk.inj (Option.some.inj h6)
    obtain ⟨_, k₇, h7, h⟩ := run_bind_eq_some.mp h
    obtain ⟨-, rfl⟩ := Prod.mk.inj (Option.some.inj h7)
    obtain ⟨_, k₈, h8, h⟩ := run_bind_eq_some.mp h
    obtain ⟨-, hk₈⟩ := Prod.mk.inj (Option.some.inj h8)
    have hsched₈ : k₈.sched = schedulerInit := by rw [← hk₈]
    have hpdes₈ : KernelPdes k₈.ram := by
      have hr₈ : k₈.ram = r₃' := by rw [← hk₈, hk₄, hk₃]
      rw [hr₈]
      exact kernelPdes_boot hboot hdir₃ hheap (hkeep _ htemp)
    have hst₈ : k₈.drivers.storageInitialized = 0 := by
      rw [← hk₈, hk₄, hk₃]
      exact h₀.storage
    have H₈ : Holds (asBooted k₈) (fun n => ¬Allocatable n) 0 := by
      refine holds_empty hrep (by rw [hcom]; exact H₃) ⟨hheap, hkeep _ htemp, hcl₃ hclosed⟩ k₈ ?_ ?_ ?_ ?_ ?_ ?_ ?_
      all_goals rw [← hk₈]
      · rw [hk₄, hk₃]
      · rw [hk₄, hk₃]
      · rw [hk₄, hk₃]
        exact h₀.gdt
    clear hk₈ hk₄ hk₃
    -- the task of the kernel
    obtain ⟨res, k₉, h9, h⟩ := run_bind_eq_some.mp h
    have hpost := (createKernelTss_boot H₈ pageDirBase 0).of_run h9
    cases res with
    | none => cases Option.some.inj h
    | some sel =>
      obtain ⟨tss, i, rfl, H₉, hdesc, hst₉, hpd₉⟩ := hpost _ rfl
      obtain ⟨hsched₉, htr₉, hsel⟩ := createKernelTss_sched h9
      have hidx : i * 8 / 8 = i := Nat.mul_div_cancel i (by decide)
      have H₉' : Holds k₉ (fun n => ¬Allocatable n) ({.block tss} + {.gdt i}) := by
        refine H₉.of_asBooted ?_ ?_
        · rw [hsched₉, hsched₈]
          exact H₉.task
        · rw [hsched₉, hsched₈, htr₉]
          exact schedOk_init hsel
      obtain ⟨done, k', h10, h⟩ := run_bind_eq_some.mp h
      have hstack := (enableSystemcall_boot cpu H₉').of_run h10
      cases done with
      | false => cases Option.some.inj h
      | true =>
        obtain ⟨-, rfl⟩ := Prod.mk.inj (Option.some.inj h)
        obtain ⟨stack, F, H'⟩ := hstack rfl
        have hker : k'.sched.kernelTssSelector = i * 8 := by
          rw [F.kernel, hsched₉]
        refine ⟨{.block tss} + {.gdt i} + {.block stack}, rfl, ⟨by simp, fun x hx => ?_, ?_,
          List.nodup_nil, by simp, fun hne => ?_, ?_⟩, ?_, Or.inl ?_⟩
        · simp only [Multiset.mem_add, Multiset.mem_singleton] at hx
          rcases hx with (rfl | rfl) | rfl
          · exact Or.inl ⟨_, rfl⟩
          · exact Or.inr ⟨_, rfl⟩
          · exact Or.inl ⟨_, rfl⟩
        · refine ⟨?_, ?_, ?_⟩
          · rw [hker]
            omega
          · rw [hker, hidx]
            simp
          · rw [hker, hidx, F.gdt i (Or.inr (by simp)), hdesc]
            simp
        · refine absurd ?_ hne
          change k'.drivers.storageInitialized = 0
          rw [F.storage, hst₉, hst₈]
        · change KernelPdes k'.ram
          rw [KernelPdes, F.ram.kernel, hpd₉]
          exact hpdes₈
        · simpa [heldItems] using H'
        · change k'.sched.reapProcess = 0
          rw [F.reap, hsched₉, hsched₈]
          rfl

end Entry

/-! ### The initialisers of the drivers -/

theorem DriverWindow.pde {virt : ℕ} (hv : DriverWindow virt) :
    virt < 2 ^ 32 ∧ virt / 2 ^ 22 ≠ kheapPde ∧ virt / 2 ^ 22 ≠ tempPde ∧
      bootDirectory (virt / 2 ^ 22) = 0 := by
  have hr : 0x1C0 ≤ virt / 2 ^ 22 ∧ virt / 2 ^ 22 < 0x1CC ∨ virt / 2 ^ 22 = 0x203 := by
    rcases hv with hv | hv <;> omega
  refine ⟨by rcases hv with hv | hv <;> omega, ?_, ?_, ?_⟩
  · simp only [kheapPde]
    omega
  · simp only [tempPde]
    omega
  · unfold bootDirectory
    rw [if_neg (by omega), if_neg (by omega), if_neg (by omega), if_neg (by omega),
      if_neg (by omega), if_neg (by omega)]

/-- Without processes there are no directories. -/
theorem Inv.no_dirs {w : World} {O : ℕ → Prop} {B : Items} (H : Inv w O B 0) (d : ℕ) :
    ¬dirsOf (B + heldItems w.held + (0 : Multiset ℕ).bind (liveItems w.k)) d := by
  intro hd
  obtain ⟨p, hp, -⟩ := H.of_process (by simp) (by simp) hd
  exact Multiset.notMem_zero _ hp

/-- **`map_page`** into a window of the drivers, before there are processes. -/
theorem Inv.mapDriver {w : World} {O : ℕ → Prop} {B : Items} (H : Inv w O B 0) {virt : ℕ}
    (phys flags : ℕ) (hv : DriverWindow virt) :
    Runs (onRam (mapPagePool virt phys flags)) w.k fun b k' => Inv { w with k := k' } O B 0 ∧
      k'.drivers = w.k.drivers ∧ (b = true → (ktableOf k'.ram (virt / 2 ^ 22)).isSome) := by
  obtain ⟨hlt, hne, hnt, hboot⟩ := hv.pde
  have hps : psBit (w.k.ram.frame pageDirBase (virt / 2 ^ 22)) = false := by
    rcases H.pdes (virt / 2 ^ 22) with h | ⟨-, h⟩
    · rw [h, hboot]
      decide
    · exact h
  obtain ⟨b, r, hm, hI, hkeep, hnew, hdir, -, hclosed⟩ :=
    mapPagePool_boot H.holds.ram H.no_dirs phys flags hlt hne hps
  refine runs_modifyGet ?_
  dsimp only
  rw [hm]
  refine ⟨⟨⟨fun p hp => absurd hp (Multiset.notMem_zero p), H.base,
    ⟨H.task.plain, H.task.desc, H.task.tss⟩, H.nodup, H.pages, fun h => hkeep _ (H.storage h),
    fun i => ?_⟩, ?_, H.reap⟩, rfl, hnew⟩
  · by_cases hi : i = virt / 2 ^ 22
    · by_cases hpd : r.frame pageDirBase i = bootDirectory i
      · exact Or.inl hpd
      · refine Or.inr ⟨?_, ?_⟩
        · simp only [KernelTables, storagePde]
          rcases hv with hv | hv <;> omega
        · cases b with
          | true =>
            have h := psBit_of_ktable (hnew rfl)
            rw [← hi] at h
            exact h
          | false =>
            -- a failed call changes nothing
            have hsame := mapPagePool_false hm
            rw [hi, hsame]
            exact hps
    · change r.frame pageDirBase i = bootDirectory i ∨ KernelTables i ∧
        psBit (r.frame pageDirBase i) = false
      rw [hdir i hi]
      exact H.pdes i
  · exact H.holds.of_ram H.holds.nodup hI
      ⟨hkeep _ H.holds.windows.heap, hkeep _ H.holds.windows.temp,
        hclosed (fun h => absurd h hnt) H.holds.windows.closed⟩ fun _ _ => Iff.rfl

/-- A step of an initialiser keeps the invariant. -/
theorem DriverStep.inv {w w' : World} {O : ℕ → Prop} {B : Items} (H : Inv w O B 0)
    (h : DriverStep w w') : ∃ O' B', Inv w' O' B' 0 := by
  cases h with
  | heapAlloc size h => exact ⟨O, B, H.heapAlloc h⟩
  | heapFree ptr hp h => exact ⟨O, B, H.heapFree hp h⟩
  | allocPage h =>
    obtain ⟨O', H'⟩ := H.allocPage h
    exact ⟨O', B, H'⟩
  | freePage n hn h =>
    obtain ⟨O', H'⟩ := H.freePage hn h
    exact ⟨O', B, H'⟩
  | mapPage virt phys flags hv h =>
    obtain ⟨b, k', hr, H', -, -⟩ := H.mapDriver phys flags hv
    rw [World.call, hr] at h
    obtain rfl := Option.some.inj h
    exact ⟨O, B, H'⟩
  | descriptor desc h =>
    obtain ⟨sel, k', hr, ⟨-, rfl⟩ | ⟨i, -, -, -, hH, F, -, -⟩⟩ :=
      gdtCreateDescriptor_spec H.holds desc
    · rw [World.call, hr] at h
      obtain rfl := Option.some.inj h
      exact ⟨O, B, H⟩
    · rw [World.call, hr] at h
      obtain rfl := Option.some.inj h
      refine ⟨O, B + {.gdt i}, ⟨fun p hp => absurd hp (Multiset.notMem_zero p), fun x hx => ?_, ?_,
        H.nodup, H.pages, ?_, ?_⟩, ?_, ?_⟩
      · rcases mem_add_singleton.mp hx with hx | rfl
        · exact H.base x hx
        · exact Or.inr ⟨i, rfl⟩
      · have hdesc := mem_add_singleton.mpr (Or.inl H.task.desc : _ ∈ B ∨ _ = Item.gdt i)
        have htss := mem_add_singleton.mpr (Or.inl H.task.tss : _ ∈ B ∨ _ = Item.gdt i)
        refine ⟨by rw [F.kernel]; exact H.task.plain, by rw [F.kernel]; exact hdesc, ?_⟩
        rw [F.kernel, F.gdt _ (Or.inr (Inv.mem_base_or (Multiset.mem_add.mpr
          (Or.inl H.task.desc))))]
        exact htss
      · rw [F.storage, StorageReady, ktableOf_congr F.ram.kernel]
        exact H.storage
      · rw [KernelPdes, F.ram.kernel]
        exact H.pdes
      · rw [Multiset.zero_bind, add_zero] at hH ⊢
        rw [add_right_comm]
        exact hH
      · rw [F.reap]
        exact H.reap
  | storage h =>
    have hrun : Runs storageInitialize w.k fun _ k' => Inv { w with k := k' } O B 0 := by
      refine runs_get_bind ?_
      refine runs_ite (fun _ => runs_pure H) fun _ => ?_
      refine runs_bind (H.mapDriver 0x3004F000 pagePresentRw (by unfold DriverWindow; decide)) ?_
      rintro b k' ⟨H', -, hnew⟩
      refine runs_ite (fun hb => ?_) fun _ => runs_pure H'
      refine runs_modify_bind (runs_pure ⟨⟨fun p hp => absurd hp (Multiset.notMem_zero p), H'.base,
        ⟨H'.task.plain, H'.task.desc, H'.task.tss⟩, H'.nodup, H'.pages, fun _ => hnew hb, H'.pdes⟩,
        ?_, H'.reap⟩)
      exact H'.holds.congr_state rfl rfl rfl rfl rfl rfl rfl rfl rfl
    obtain ⟨_, k', hr, H'⟩ := hrun
    rw [World.call, hr] at h
    obtain rfl := Option.some.inj h
    exact ⟨O, B, H'⟩
  | publish d hs =>
    refine ⟨O, B, H.of_same ⟨fun _ _ _ => rfl, rfl, rfl, rfl, rfl, hs⟩ ?_ rfl H.nodup H.pages⟩
    exact H.holds.congr_state rfl rfl rfl rfl rfl rfl rfl rfl rfl

/-- **The system after boot has its invariant**, with no process. -/
theorem booted_inv {w : World} (h : Booted w) : ∃ O B, Inv w O B 0 := by
  induction h with
  | entry h₀ h =>
    obtain ⟨B, -, H⟩ := kernelHighEntry_inv h₀ h
    exact ⟨_, B, H⟩
  | driver _ h ih =>
    obtain ⟨O, B, H⟩ := ih
    exact h.inv H

/-- **The invariant along runs**, from any state that has it. -/
theorem Inv.reach {w w' : World} {O : ℕ → Prop} {B : Items} {P : Multiset ℕ} (H : Inv w O B P)
    (h : Reach Careful w w') : ∃ O' P', Inv w' O' B P' := by
  refine h.invariant (I := fun w => ∃ O P, Inv w O B P) ⟨O, P, H⟩ ?_
  rintro w w' op ⟨O, P, H⟩ ha hc he
  exact H.step ha hc he

/-- **The invariant of every run** in which `process_destroy` leaves the process
that awaits reaping alone. -/
theorem reach_inv {w₀ w : World} (h₀ : Booted w₀) (h : Reach Careful w₀ w) :
    ∃ O B P, Inv w O B P := by
  obtain ⟨O, B, H⟩ := booted_inv h₀
  obtain ⟨O', P', H'⟩ := H.reach h
  exact ⟨O', B, P', H'⟩

end VirtualKernel
