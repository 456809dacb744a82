/-
Calls on a process that exists: `process_heap_grow`,
`process_prepare_test_task`, `map_user_page`, `unmap_page`, pages that a client
allocates and frees, and the window of the storage driver.

None of them takes or gives back an item; they change page tables and at most
the heap mark of a process object (`SameObjects`).  Physical pages may change
hands, so the set `O` of pages in use for other reasons changes.
-/
import VirtualKernel.CreateProtected
import VirtualKernel.Boot

namespace VirtualKernel

open Lib

/-- Nothing but memory below the heap and heap marks has changed. -/
structure SameObjects (k k' : Kernel) : Prop where
  mem : ∀ q o, o ≠ procHeapCurrent → k'.mem q o = k.mem q o
  gdt : k'.gdt = k.gdt
  sched : k'.sched = k.sched
  tr : k'.tr = k.tr
  kernel : k'.ram.frame pageDirBase = k.ram.frame pageDirBase
  storage : k'.drivers.storageInitialized = k.drivers.storageInitialized

namespace SameObjects

variable {k k' k'' : Kernel}

theorem refl (k : Kernel) : SameObjects k k :=
  ⟨fun _ _ _ => rfl, rfl, rfl, rfl, rfl, rfl⟩

theorem trans (h : SameObjects k k') (h' : SameObjects k' k'') : SameObjects k k'' where
  mem := fun q o ho => (h'.mem q o ho).trans (h.mem q o ho)
  gdt := h'.gdt.trans h.gdt
  sched := h'.sched.trans h.sched
  tr := h'.tr.trans h.tr
  kernel := h'.kernel.trans h.kernel
  storage := h'.storage.trans h.storage

theorem of_ram (h : OnlyRam k k') (hk : k'.ram.frame pageDirBase = k.ram.frame pageDirBase) :
    SameObjects k k' :=
  ⟨fun _ _ _ => by rw [h.mem], h.gdt, h.sched, h.tr, hk, by rw [h.drivers]⟩

end SameObjects

section Operations

variable {k k' : Kernel} {O : ℕ → Prop} {T : Items} {p d : ℕ}

/-- **Mapping one new page** in a directory among the items. -/
theorem kAllocMapPage_keeps (H : Holds k O T) (hd : Item.dir d ∈ T) (virt : ℕ) {flags : ℕ}
    (hfl : flags.testBit 9 = true) (f : ℕ → ℕ) :
    Runs (onRam (allocMapPage d virt flags f)) k fun _ k' =>
      (∃ O', (∀ m, O m → O' m) ∧ Holds k' O' T) ∧ OnlyRam k k' ∧ SameObjects k k' := by
  obtain ⟨rest, rfl, -⟩ := items_split 0 hd
  refine (kAllocMapPage_spec H virt hfl f).mono ?_
  rintro b k' ⟨F, hR, ⟨-, H', -, -⟩ | ⟨-, H', -⟩⟩
  · exact ⟨⟨O, fun _ => id, H'⟩, hR, .of_ram hR F.ram.kernel⟩
  · exact ⟨⟨_, fun _ => Or.inl, H'⟩, hR, .of_ram hR F.ram.kernel⟩

/-- **`process_heap_grow`** of a process that exists. -/
theorem processHeapGrow_keeps (H : Holds k O T) (hd : Item.dir (k.mem p procPageDir) ∈ T) :
    Runs (processHeapGrow p) k fun _ k' =>
      (∃ O', (∀ m, O m → O' m) ∧ Holds k' O' T) ∧ SameObjects k k' := by
  refine runs_get_bind ?_
  dsimp only
  refine runs_ite (fun _ => runs_pure ⟨⟨O, fun _ => id, H⟩, .refl k⟩) fun _ => ?_
  refine runs_bind (kAllocMapPage_keeps H hd _ (by decide) _) ?_
  rintro b k₁ ⟨⟨O₁, hO, H₁⟩, -, hS⟩
  refine runs_ite (fun _ => ?_) fun _ => runs_pure ⟨⟨O₁, hO, H₁⟩, hS⟩
  refine runs_modify_bind (runs_pure ⟨⟨O₁, hO, H₁.setMem _ _⟩, hS.trans ?_⟩)
  refine ⟨fun q o ho => ?_, rfl, rfl, rfl, rfl, rfl⟩
  by_cases hq : q = p
  · rw [hq]
    simp only [Kernel.setMem, Function.update_self]
    exact Function.update_of_ne ho _ _
  · simp only [Kernel.setMem, Function.update_of_ne hq]

/-- **`process_prepare_test_task`** of a process that exists. -/
theorem processPrepareTestTask_keeps (H : Holds k O T) (hd : Item.dir (k.mem p procPageDir) ∈ T)
    (source size : ℕ) (image : ℕ → ℕ) :
    Runs (processPrepareTestTask p source size image) k fun _ k' =>
      (∃ O', (∀ m, O m → O' m) ∧ Holds k' O' T) ∧ SameObjects k k' := by
  have hnone : (∃ O', (∀ m, O m → O' m) ∧ Holds k O' T) ∧ SameObjects k k :=
    ⟨⟨O, fun _ => id, H⟩, .refl k⟩
  refine runs_get_bind ?_
  dsimp only
  refine runs_ite (fun _ => runs_pure hnone) fun _ => ?_
  cases entryAddress k p with
  | none => exact runs_pure hnone
  | some edx =>
    refine runs_ite (fun _ => runs_pure hnone) fun _ => ?_
    refine runs_bind (kAllocMapPage_keeps H hd _ (by decide) _) ?_
    rintro b k₁ ⟨⟨O₁, hO₁, H₁⟩, -, hS₁⟩
    refine runs_ite (fun _ => ?_) fun _ => runs_pure ⟨⟨O₁, hO₁, H₁⟩, hS₁⟩
    refine runs_bind (kAllocMapPage_keeps H₁ hd _ (by decide) _) ?_
    rintro b k₂ ⟨⟨O₂, hO₂, H₂⟩, -, hS₂⟩
    exact runs_ite (fun _ => runs_pure ⟨⟨O₂, fun m h => hO₂ m (hO₁ m h), H₂⟩, hS₁.trans hS₂⟩)
      fun _ => runs_pure ⟨⟨O₂, fun m h => hO₂ m (hO₁ m h), H₂⟩, hS₁.trans hS₂⟩

/-! ### Pages of clients -/

theorem Holds.of_pages (H : Holds k O T) {O' : ℕ → Prop} {r : Ram}
    (hr : RamInv r O' (dirsOf T) none k.heap.committed)
    (hk : r.frame pageDirBase = k.ram.frame pageDirBase)
    (hc : TempClosed k.ram → TempClosed r) : Holds { k with ram := r } O' T :=
  H.of_ram H.nodup hr (H.windows.of_kernel hk hc) fun _ _ => Iff.rfl

/-- **`pmm_alloc_page`** by a client: the page was nobody's and is kept. -/
theorem kPmmAllocPage_keeps (H : Holds k O T) :
    Runs (onRam pmmAllocPage) k fun a k' => SameObjects k k' ∧
      (a = 0 ∧ Holds k' O T ∨
        ∃ n, a = n * pageSize ∧ Allocatable n ∧ ¬O n ∧ Holds k' (fun m => O m ∨ m = n) T) := by
  refine runs_modifyGet ?_
  dsimp only
  rcases pmmAllocPage_spec H.ram with ⟨h, -⟩ | ⟨n, r, h, hn, hfree, -, hf, -, -, hI⟩
  · rw [h]
    exact ⟨.refl k, Or.inl ⟨rfl, H⟩⟩
  · rw [h]
    have hO : ¬O n := fun hO => by
      have hused := (H.ram.pages.ledger.exact n).mpr ⟨.other, hO⟩
      rw [hfree] at hused
      cases hused
    refine ⟨.of_ram rfl (by dsimp only; rw [hf]), Or.inr ⟨n, rfl, hn, hO, ?_⟩⟩
    exact H.of_pages ⟨hI.tables, hI.pages.keep⟩ (by rw [hf]) fun hc => hc.congr (.of_frame hf)

/-- **`pmm_free_page`** by the client that keeps the page. -/
theorem kPmmFreePage_keeps {n : ℕ} (H : Holds k O T) (hn : O n) (ha : Allocatable n) :
    Runs (onRam fun r => ((), pmmFreePage (n * pageSize) r)) k fun _ k' => SameObjects k k' ∧
      Holds k' (fun m => O m ∧ m ≠ n) T := by
  refine runs_modifyGet ?_
  dsimp only
  have hI : RamInv k.ram (fun m => O m ∧ m ≠ n) (dirsOf T) (some n) k.heap.committed :=
    ⟨H.ram.tables, H.ram.pages.takeBack hn ha⟩
  obtain ⟨hfree, hf⟩ := pmmFreePage_pending hI
  exact ⟨.of_ram rfl (by dsimp only; rw [hf]), H.of_pages hfree (by rw [hf])
    fun hc => hc.congr (.of_frame hf)⟩

/-- **`map_user_page`** of a page without the owner bit. -/
theorem kMapUserPage_shared (H : Holds k O T) (hd : Item.dir d ∈ T) (virt phys : ℕ) {flags : ℕ}
    (hfl : flags.testBit 9 = false) :
    Runs (onRam (mapUserPage d virt phys flags)) k fun _ k' =>
      (∃ O', (∀ m, O m → O' m) ∧ Holds k' O' T) ∧ SameObjects k k' := by
  refine runs_modifyGet ?_
  dsimp only
  by_cases hbad : d = 0 ∨ userSpaceLimit ≤ virt ∨ virt % pageSize ≠ 0 ∨ phys % pageSize ≠ 0
  · rw [mapUserPage, if_pos hbad]
    exact ⟨⟨O, fun _ => id, H⟩, .refl k⟩
  simp only [not_or, not_not, Nat.not_le] at hbad
  rcases mapUserPage_spec H.ram.tables hd flags hbad.2.1 hbad.2.2.1 hbad.2.2.2 with
    ⟨h, -⟩ | ⟨r, h, E⟩
  · rw [h]
    exact ⟨⟨O, fun _ => id, H⟩, .refl k⟩
  · rw [h]
    have hw : TableInv.ownedWord (userPte phys flags) = none := by
      rw [ownedWord_userPte, hfl]
      rfl
    exact ⟨⟨_, fun _ => Or.inl, H.of_pages (H.ram.entry_shared hd E hw) E.dirs.kernel
      E.frame.closed⟩,
      .of_ram rfl E.dirs.kernel⟩

/-- **`map_user_page`** of a page that the caller keeps, with the owner bit: the
page goes over to the directory. -/
theorem kMapUserPage_owned {n : ℕ} (H : Holds k O T) (hd : Item.dir d ∈ T) (virt : ℕ) {flags : ℕ}
    (hfl : flags.testBit 9 = true) (hn : O n) (ha : Allocatable n) :
    Runs (onRam (mapUserPage d virt (n * pageSize) flags)) k fun b k' => SameObjects k k' ∧
      (b = false ∧ Holds k' O T ∨
        b = true ∧ ∃ O', (∀ m, O m → m ≠ n → O' m) ∧ Holds k' O' T) := by
  refine runs_modifyGet ?_
  dsimp only
  by_cases hbad : d = 0 ∨ userSpaceLimit ≤ virt ∨ virt % pageSize ≠ 0 ∨ n * pageSize % pageSize ≠ 0
  · rw [mapUserPage, if_pos hbad]
    exact ⟨.refl k, Or.inl ⟨rfl, H⟩⟩
  simp only [not_or, not_not, Nat.not_le] at hbad
  have hI : RamInv k.ram (fun m => O m ∧ m ≠ n) (dirsOf T) (some n) k.heap.committed :=
    ⟨H.ram.tables, H.ram.pages.takeBack hn ha⟩
  rcases mapUserPage_spec H.ram.tables hd flags hbad.2.1 hbad.2.2.1 hbad.2.2.2 with
    ⟨h, -⟩ | ⟨r, h, E⟩
  · rw [h]
    exact ⟨.refl k, Or.inl ⟨rfl, H⟩⟩
  · rw [h]
    have hw : TableInv.ownedWord (userPte (n * pageSize) flags) = some n := by
      rw [ownedWord_userPte, hfl, ha.pageAddr_eq, Nat.mul_div_cancel n (by decide)]
      rfl
    exact ⟨.of_ram rfl E.dirs.kernel, Or.inr ⟨rfl, _, fun m hm hne => Or.inl ⟨hm, hne⟩,
      H.of_pages (hI.entry_owned hd E hw) E.dirs.kernel E.frame.closed⟩⟩

/-- **`unmap_page`** on a live directory or on the kernel's. -/
theorem kUnmapPage_keeps (H : Holds k O T) (hd : Item.dir d ∈ T ∨ d = pageDirBase) {virt : ℕ}
    (hv : virt < 2 ^ 32) :
    Runs (onRam (unmapPage d virt)) k fun _ k' =>
      (∃ O', (∀ m, O m → O' m) ∧ Holds k' O' T) ∧ SameObjects k k' := by
  refine runs_modifyGet ?_
  dsimp only
  obtain ⟨O', hI, hF, hO, hc⟩ := unmapPage_spec H.ram hd hv
  exact ⟨⟨O', hO, H.of_pages hI hF.kernel hc⟩, .of_ram rfl hF.kernel⟩

/-! ### The storage window -/

abbrev storagePde : ℕ := 0x203

/-- The table that `storage_initialize` has reserved. -/
def StorageReady (k : Kernel) : Prop := (ktableOf k.ram storagePde).isSome

/-- **`storage_map_mmio_window`** once its table exists. -/
theorem storageMapMmioWindow_keeps (H : Holds k O T) (hs : StorageReady k) (physical : ℕ) :
    Runs (storageMapMmioWindow physical) k fun _ k' => Holds k' O T ∧ SameObjects k k' := by
  refine runs_get_bind ?_
  dsimp only
  refine runs_ite (fun _ => runs_pure ⟨H, .refl k⟩) fun _ =>
    runs_ite (fun _ => runs_pure ⟨H, .refl k⟩) fun _ => ?_
  obtain ⟨t, ht⟩ := Option.isSome_iff_exists.mp hs
  refine runs_modifyGet_bind ?_
  rw [mapPagePool_eq ht (by decide)]
  dsimp only
  rw [if_pos rfl]
  obtain ⟨hI, hF⟩ := H.ram.setWindow ht (by decide) (storageMmio / 2 ^ 12 % 2 ^ 10)
    (pageAddr (pageAddr physical) ||| 0x1B ||| pagePresentRw)
  refine runs_modify_bind (runs_pure ⟨?_, fun _ _ _ => rfl, rfl, rfl, rfl, hF.kernel, rfl⟩)
  exact (H.of_pages hI hF.kernel fun hc => hc.setOther H.ram.tables ht (by decide) _ _).congr_state
    rfl rfl rfl rfl rfl rfl rfl rfl rfl

end Operations

end VirtualKernel
