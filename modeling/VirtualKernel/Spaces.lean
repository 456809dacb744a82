/-
Address spaces as a whole: opening one, filling the one of a VM86 process,
destroying one, and backing the kernel heap.

`destroyPageDirectory_spec` is the loop invariant of the two nested loops of
`destroy_page_directory` taken to its end; `v86MapLowMemory_spec` that of the
three loops of `v86_map_low_memory`.  Both leave every other directory alone.
-/
import VirtualKernel.PagingSpec
import VirtualKernel.HeapAlloc
import Mathlib.Data.Finset.Card

namespace VirtualKernel

open Lib

section Spaces

variable {r r' : Ram} {O D : ℕ → Prop} {pend : Option ℕ} {c : ℕ}

/-! ### Opening a directory -/

/-- **`create_page_directory`**: a new directory without user tables. -/
theorem createPageDirectory_spec (H : RamInv r O D pend c) :
    (createPageDirectory r = (none, r) ∧ allocPageTable r = (none, r)) ∨
    ∃ d r', createPageDirectory r = (some d, r') ∧ ¬D d ∧ d ≠ 0 ∧ d ≠ pageDirBase ∧
      RamInv r' O (fun x => D x ∨ x = d) pend c ∧ RamFrame D r r' ∧ SameAlloc r r' ∧
      ∀ i, tableOf r' d i = none := by
  rw [createPageDirectory]
  rcases allocPageTable_spec H.tables with ⟨hnone, -, -⟩ | ⟨d, r₁, hsome, F⟩
  · rw [hnone]
    exact Or.inl ⟨rfl, rfl⟩
  · rw [hsome]
    obtain ⟨h1, h2, h3, h4⟩ := H.tables.openDir F
    have hs : SameAlloc r (r₁.setPage d fun i =>
        if i < 1024 then kernelCopy r₁ i else r₁.frame d i) := ⟨F.used, F.hint⟩
    refine Or.inr ⟨d, _, rfl, fun hd => F.ne_dir hd rfl, F.ne_zero, F.ne_pageDirBase, ⟨h1, ?_⟩,
      .of_kernel h2 h3, hs, h4⟩
    rw [hs.used, hs.hint]
    have hcongr := H.pages.congr (fun _ => Iff.rfl) (fun d' i j hd' => h2.ownedAt_eq hd' i j)
      h3.heapAt_eq
    refine hcongr.congr_dirs fun d' i j n hown => ?_
    have hne : d' ≠ d := by
      rintro rfl
      rw [ownedAt, h4] at hown
      cases hown
    simp [hne]

/-! ### Destroying a directory -/

theorem pageAddr_eq_mul (e : ℕ) : pageAddr e = pageAddr e / pageSize * pageSize :=
  (Nat.div_mul_cancel (Nat.dvd_of_mod_eq_zero (pageAddr_aligned e))).symm

/-- One turn of the inner loop clears one entry. -/
theorem destroyPte_spec (H : RamInv r O D pend c) {d i t j : ℕ} (hd : D d)
    (ht : tableOf r d i = some t) (hj : j < 1024) :
    RamInv (destroyPte t r j) O D pend c ∧ RamFrame (Others D d) r (destroyPte t r j) ∧
      (destroyPte t r j).frame d = r.frame d ∧
      (destroyPte t r j).frame t = Function.update (r.frame t) j 0 := by
  have hdt : d ≠ t := (H.tables.table_ne_dir hd hd ht).symm
  have hown : ownedAt r d i j = TableInv.ownedWord (r.frame t j) := by
    simp [ownedAt, ht, hj, TableInv.ownedWord]
  rw [destroyPte]
  dsimp only
  by_cases hg : ¬present (r.frame t j) = true ∨ ¬userBit (r.frame t j) = true
  · -- an entry that is not a user page is empty
    rw [if_pos hg]
    have hz : r.frame t j = 0 := by
      rcases H.tables.user_pte d i t hd ht j hj with h | h
      · exact h
      · exact absurd hg (by simp [h])
    refine ⟨H, .refl _ _, rfl, ?_⟩
    rw [← hz, Function.update_eq_self]
  rw [if_neg hg]
  obtain ⟨hp, -⟩ := not_or.mp hg
  have hp : present (r.frame t j) = true := not_not.mp hp
  by_cases ho : ownedBit (r.frame t j) = true
  · rw [if_pos ho]
    set n := pageAddr (r.frame t j) / pageSize with hn
    have hown' : ownedAt r d i j = some n := by simp [hown, TableInv.ownedWord, hp, ho, hn]
    have hall : Allocatable n := H.pages.ok (.pte d i j) n ⟨hd, hown'⟩ (by simp)
    have hfree : pmmFreePage (pageAddr (r.frame t j)) r =
        { r with used := Function.update r.used n false
                 pmmNextPage := if n < r.pmmNextPage then n else r.pmmNextPage } := by
      rw [pmmFreePage, if_neg]
      rw [pageAddr_eq_mul]
      exact hall.ne_zero
    rw [hfree]
    set r₁ : Ram := { r with used := Function.update r.used n false
                             pmmNextPage := if n < r.pmmNextPage then n else r.pmmNextPage } with hr₁
    have H₁ : TableInv r₁ D c := H.tables.congr_frame rfl rfl rfl
    obtain ⟨h1, h2, h3, h4⟩ := H₁.setPte hd (t := t) ht hj (v := 0) (Or.inl rfl)
    have F₁ : RamFrame (Others D d) r r₁ := .of_frame rfl
    refine ⟨⟨h1, ?_⟩, F₁.trans (.of_kernel h2 h3), Ram.frame_setWord_of_ne _ _ _ hdt,
      Ram.frame_setWord_self _ _ _ _⟩
    exact (H.pages.freePte hd hown').congr (fun _ => Iff.rfl) h4 h3.heapAt_eq
  · rw [if_neg ho]
    have hown' : ownedAt r d i j = none := by simp [hown, TableInv.ownedWord, ho]
    obtain ⟨h1, h2, h3, h4⟩ := H.tables.setPte hd ht hj (v := 0) (Or.inl rfl)
    refine ⟨⟨h1, ?_⟩, .of_kernel h2 h3, Ram.frame_setWord_of_ne _ _ _ hdt,
      Ram.frame_setWord_self _ _ _ _⟩
    refine H.pages.congr (fun _ => Iff.rfl) (fun d' i' j' hd' => ?_) h3.heapAt_eq
    rw [h4 d' i' j' hd', PageInv.setOwn]
    split_ifs with hpos
    · obtain ⟨rfl, rfl, rfl⟩ := hpos
      exact hown'.symm
    · rfl

/-- The inner loop clears the entries below `n`. -/
theorem destroyPtes_spec (H : RamInv r O D pend c) {d i t : ℕ} (hd : D d)
    (ht : tableOf r d i = some t) : ∀ n ≤ 1024,
    RamInv ((List.range n).foldl (destroyPte t) r) O D pend c ∧
      RamFrame (Others D d) r ((List.range n).foldl (destroyPte t) r) ∧
      ((List.range n).foldl (destroyPte t) r).frame d = r.frame d ∧
      ∀ j < n, ((List.range n).foldl (destroyPte t) r).frame t j = 0 := by
  intro n
  induction n with
  | zero => exact fun _ => ⟨H, .refl _ _, rfl, by simp⟩
  | succ n ih =>
    intro hn
    obtain ⟨H₁, F₁, hd₁, hz₁⟩ := ih (by omega)
    rw [List.range_succ, List.foldl_append]
    set r₁ := (List.range n).foldl (destroyPte t) r with hr₁
    have ht₁ : tableOf r₁ d i = some t := (tableOf_congr hd₁ i).trans ht
    obtain ⟨H₂, F₂, hd₂, hz₂⟩ := destroyPte_spec H₁ hd ht₁ (j := n) (by omega)
    refine ⟨H₂, F₁.trans F₂, hd₂.trans hd₁, fun j hj => ?_⟩
    simp only [List.foldl_cons, List.foldl_nil, hz₂]
    by_cases hjn : j = n
    · rw [hjn, Function.update_self]
    · rw [Function.update_of_ne hjn]
      exact hz₁ j (by omega)

/-- One turn of the outer loop takes one user table out of the directory. -/
theorem destroyPde_spec (H : RamInv r O D pend c) {d i : ℕ} (hd : D d) (hi : i < 512) :
    RamInv (destroyPde d r i) O D pend c ∧ RamFrame (Others D d) r (destroyPde d r i) ∧
      tableOf (destroyPde d r i) d i = none ∧
      ∀ i', tableOf r d i' = none → tableOf (destroyPde d r i) d i' = none := by
  rw [destroyPde]
  dsimp only
  by_cases hg : ¬present (r.frame d i) = true ∨ ¬userBit (r.frame d i) = true ∨
      psBit (r.frame d i) = true
  · rw [if_pos hg]
    refine ⟨H, .refl _ _, if_neg ?_, fun _ => id⟩
    rintro ⟨-, h1, h2, h3⟩
    rcases hg with h | h | h
    · exact h h1
    · exact h h2
    · exact h3 h
  rw [if_neg hg]
  simp only [not_or, not_not] at hg
  obtain ⟨hp, hu, hps⟩ := hg
  set t := pageAddr (r.frame d i) with ht'
  have ht : tableOf r d i = some t := if_pos ⟨hi, hp, hu, hps⟩
  obtain ⟨H₁, F₁, hd₁, hz₁⟩ := destroyPtes_spec H hd ht 1024 (le_refl _)
  set r₁ := (List.range 1024).foldl (destroyPte t) r with hr₁
  have ht₁ : tableOf r₁ d i = some t := (tableOf_congr hd₁ i).trans ht
  have hown : ∀ j, ownedAt r₁ d i j = none := by
    intro j
    rw [ownedAt, ht₁, Option.bind_some]
    refine if_neg ?_
    rintro ⟨hj, hpj, -⟩
    rw [hz₁ j hj, present_zero] at hpj
    cases hpj
  obtain ⟨h1, h2, h3, h4, h5⟩ := H₁.tables.unlinkTable hd ht₁ hown
  refine ⟨⟨h1, ?_⟩, F₁.trans (.of_kernel h2 h3), by rw [h4 d i hd, if_pos ⟨rfl, rfl⟩],
    fun i' hi' => ?_⟩
  · have hu : ((freePageTable t r₁).setWord d i 0).used = r₁.used :=
      TableInv.freePageTable_used t r₁
    have hn : ((freePageTable t r₁).setWord d i 0).pmmNextPage = r₁.pmmNextPage :=
      TableInv.freePageTable_hint t r₁
    rw [hu, hn]
    exact H₁.pages.congr (fun _ => Iff.rfl) h5 h3.heapAt_eq
  · rw [h4 d i' hd]
    split_ifs
    · rfl
    · rw [tableOf_congr hd₁]
      exact hi'

/-- The outer loop takes out the tables below entry `n`. -/
theorem destroyPdes_spec (H : RamInv r O D pend c) {d : ℕ} (hd : D d) : ∀ n ≤ 512,
    RamInv ((List.range n).foldl (destroyPde d) r) O D pend c ∧
      RamFrame (Others D d) r ((List.range n).foldl (destroyPde d) r) ∧
      ∀ i < n, tableOf ((List.range n).foldl (destroyPde d) r) d i = none := by
  intro n
  induction n with
  | zero => exact fun _ => ⟨H, .refl _ _, by simp⟩
  | succ n ih =>
    intro hn
    obtain ⟨H₁, F₁, hz₁⟩ := ih (by omega)
    rw [List.range_succ, List.foldl_append]
    obtain ⟨H₂, F₂, hz₂, hkeep⟩ := destroyPde_spec H₁ hd (i := n) (by omega)
    refine ⟨H₂, F₁.trans F₂, fun i hi => ?_⟩
    by_cases hin : i = n
    · exact hin ▸ hz₂
    · exact hkeep i (hz₁ i (by omega))

/-- **`destroy_page_directory`** gives back the tables and the owned pages of
the directory and nothing else. -/
theorem destroyPageDirectory_spec (H : RamInv r O D pend c) {d : ℕ} (hd : D d) :
    RamInv (destroyPageDirectory d r) O (Others D d) pend c ∧
      RamFrame (Others D d) r (destroyPageDirectory d r) := by
  have hb := H.tables.node_bounds (x := .dir d) ⟨hd, rfl⟩
  have hk := H.tables.node_ne_pageDirBase (x := .dir d) ⟨hd, rfl⟩
  have hguard : ¬(d = 0 ∨ d = pageDirBase) := by
    have h := hb.1
    simp only [pageTablePoolBase] at h
    omega
  rw [destroyPageDirectory, if_neg hguard]
  obtain ⟨H₁, F₁, hz₁⟩ := destroyPdes_spec H hd 512 (le_refl _)
  set r₁ := (List.range 512).foldl (destroyPde d) r with hr₁
  have hnone : ∀ i, tableOf r₁ d i = none := by
    intro i
    by_cases hi : i < 512
    · exact hz₁ i hi
    · exact if_neg fun h => hi h.1
  obtain ⟨h1, h2, h3⟩ := H₁.tables.closeDir hd hnone
  refine ⟨⟨h1, ?_⟩, F₁.trans (.of_kernel h2 h3)⟩
  rw [TableInv.freePageTable_used, TableInv.freePageTable_hint]
  have hdirs : PageInv (ownedAt r₁) (heapAt r₁) r₁.used r₁.pmmNextPage O (Others D d) pend := by
    refine H₁.pages.congr_dirs fun d' i j n hown => ?_
    have hne : d' ≠ d := by
      rintro rfl
      rw [ownedAt, hnone] at hown
      cases hown
    simp [Others, hne]
  exact hdirs.congr (fun _ => Iff.rfl) (fun d' i j hd' => h2.ownedAt_eq hd' i j) h3.heapAt_eq

/-! ### Backing the kernel heap -/

/-- Allocating a page, as a case distinction on its result. -/
theorem pmmAllocPage_cases (H : RamInv r O D none c) {α : Type} (fail : Ram → α)
    (ok : ℕ → Ram → α) :
    (match pmmAllocPage r with
      | (0, r) => fail r
      | (ebx, r) => ok ebx r) = fail r ∧ (∀ n, Allocatable n → r.used n = true) ∨
    ∃ n r', (match pmmAllocPage r with
      | (0, r) => fail r
      | (ebx, r) => ok ebx r) = ok (n * pageSize) r' ∧ Allocatable n ∧ r.used n = false ∧
      r'.used = Function.update r.used n true ∧ r'.frame = r.frame ∧
      r'.pageTableFreeList = r.pageTableFreeList ∧ r'.pageTableNext = r.pageTableNext ∧
      RamInv r' O D (some n) c := by
  rcases pmmAllocPage_spec H with ⟨h, hfull⟩ | ⟨n, r', h, hn, hrest⟩
  · rw [h]
    exact Or.inl ⟨rfl, hfull⟩
  · refine Or.inr ⟨n, r', ?_, hn, hrest⟩
    rw [h]
    split
    · rename_i heq
      exact absurd (congrArg Prod.fst heq) hn.ne_zero
    · rename_i heq
      obtain ⟨rfl, rfl⟩ := Prod.mk.inj heq
      rfl

/-- The page after the committed end is mapped, given the heap's table. -/
theorem mapPagePool_heap {n k : ℕ} (H : RamInv r O D (some n) c) (hk : ktableOf r kheapPde = some k)
    (hc1 : kheapBase ≤ c) (hc2 : c < kheapBase + kheapMaxSize) (hc3 : c % pageSize = 0) :
    ∃ r', mapPagePool c (n * pageSize) pagePresentRw r = (true, r') ∧
      RamInv r' O D none (c + pageSize) ∧ RamFrame D r r' := by
  have hn : Allocatable n := H.pages.ok .pending n rfl (by simp)
  set j := c / 2 ^ 12 % 2 ^ 10 with hj
  have hcv : c / 2 ^ 22 = kheapPde := by
    simp only [kheapBase, kheapMaxSize] at hc1 hc2
    simp only [kheapPde]
    omega
  have hjc : (c - kheapBase) / pageSize = j := by
    simp only [kheapBase, kheapMaxSize, pageSize] at hc1 hc2 hc3 ⊢
    omega
  have hnext : (c + pageSize - kheapBase) / pageSize = j + 1 := by
    rw [← hjc, Nat.sub_add_comm hc1, Nat.add_div_right _ (by decide)]
  obtain ⟨hb1, hb2⟩ := windowPte_bits (n * pageSize)
  obtain ⟨h1, h2, h3⟩ := H.tables.setHeapPte
    (v := pageAddr (n * pageSize) ||| pagePresentRw ||| pagePresentRw) hk
    (Nat.mod_lt _ (by decide) : j < 1024) (fun j' hj' => by
      rw [hnext] at hj'
      exact ⟨by omega, fun he => by omega⟩)
  have hempty : heapAt r j = none := by
    rw [heapAt, hk, Option.bind_some,
      H.tables.heap_tail k hk j (by omega) (Nat.mod_lt _ (by decide))]
    simp [present_zero]
  have hheap : ∀ j' m, heapAt r j' = some m → heapAt (r.setWord k j
      (pageAddr (n * pageSize) ||| pagePresentRw ||| pagePresentRw)) j' = some m := by
    intro j' m hj'
    rw [h3 j', Function.update_of_ne, hj']
    rintro rfl
    rw [hempty] at hj'
    cases hj'
  have hclosed := fun hc : TempClosed r => hc.setOther H.tables hk (by decide) j
    (pageAddr (n * pageSize) ||| pagePresentRw ||| pagePresentRw)
  refine ⟨_, mapPagePool_eq hk hcv _ _, ⟨h1, ?_⟩, ⟨h2, hheap⟩, hclosed⟩
  refine (H.pages.placeHeap hempty).congr (fun _ => Iff.rfl)
    (fun d i j' hd => h2.ownedAt_eq hd i j') fun j' => ?_
  rw [h3 j', hb1, hb2, hn.pageAddr_eq, Nat.mul_div_cancel n (by decide), if_pos rfl]

/-- Backing one more heap page keeps the invariant and every address space. -/
theorem heapCommit_inv (O D : ℕ → Prop) (r₀ : Ram) :
    CommitInv heapCommit fun c r => RamInv r O D none c ∧ RamFrame D r₀ r ∧ Windows r := by
  -- a page is always mapped once it is allocated
  have key : ∀ c r, RamInv r O D none c ∧ RamFrame D r₀ r ∧ Windows r → kheapBase ≤ c →
      c < kheapBase + kheapMaxSize → c % pageSize = 0 →
      heapCommit c r = (false, r) ∨ ∃ r', heapCommit c r = (true, r') ∧
        RamInv r' O D none (c + pageSize) ∧ RamFrame D r₀ r' ∧ Windows r' := by
    rintro c r ⟨H, F, W⟩ hc1 hc2 hc3
    rcases pmmAllocPage_cases H (fun r => (false, r)) (fun ebx r => mapPagePool c ebx pagePresentRw r)
      with ⟨h, -⟩ | ⟨n, r₁, h, hn, -, -, hf, -, -, H₁⟩
    · exact Or.inl h
    · obtain ⟨k, hk⟩ := Option.isSome_iff_exists.mp W.heap
      have hk₁ : ktableOf r₁ kheapPde = some k := (ktableOf_congr (by rw [hf]) _).trans hk
      obtain ⟨r₂, hmap, H₂, F₂⟩ := mapPagePool_heap H₁ hk₁ hc1 hc2 hc3
      exact Or.inr ⟨r₂, h.trans hmap, H₂, (F.trans (.of_frame hf)).trans F₂,
        W.congr ((RamFrame.of_frame hf).trans F₂)⟩
  constructor
  · intro c w w' hI h1 h2 h3 hrun
    rcases key c w hI h1 h2 h3 with hfail | ⟨r', hok, hI'⟩
    · rw [hfail] at hrun
      cases hrun
    · rw [hok] at hrun
      obtain ⟨-, rfl⟩ := Prod.mk.inj hrun
      exact hI'
  · intro c w w' hI h1 h2 h3 hrun
    rcases key c w hI h1 h2 h3 with hfail | ⟨r', hok, hI'⟩
    · rw [hfail] at hrun
      obtain ⟨-, rfl⟩ := Prod.mk.inj hrun
      exact hI
    · rw [hok] at hrun
      cases hrun

/-! ### The memory of a VM86 process -/

/-- The loop rule of `forPages`. -/
theorem forPages_spec {f : ℕ → Ram → Bool × Ram} {P : ℕ → Ram → Prop} {Q : Ram → Prop}
    (a : ℕ) : ∀ (len : ℕ) (r : Ram), P a r →
    (∀ n r, a ≤ n → n < a + len → P n r → ∃ b r', f (n * pageSize) r = (b, r') ∧
      (b = true → P (n + 1) r') ∧ (b = false → Q r')) →
    ∃ b r', forPages f ((List.range' a len).map (· * pageSize)) r = (b, r') ∧
      (b = true → P (a + len) r') ∧ (b = false → Q r') := by
  intro len
  induction len generalizing a with
  | zero => exact fun r hP _ => ⟨true, r, rfl, fun _ => hP, fun h => Bool.noConfusion h⟩
  | succ len ih =>
    intro r hP hstep
    obtain ⟨b, r₁, hrun, hok, hfail⟩ := hstep a r (le_refl _) (by omega) hP
    rw [List.range'_succ, List.map_cons, forPages, hrun]
    cases b with
    | false => exact ⟨false, r₁, rfl, fun h => Bool.noConfusion h, hfail⟩
    | true =>
      obtain ⟨b', r₂, hrun₂, hok₂, hfail₂⟩ := ih (a + 1) r₁ (hok rfl)
        fun n r h1 h2 hn => hstep n r (by omega) (by omega) hn
      exact ⟨b', r₂, hrun₂, fun h => by have := hok₂ h; rwa [Nat.add_right_comm] at this, hfail₂⟩

/-- The state of the loops over the first megabyte of `d`: pages from `n` on
are not yet owned. -/
structure LowLoop (r₀ : Ram) (O D : ℕ → Prop) (c d n : ℕ) (r : Ram) : Prop where
  inv : RamInv r O D none c
  frame : RamFrame (Others D d) r₀ r
  rest : ∀ j, n ≤ j → ownedAt r d 0 j = none

/-- What the loops have used up since `r`: at most `n` pages, and a table with
the first page. -/
structure LowTaken (r : Ram) (d n : ℕ) (r' : Ram) : Prop where
  pages : ∃ s : Finset ℕ, s.card ≤ n ∧ ∀ m, r'.used m = true → r.used m = true ∨ m ∈ s
  table : (tableOf r' d 0).isSome ∨ r' = r

theorem LowTaken.refl (r : Ram) (d : ℕ) : LowTaken r d 0 r :=
  ⟨⟨∅, by simp, fun _ => Or.inl⟩, Or.inr rfl⟩

/-- One more page has been taken and mapped. -/
theorem LowTaken.take {r'' : Ram} {d n m : ℕ} (L : LowTaken r d n r')
    (ht : (tableOf r'' d 0).isSome) (hu : r''.used = Function.update r'.used m true) :
    LowTaken r d (n + 1) r'' := by
  obtain ⟨s, hs, hsub⟩ := L.pages
  refine ⟨⟨insert m s, (Finset.card_insert_le m s).trans (by omega), fun x hx => ?_⟩, Or.inl ht⟩
  by_cases hxm : x = m
  · exact Or.inr (Finset.mem_insert.mpr (Or.inl hxm))
  · rw [hu, Function.update_of_ne hxm] at hx
    exact (hsub x hx).imp_right fun h => Finset.mem_insert.mpr (Or.inr h)

/-- One more page that is not the process's own has been mapped. -/
theorem LowTaken.share {r'' : Ram} {d n : ℕ} (L : LowTaken r d n r')
    (ht : (tableOf r'' d 0).isSome) (hu : r''.used = r'.used) : LowTaken r d n r'' := by
  obtain ⟨s, hs, hsub⟩ := L.pages
  exact ⟨⟨s, hs, fun x hx => hsub x (by rw [← hu]; exact hx)⟩, Or.inl ht⟩

/-- Nothing can be mapped in the first 4 MiB of `d`: its entry stands for no
table, or there is none and the pool is exhausted. -/
def LowRefused (D : ℕ → Prop) (r : Ram) (d : ℕ) : Prop :=
  present (r.frame d 0) = true ∧ tableOf r d 0 = none ∨ present (r.frame d 0) = false ∧
    ∀ a, pageTablePoolBase ≤ a → a < pageTablePoolEnd → a % pageSize = 0 → ∃ x, NodeAt r D x a

theorem RamFrame.lowRefused {d : ℕ} (F : RamFrame D r r') (hd : D d) (h : LowRefused D r' d) :
    LowRefused D r d := by
  rw [LowRefused, F.dir d hd, F.tableOf_eq hd] at h
  refine h.imp_right fun h => ⟨h.1, fun a h1 h2 h3 => ?_⟩
  obtain ⟨x, hx⟩ := h.2 a h1 h2 h3
  exact ⟨x, (nodeAt_congr F.kernel F.dir x a).mp hx⟩

theorem not_lowRefused {d : ℕ} (h : (tableOf r d 0).isSome) : ¬LowRefused D r d := by
  rintro (⟨-, hno⟩ | ⟨hno, -⟩)
  · rw [hno] at h
    cases h
  · rw [tableOf, if_neg fun h' => by rw [hno] at h'; exact Bool.false_ne_true h'.2.1] at h
    cases h

/-- Why `v86_map_low_memory` fails: fewer pages are free than it copies, or
nothing can be mapped. -/
def LowShort (D : ℕ → Prop) (r : Ram) (d : ℕ) : Prop :=
  (∃ s : Finset ℕ, s.card < 160 ∧ ∀ m, Allocatable m → r.used m = true ∨ m ∈ s) ∨ LowRefused D r d

theorem LowTaken.refused {d n : ℕ} (L : LowTaken r d n r') (h : LowRefused D r' d) :
    LowShort D r d := by
  rcases L.table with ht | rfl
  · exact absurd h (not_lowRefused ht)
  · exact Or.inr h

theorem LowTaken.full {d n : ℕ} (L : LowTaken r d n r') (hn : n < 160)
    (h : ∀ m, Allocatable m → r'.used m = true) : LowShort D r d := by
  obtain ⟨s, hs, hsub⟩ := L.pages
  exact Or.inl ⟨s, by omega, fun m hm => hsub m (h m hm)⟩

/-- Mapping a page of the first megabyte. -/
theorem mapUserPage_low {d n phys flags : ℕ} (H : TableInv r D c) (hd : D d) (hn : n < 256)
    (hpa : phys % pageSize = 0) :
    mapUserPage d (n * pageSize) phys flags r = (false, r) ∧ LowRefused D r d ∨
    ∃ r', mapUserPage d (n * pageSize) phys flags r = (true, r') ∧
      EntryWritten D c d 0 n (userPte phys flags) r r' := by
  have h22 : n * pageSize / 2 ^ 22 = 0 := by simp only [pageSize]; omega
  have h12 : n * pageSize / 2 ^ 12 % 2 ^ 10 = n := by simp only [pageSize]; omega
  have hv : n * pageSize < userSpaceLimit := by simp only [pageSize, userSpaceLimit]; omega
  have hva : n * pageSize % pageSize = 0 := Nat.mul_mod_left _ _
  rcases mapUserPage_spec H hd flags hv hva hpa with ⟨h, hwhy⟩ | ⟨r', h, E⟩
  · rw [h22] at hwhy
    exact Or.inl ⟨h, hwhy.imp_right fun h => ⟨h.1, fun a => allocPageTable_full H h.2⟩⟩
  · rw [h22, h12] at E
    exact Or.inr ⟨r', h, E⟩

/-- An entry written at `n` leaves the rest of the loop's range alone. -/
theorem EntryWritten.rest {d n v : ℕ} (E : EntryWritten D c d 0 n v r r') (hd : D d)
    (hrest : ∀ j, n ≤ j → ownedAt r d 0 j = none) : ∀ j, n + 1 ≤ j → ownedAt r' d 0 j = none := by
  intro j hj
  rw [E.owned d 0 j hd, PageInv.setOwn, if_neg (by omega)]
  exact hrest j (by omega)

theorem or_eq_none {o : Option ℕ} (ho : o = none) : (fun n => O n ∨ o = some n) = O := by
  simp [ho]

/-- A shared page of the first megabyte. -/
theorem LowLoop.shared {r₀ : Ram} {d n flags : ℕ} (L : LowLoop r₀ O D c d n r) (hd : D d)
    (hn : n < 256) (hfl : flags.testBit 9 = false) :
    ∃ b r', mapUserPage d (n * pageSize) (n * pageSize) flags r = (b, r') ∧
      (b = true → LowLoop r₀ O D c d (n + 1) r' ∧ (tableOf r' d 0).isSome ∧ r'.used = r.used) ∧
      (b = false → (RamInv r' O D none c ∧ RamFrame (Others D d) r₀ r') ∧ LowRefused D r d) := by
  rcases mapUserPage_low L.inv.tables hd hn (Nat.mul_mod_left n pageSize) with
    ⟨h, hwhy⟩ | ⟨r', h, E⟩
  · exact ⟨false, r, h, fun h => Bool.noConfusion h, fun _ => ⟨⟨L.inv, L.frame⟩, hwhy⟩⟩
  · have hword : TableInv.ownedWord (userPte (n * pageSize) flags) = none := by
      rw [ownedWord_userPte, hfl]
      rfl
    refine ⟨true, r', h, fun _ => ⟨⟨?_, L.frame.trans E.frame, E.rest hd L.rest⟩, E.table,
      E.alloc.used⟩, fun h => Bool.noConfusion h⟩
    have hI := L.inv.entry_shared hd E hword
    rwa [or_eq_none (L.rest n (le_refl _))] at hI

/-- A private page of the first megabyte: a copy of the real page, owned. -/
theorem LowLoop.private {r₀ : Ram} {d n : ℕ} (L : LowLoop r₀ O D c d n r) (W : Windows r₀)
    (hd : D d) (hn : n < 256) :
    ∃ b r', v86MapPrivatePage d (n * pageSize) r = (b, r') ∧
      (b = true → LowLoop r₀ O D c d (n + 1) r' ∧ (tableOf r' d 0).isSome ∧
        ∃ m, r'.used = Function.update r.used m true) ∧
      (b = false → (RamInv r' O D none c ∧ RamFrame (Others D d) r₀ r') ∧
        ((∀ m, Allocatable m → r.used m = true) ∨ LowRefused D r d)) := by
  rcases pmmAllocPage_cases L.inv (fun r => (false, r)) (v86CopyPrivatePage d (n * pageSize)) with
    ⟨h, hfull⟩ | ⟨m, r₁, h, hm, -, hu, hf, -, -, H₁⟩
  · exact ⟨false, r, h, fun h => Bool.noConfusion h, fun _ => ⟨⟨L.inv, L.frame⟩, Or.inl hfull⟩⟩
  have h : v86MapPrivatePage d (n * pageSize) r =
      v86CopyPrivatePage d (n * pageSize) (m * pageSize) r₁ := h
  rw [h, v86CopyPrivatePage]
  have F₁ : RamFrame (Others D d) r₀ r₁ := L.frame.trans (.of_frame hf)
  obtain ⟨k, hk⟩ := Option.isSome_iff_exists.mp (W.congr F₁).temp
  -- the source window, then the target window
  have hvs : kernelTempSource / 2 ^ 22 = tempPde := by decide
  have hvp : kernelTempPage / 2 ^ 22 = tempPde := by decide
  have hjs : kernelTempSource / 2 ^ 12 % 2 ^ 10 = 1 := by decide
  have hjp : kernelTempPage / 2 ^ 12 % 2 ^ 10 = 0 := by decide
  rw [mapPagePool_eq hk hvs, hjs]
  dsimp only
  obtain ⟨hs1, -⟩ := windowPte_bits (n * pageSize)
  obtain ⟨hp1, hp2⟩ := windowPte_bits (m * pageSize)
  set ps := pageAddr (n * pageSize) ||| pagePresentRw ||| pagePresentRw with hps
  set pp := pageAddr (m * pageSize) ||| pagePresentRw ||| pagePresentRw with hpp
  obtain ⟨H₂, G₂⟩ := H₁.setWindow hk (by decide) 1 ps
  set r₂ := r₁.setWord k 1 ps with hr₂
  have hk₂ : ktableOf r₂ tempPde = some k := (ktableOf_congr G₂.kernel _).trans hk
  rw [mapPagePool_eq hk₂ hvp, hjp]
  dsimp only
  obtain ⟨H₃, G₃⟩ := H₂.setWindow hk₂ (by decide) 0 pp
  set r₃ := r₂.setWord k 0 pp with hr₃
  have hk₃ : ktableOf r₃ tempPde = some k := (ktableOf_congr G₃.kernel _).trans hk₂
  have hw3 : r₃.frame k 0 = pp ∧ r₃.frame k 1 = ps := by
    simp [hr₃, hr₂]
  -- the copy goes to the new page, whatever the real page holds
  have hstore : ∀ f, storePage kernelTempPage f r₃ = r₃.setPage (m * pageSize) f := by
    intro f
    rw [storePage, getPhysicalAddress_eq hk₃ hvp (by decide) (by rw [hjp, hw3.1]; exact hp1), hjp,
      hw3.1, hp2, hm.pageAddr_eq]
  rw [hstore]
  generalize v86PrivatePage (n * pageSize) _ = f
  obtain ⟨H₄, G₄⟩ := H₃.setContent hm f
  set r₄ := r₃.setPage (m * pageSize) f with hr₄
  have hk₄ : ktableOf r₄ tempPde = some k := (ktableOf_congr G₄.kernel _).trans hk₃
  have hne : k ≠ m * pageSize := fun he =>
    H₃.tables.allocatable_not_node hm (x := .ktable tempPde) (he ▸ hk₃)
  have hw4 : r₄.frame k = r₃.frame k := Ram.frame_setPage_of_ne _ _ hne
  rw [unmapPage_eq hk₄ hvp (by rw [hjp, hw4, hw3.1]; exact hp1), hjp]
  dsimp only
  obtain ⟨H₅, G₅⟩ := H₄.setWindow hk₄ (by decide) 0 0
  set r₅ := r₄.setWord k 0 0 with hr₅
  have hk₅ : ktableOf r₅ tempPde = some k := (ktableOf_congr G₅.kernel _).trans hk₄
  have hw5 : r₅.frame k 1 = ps := by
    rw [hr₅, Ram.frame_setWord_self, Function.update_of_ne (by decide), hw4, hw3.2]
  rw [unmapPage_eq hk₅ hvs (by rw [hjs, hw5]; exact hs1), hjs]
  dsimp only
  obtain ⟨H₆, G₆⟩ := H₅.setWindow hk₅ (by decide) 1 0
  set r₆ := r₅.setWord k 1 0 with hr₆
  have hclosed : TempClosed r₆ := by
    refine .of_pte ((ktableOf_congr G₆.kernel _).trans hk₅) ?_
    rw [hr₆, hr₅, Ram.frame_setWord_self, Ram.frame_setWord_self,
      Function.update_of_ne (by decide), Function.update_self, present_zero]
  have G : RamFrame D r r₆ := ⟨((((RamFrame.of_frame hf).toHeapFrame.trans G₂).trans G₃).trans
    G₄.toHeapFrame |>.trans G₅).trans G₆, fun _ => hclosed⟩
  have F₆ : RamFrame (Others D d) r₀ r₆ := L.frame.trans (G.mono fun _ h => h.1)
  have hrest : ∀ j, n ≤ j → ownedAt r₆ d 0 j = none := fun j hj =>
    (G.ownedAt_eq hd 0 j).trans (L.rest j hj)
  rcases mapUserPage_low H₆.tables hd hn
    (Nat.mul_mod_left m pageSize) with ⟨h', hwhy⟩ | ⟨r₇, h', E⟩
  · rw [h']
    obtain ⟨H₇, hf₇⟩ := pmmFreePage_pending H₆
    exact ⟨false, _, rfl, fun h => Bool.noConfusion h,
      fun _ => ⟨⟨H₇, F₆.trans (.of_frame hf₇)⟩, Or.inr (G.lowRefused hd hwhy)⟩⟩
  · rw [h']
    refine ⟨true, r₇, rfl, fun _ => ⟨⟨?_, F₆.trans E.frame, E.rest hd hrest⟩, E.table, m, ?_⟩,
      fun h => Bool.noConfusion h⟩
    swap
    · exact E.alloc.used.trans hu
    have hword : TableInv.ownedWord (userPte (m * pageSize) (pagePresentRwUser ||| pageOwned)) =
        some m := by
      rw [ownedWord_userPte, hm.pageAddr_eq, Nat.mul_div_cancel m (by decide)]
      exact if_pos (by decide)
    have hI := H₆.entry_owned hd E hword
    rwa [or_eq_none (hrest n (le_refl _))] at hI

/-- **`v86_map_low_memory`** on a directory without owned pages. -/
theorem v86MapLowMemory_spec (H : RamInv r O D none c) (W : Windows r) {d : ℕ} (hd : D d)
    (hown : ∀ j, ownedAt r d 0 j = none) :
    ∃ b r', v86MapLowMemory d r = (b, r') ∧ RamInv r' O D none c ∧ RamFrame (Others D d) r r' ∧
      (b = true → LowTaken r d 160 r') ∧ (b = false → LowShort D r d) := by
  set Q : Ram → Prop := fun r' => (RamInv r' O D none c ∧ RamFrame (Others D d) r r') ∧
    LowShort D r d with hQ
  have done : ∀ {b : Bool} {n : ℕ} {r' : Ram},
      (b = true → LowLoop r O D c d n r' ∧ LowTaken r d 160 r') → (b = false → Q r') →
      RamInv r' O D none c ∧ RamFrame (Others D d) r r' ∧ (b = true → LowTaken r d 160 r') ∧
        (b = false → LowShort D r d) := by
    intro b n r' h1 h2
    cases b with
    | false => exact ⟨(h2 rfl).1.1, (h2 rfl).1.2, fun h => Bool.noConfusion h, fun _ => (h2 rfl).2⟩
    | true => exact ⟨(h1 rfl).1.inv, (h1 rfl).1.frame, fun _ => (h1 rfl).2,
        fun h => Bool.noConfusion h⟩
  -- the private pages
  obtain ⟨b₁, r₁, hr₁, hok₁, hf₁⟩ := forPages_spec
    (P := fun n r' => LowLoop r O D c d n r' ∧ LowTaken r d n r') (Q := Q) 0
    160 r ⟨⟨H, .refl _ _, fun j _ => hown j⟩, .refl r d⟩ fun n r' _ hn L => by
      obtain ⟨b, r'', h, hok, hfail⟩ := L.1.private W hd (by omega)
      refine ⟨b, r'', h, fun hb => ?_, fun hb => ⟨(hfail hb).1, ?_⟩⟩
      · obtain ⟨L', ht, m, hu⟩ := hok hb
        exact ⟨L', L.2.take ht hu⟩
      · exact (hfail hb).2.elim (L.2.full (by omega)) L.2.refused
  -- the shared pages take nothing
  have hshared : ∀ flags, flags.testBit 9 = false → ∀ n r', n < 256 →
      LowLoop r O D c d n r' ∧ LowTaken r d 160 r' →
      ∃ b r'', mapUserPage d (n * pageSize) (n * pageSize) flags r' = (b, r'') ∧
        (b = true → LowLoop r O D c d (n + 1) r'' ∧ LowTaken r d 160 r'') ∧ (b = false → Q r'') := by
    intro flags hfl n r' hn L
    obtain ⟨b, r'', h, hok, hfail⟩ := L.1.shared hd hn hfl
    refine ⟨b, r'', h, fun hb => ?_, fun hb => ⟨(hfail hb).1, L.2.refused (hfail hb).2⟩⟩
    obtain ⟨L', ht, hu⟩ := hok hb
    exact ⟨L', L.2.share ht hu⟩
  rw [v86MapLowMemory, show pagesIn 0 v86PrivateEnd = (List.range' 0 160).map (· * pageSize) from rfl,
    hr₁]
  cases b₁ with
  | false => exact ⟨false, r₁, rfl, done (n := 0) (fun h => Bool.noConfusion h) hf₁⟩
  | true =>
    obtain ⟨b₂, r₂, hr₂, hok₂, hf₂⟩ := forPages_spec
      (f := fun edx => mapUserPage d edx edx pagePresentRwUser)
      (P := fun n r' => LowLoop r O D c d n r' ∧ LowTaken r d 160 r') (Q := Q) 160 32 r₁
      (hok₁ rfl) fun n r' _ hn L => hshared _ (by decide) n r' (by omega) L
    dsimp only
    rw [show pagesIn v86PrivateEnd v86DeviceEnd = (List.range' 160 32).map (· * pageSize) from rfl,
      hr₂]
    cases b₂ with
    | false => exact ⟨false, r₂, rfl, done (n := 0) (fun h => Bool.noConfusion h) hf₂⟩
    | true =>
      obtain ⟨b₃, r₃, hr₃, hok₃, hf₃⟩ := forPages_spec
        (f := fun edx => mapUserPage d edx edx pagePresentUser)
        (P := fun n r' => LowLoop r O D c d n r' ∧ LowTaken r d 160 r') (Q := Q) 192 64 r₂
        (hok₂ rfl) fun n r' _ hn L => hshared _ (by decide) n r' (by omega) L
      dsimp only
      rw [show pagesIn v86DeviceEnd v86AddressLimit = (List.range' 192 64).map (· * pageSize) from
        rfl, hr₃]
      exact ⟨b₃, r₃, rfl, done hok₃ hf₃⟩

end Spaces

end VirtualKernel
