/-
Elementary changes of directories and tables.

Each routine of `Paging` changes memory in a few ways: it writes a page that no
directory uses, writes one entry of a user table, links a new table into a
directory, takes one out, or opens and closes a directory.  This file proves
that each of them keeps `TableInv` and says what it does to the entries that
own pages (`ownedAt`, `heapAt`).
-/
import VirtualKernel.PageAccount

namespace VirtualKernel

open Lib

/-! ### Entry words -/

/-- A word for a user table. -/
theorem userPde_bits {t : ℕ} (ht : t % pageSize = 0) (hlt : t < 2 ^ 32) :
    present (t ||| pagePresentRwUser) = true ∧ userBit (t ||| pagePresentRwUser) = true ∧
      psBit (t ||| pagePresentRwUser) = false ∧ pageAddr (t ||| pagePresentRwUser) = t ∧
      writeBit (t ||| pagePresentRwUser) = true := by
  have bit : ∀ k < 12, (t ||| pagePresentRwUser).testBit k = pagePresentRwUser.testBit k :=
    fun k hk => testBit_or_low ht _ hk
  refine ⟨?_, ?_, ?_, ?_, ?_⟩
  · exact (bit 0 (by decide)).trans (by decide)
  · exact (bit 2 (by decide)).trans (by decide)
  · exact (bit 7 (by decide)).trans (by decide)
  · rw [pageAddr_or t (by decide), pageAddr_of_aligned ht hlt]
  · exact (bit 1 (by decide)).trans (by decide)

/-- A word for a table of the kernel. -/
theorem kernelPde_bits {t : ℕ} (ht : t % pageSize = 0) (hlt : t < 2 ^ 32) :
    present (t ||| pagePresentRw) = true ∧ userBit (t ||| pagePresentRw) = false ∧
      psBit (t ||| pagePresentRw) = false ∧ pageAddr (t ||| pagePresentRw) = t := by
  have bit : ∀ k < 12, (t ||| pagePresentRw).testBit k = pagePresentRw.testBit k :=
    fun k hk => testBit_or_low ht _ hk
  refine ⟨?_, ?_, ?_, ?_⟩
  · exact (bit 0 (by decide)).trans (by decide)
  · exact (bit 2 (by decide)).trans (by decide)
  · exact (bit 7 (by decide)).trans (by decide)
  · rw [pageAddr_or t (by decide), pageAddr_of_aligned ht hlt]

/-- The word that `map_user_page` writes. -/
def userPte (phys flags : ℕ) : ℕ := pageAddr phys ||| (flags % 2 ^ 12 ||| pagePresentUser)

theorem testBit_userPte (phys flags : ℕ) {k : ℕ} (hk : k < 12) :
    (userPte phys flags).testBit k = (flags.testBit k || pagePresentUser.testBit k) := by
  rw [userPte, testBit_or_low (pageAddr_aligned phys) _ hk, Nat.testBit_or,
    Nat.testBit_mod_two_pow]
  simp [hk]

theorem userPte_bits (phys flags : ℕ) :
    present (userPte phys flags) = true ∧ userBit (userPte phys flags) = true ∧
      ownedBit (userPte phys flags) = flags.testBit 9 ∧
      pageAddr (userPte phys flags) = pageAddr phys := by
  have hlt : flags % 2 ^ 12 ||| pagePresentUser < 2 ^ 12 :=
    Nat.or_lt_two_pow (Nat.mod_lt _ (by decide)) (by decide)
  have bit : ∀ k < 12, (userPte phys flags).testBit k = (flags.testBit k ||
      pagePresentUser.testBit k) := fun k hk => testBit_userPte phys flags hk
  refine ⟨?_, ?_, ?_, ?_⟩
  · rw [present, bit 0 (by decide)]
    simp [pagePresentUser]
  · rw [userBit, bit 2 (by decide), show pagePresentUser.testBit 2 = true by decide, Bool.or_true]
  · rw [ownedBit, bit 9 (by decide), show pagePresentUser.testBit 9 = false by decide,
      Bool.or_false]
  · rw [userPte, pageAddr_or _ hlt, pageAddr_of_aligned (pageAddr_aligned _) (pageAddr_lt _)]

theorem present_zero : present 0 = false := rfl

section Change

variable {r r' : Ram} {D : ℕ → Prop} {c c' : ℕ}

theorem kernelCopy_zero_or_present (r : Ram) (i : ℕ) :
    kernelCopy r i = 0 ∨ present (kernelCopy r i) = true ∧ userBit (kernelCopy r i) = false := by
  unfold kernelCopy
  split_ifs with h
  · exact Or.inr ⟨h.2.1, by simpa using h.2.2⟩
  · exact Or.inl rfl

theorem nodeAt_congr (hk : r'.frame pageDirBase = r.frame pageDirBase)
    (hd : ∀ d, D d → r'.frame d = r.frame d) (x : Node) (a : ℕ) :
    NodeAt r' D x a ↔ NodeAt r D x a := by
  cases x with
  | dir d => exact Iff.rfl
  | table d i => exact and_congr_right fun h => by rw [tableOf_congr (hd d h)]
  | ktable i => simp only [NodeAt, ktableOf_congr hk]

theorem heapAt_congr (hk : r'.frame pageDirBase = r.frame pageDirBase)
    (hh : ∀ t, ktableOf r kheapPde = some t → r'.frame t = r.frame t) (j : ℕ) :
    heapAt r' j = heapAt r j := by
  rw [heapAt, heapAt, ktableOf_congr hk]
  cases ht : ktableOf r kheapPde with
  | none => rfl
  | some t => simp only [Option.bind_some, hh t ht]

namespace KernelFrame

theorem of_frame (hf : r'.frame = r.frame) : KernelFrame r r' :=
  ⟨by rw [hf], fun _ _ _ => by rw [hf]⟩

theorem trans {r'' : Ram} (h : KernelFrame r r') (h' : KernelFrame r' r'') : KernelFrame r r'' :=
  ⟨h'.dir.trans h.dir, fun i t ht =>
    (h'.table i t ((ktableOf_congr h.dir i).trans ht)).trans (h.table i t ht)⟩

theorem heapAt_eq (h : KernelFrame r r') (j : ℕ) : heapAt r' j = heapAt r j :=
  heapAt_congr h.dir (fun t => h.table kheapPde t) j

end KernelFrame

namespace TableInv

theorem node_inPool (H : TableInv r D c) {x : Node} {a : ℕ} (hx : NodeAt r D x a) :
    InPool pageSize pageTablePoolBase r.pageTableNext a := H.pool.inUse a ⟨x, hx⟩

theorem node_bounds (H : TableInv r D c) {x : Node} {a : ℕ} (hx : NodeAt r D x a) :
    pageTablePoolBase ≤ a ∧ a < pageTablePoolEnd ∧ a % pageSize = 0 := by
  obtain ⟨h1, h2, h3⟩ := H.node_inPool hx
  exact ⟨h1, lt_of_lt_of_le h2 H.pool.next_le, h3⟩

theorem node_ne_pageDirBase (H : TableInv r D c) {x : Node} {a : ℕ} (hx : NodeAt r D x a) :
    a ≠ pageDirBase := by
  have h := (H.node_bounds hx).1
  simp only [pageTablePoolBase, pageDirBase] at h ⊢
  omega

/-- A page that `pmm_alloc_page` hands out is in no directory. -/
theorem allocatable_not_node (H : TableInv r D c) {n : ℕ} (hn : Allocatable n) {x : Node} :
    ¬NodeAt r D x (n * pageSize) := by
  intro hx
  obtain ⟨h1, h2, -⟩ := H.node_bounds hx
  obtain ⟨-, -, h3, -, -⟩ := hn
  simp only [pageTablePoolBase, pageTablePoolEnd, pageSize] at h1 h2 h3
  omega

/-- A change that leaves the directories alone. -/
theorem of_dirs (H : TableInv r D c) (hfl : r'.pageTableFreeList = r.pageTableFreeList)
    (hnx : r'.pageTableNext = r.pageTableNext) (hk : r'.frame pageDirBase = r.frame pageDirBase)
    (hd : ∀ d, D d → r'.frame d = r.frame d)
    (hfree : ∀ a, InPool pageSize pageTablePoolBase r.pageTableNext a →
      (¬∃ x, NodeAt r D x a) → r'.frame a 0 = r.frame a 0)
    (hpte : ∀ d i t, D d → tableOf r d i = some t → ∀ j < 1024,
      r'.frame t j = 0 ∨ present (r'.frame t j) ∧ userBit (r'.frame t j))
    (htail : ∀ t, ktableOf r kheapPde = some t → ∀ j, (c' - kheapBase) / pageSize ≤ j → j < 1024 →
      r'.frame t j = 0) : TableInv r' D c' where
  pool := by
    rw [hfl, hnx]
    exact (H.pool.congr_link _ hfree).congr_inUse fun a =>
      exists_congr fun x => nodeAt_congr hk hd x a
  node_inj := fun h1 h2 => H.node_inj ((nodeAt_congr hk hd _ _).mp h1)
    ((nodeAt_congr hk hd _ _).mp h2)
  kernel_pde := by rw [hk]; exact H.kernel_pde
  dir_pde := by
    intro d h i hi
    rw [hd d h, kernelCopy_congr hk, tableOf_congr (hd d h)]
    exact H.dir_pde d h i hi
  user_pde := by
    intro d i t h ht
    rw [hd d h]
    exact H.user_pde d i t h ((tableOf_congr (hd d h) i).symm.trans ht)
  user_pte := fun d i t h ht => hpte d i t h ((tableOf_congr (hd d h) i).symm.trans ht)
  heap_tail := fun t ht => htail t ((ktableOf_congr hk _).symm.trans ht)

/-- Writing a page that no directory of `D` and no entry of the heap uses. -/
theorem setPage_other (H : TableInv r D c) {a : ℕ} (f : ℕ → ℕ) (hk : a ≠ pageDirBase)
    (hnode : ∀ x, NodeAt r D x a → ∃ i, x = .ktable i ∧ i ≠ kheapPde)
    (hpool : InPool pageSize pageTablePoolBase r.pageTableNext a → ∃ x, NodeAt r D x a) :
    TableInv (r.setPage a f) D c ∧ DirFrame D r (r.setPage a f) ∧
      ∀ j, heapAt (r.setPage a f) j = heapAt r j := by
  have hdir : ∀ d, D d → a ≠ d := by
    intro d hd hne
    obtain ⟨i, hx, -⟩ := hnode (.dir d) ⟨hd, hne⟩
    cases hx
  have htab : ∀ d i t, D d → tableOf r d i = some t → a ≠ t := by
    rintro d i t hd ht rfl
    obtain ⟨i', hx, -⟩ := hnode (.table d i) ⟨hd, ht⟩
    cases hx
  have hheap : ∀ t, ktableOf r kheapPde = some t → a ≠ t := by
    rintro t ht rfl
    obtain ⟨i', hx, hne⟩ := hnode (.ktable kheapPde) ht
    cases hx
    exact hne rfl
  have hfr := DirFrame.setPage f hk hdir htab
  have hheap' : ∀ t, ktableOf r kheapPde = some t → (r.setPage a f).frame t = r.frame t :=
    fun t ht => Function.update_of_ne (hheap t ht).symm _ _
  refine ⟨?_, hfr, heapAt_congr hfr.kernel hheap'⟩
  refine H.of_dirs rfl rfl hfr.kernel hfr.dir ?_ ?_ ?_
  · intro b hb hnb
    have hba : b ≠ a := by
      rintro rfl
      exact hnb (hpool hb)
    exact congrFun (Function.update_of_ne hba _ _) 0
  · intro d i t hd ht
    rw [hfr.table d i t hd ht]
    exact H.user_pte d i t hd ht
  · intro t ht
    rw [hheap' t ht]
    exact H.heap_tail t ht

/-! ### Entries of a table -/

/-- The page number that an entry word owns. -/
def ownedWord (e : ℕ) : Option ℕ :=
  if present e ∧ ownedBit e then some (pageAddr e / pageSize) else none

/-- A user table is neither a directory nor a table of the kernel, and it
belongs to one entry of one directory. -/
theorem table_inj (H : TableInv r D c) {d i d' i' t : ℕ} (hd : D d) (hd' : D d')
    (ht : tableOf r d i = some t) (ht' : tableOf r d' i' = some t) : d' = d ∧ i' = i := by
  have h := H.node_inj (x := .table d' i') (y := .table d i) ⟨hd', ht'⟩ ⟨hd, ht⟩
  cases h
  exact ⟨rfl, rfl⟩

theorem table_ne_dir (H : TableInv r D c) {d i d' t : ℕ} (hd : D d) (hd' : D d')
    (ht : tableOf r d i = some t) : t ≠ d' := by
  rintro rfl
  have h := H.node_inj (x := .table d i) (y := .dir t) ⟨hd, ht⟩ ⟨hd', rfl⟩
  cases h

theorem table_ne_ktable (H : TableInv r D c) {d i i' t k : ℕ} (hd : D d)
    (ht : tableOf r d i = some t) (hk : ktableOf r i' = some k) : t ≠ k := by
  rintro rfl
  have h := H.node_inj (x := .table d i) (y := .ktable i') ⟨hd, ht⟩ hk
  cases h

/-- Writing one entry of a user table. -/
theorem setPte (H : TableInv r D c) {d i t j v : ℕ} (hd : D d) (ht : tableOf r d i = some t)
    (hj : j < 1024) (hv : v = 0 ∨ present v ∧ userBit v) :
    TableInv (r.setWord t j v) D c ∧ DirFrame (fun x => D x ∧ x ≠ d) r (r.setWord t j v) ∧
      KernelFrame r (r.setWord t j v) ∧
      ∀ d' i' j', D d' → ownedAt (r.setWord t j v) d' i' j' =
        PageInv.setOwn (ownedAt r) d i j (ownedWord v) d' i' j' := by
  have hkt : t ≠ pageDirBase := H.node_ne_pageDirBase (x := .table d i) ⟨hd, ht⟩
  have hk : (r.setWord t j v).frame pageDirBase = r.frame pageDirBase :=
    Function.update_of_ne hkt.symm _ _
  have hdirs : ∀ d', D d' → (r.setWord t j v).frame d' = r.frame d' :=
    fun d' h => Function.update_of_ne (H.table_ne_dir hd h ht).symm _ _
  have hself : (r.setWord t j v).frame t = Function.update (r.frame t) j v :=
    Function.update_self _ _ _
  have hother : ∀ a, a ≠ t → (r.setWord t j v).frame a = r.frame a :=
    fun a ha => Function.update_of_ne ha _ _
  have hkernel : ∀ i' k, ktableOf r i' = some k → (r.setWord t j v).frame k = r.frame k :=
    fun _ k h => hother k (H.table_ne_ktable hd ht h).symm
  refine ⟨?_, ?_, ⟨hk, hkernel⟩, ?_⟩
  · refine H.of_dirs rfl rfl hk hdirs ?_ ?_ ?_
    · intro a _ hna
      rw [hother a fun he => hna ⟨.table d i, hd, he ▸ ht⟩]
    · intro d' i' t' hd' ht' j' hj'
      by_cases htt : t' = t
      · subst htt
        rw [hself]
        by_cases hjj : j' = j
        · rw [hjj, Function.update_self]
          exact hv
        · rw [Function.update_of_ne hjj]
          exact H.user_pte d i t' hd ht j' hj'
      · rw [hother t' htt]
        exact H.user_pte d' i' t' hd' ht' j' hj'
    · intro k hkk
      rw [hkernel kheapPde k hkk]
      exact H.heap_tail k hkk
  · refine ⟨hk, fun d' h => hdirs d' h.1, fun d' i' t' h ht' => hother t' ?_⟩
    rintro rfl
    exact h.2 (H.table_inj hd h.1 ht ht').1
  · intro d' i' j' hd'
    rw [ownedAt, tableOf_congr (hdirs d' hd'), PageInv.setOwn, ownedAt]
    by_cases hpos : d' = d ∧ i' = i
    · obtain ⟨rfl, rfl⟩ := hpos
      rw [ht]
      simp only [Option.bind_some, hself, true_and]
      by_cases hjj : j' = j
      · subst hjj
        simp [hj, ownedWord]
      · rw [if_neg hjj, Function.update_of_ne hjj]
    · rw [if_neg fun h => hpos ⟨h.1, h.2.1⟩]
      cases ht' : tableOf r d' i' with
      | none => rfl
      | some t' =>
        have htt : t' ≠ t := by
          rintro rfl
          exact hpos (H.table_inj hd hd' ht ht')
        simp only [Option.bind_some, hother t' htt]

/-- Writing one entry of the heap's table. -/
theorem setHeapPte (H : TableInv r D c) {k j v : ℕ} (hk : ktableOf r kheapPde = some k)
    (hj : j < 1024) (hc : ∀ j', (c' - kheapBase) / pageSize ≤ j' →
      (c - kheapBase) / pageSize ≤ j' ∧ (j' = j → v = 0)) :
    TableInv (r.setWord k j v) D c' ∧ DirFrame D r (r.setWord k j v) ∧
      ∀ j', heapAt (r.setWord k j v) j' = Function.update (heapAt r) j
        (if present v then some (pageAddr v / pageSize) else none) j' := by
  have hkp : k ≠ pageDirBase := H.node_ne_pageDirBase (x := .ktable kheapPde) hk
  have hdir : ∀ d, D d → k ≠ d := by
    rintro d hd rfl
    have h := H.node_inj (x := .ktable kheapPde) (y := .dir k) hk ⟨hd, rfl⟩
    cases h
  have htab : ∀ d i t, D d → tableOf r d i = some t → k ≠ t :=
    fun d i t hd ht => (H.table_ne_ktable hd ht hk).symm
  have hfr : DirFrame D r (r.setWord k j v) := DirFrame.setPage _ hkp hdir htab
  have hself : (r.setWord k j v).frame k = Function.update (r.frame k) j v :=
    Function.update_self _ _ _
  refine ⟨?_, hfr, ?_⟩
  · refine H.of_dirs rfl rfl hfr.kernel hfr.dir ?_ ?_ ?_
    · intro a _ hna
      have hak : a ≠ k := fun he => hna ⟨.ktable kheapPde, he ▸ hk⟩
      exact congrFun (Function.update_of_ne hak _ _) 0
    · intro d i t hd ht
      rw [hfr.table d i t hd ht]
      exact H.user_pte d i t hd ht
    · intro t ht j' h1 h2
      obtain rfl : k = t := Option.some.inj (hk.symm.trans ht)
      rw [hself]
      by_cases hjj : j' = j
      · rw [hjj, Function.update_self]
        exact (hc j' h1).2 hjj
      · rw [Function.update_of_ne hjj]
        exact H.heap_tail k hk j' (hc j' h1).1 h2
  · intro j'
    rw [heapAt, ktableOf_congr hfr.kernel, hk, Option.bind_some, hself]
    by_cases hjj : j' = j
    · subst hjj
      simp [hj]
    · rw [Function.update_of_ne hjj, Function.update_of_ne hjj, heapAt, hk, Option.bind_some]

end TableInv

end Change

end VirtualKernel
