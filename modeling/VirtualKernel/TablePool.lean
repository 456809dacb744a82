/-
Page tables coming from and going back to the pool.

`allocPageTable_spec` describes a fresh table relative to the memory before.
It can then become a user table (`TableInv.linkTable`), a table of the kernel
(`TableInv.linkKernelTable`) or a directory (`TableInv.openDir`).  A table
without entries goes back with `TableInv.unlinkTable`, a directory without
tables with `TableInv.closeDir`.
-/
import VirtualKernel.Tables

namespace VirtualKernel

open Lib

/-- The memory after `alloc_page_table` has handed out the zeroed page `t`. -/
structure FreshTable (r : Ram) (D : ℕ → Prop) (t : ℕ) (r₁ : Ram) : Prop where
  frame : r₁.frame = Function.update r.frame t fun _ => 0
  used : r₁.used = r.used
  hint : r₁.pmmNextPage = r.pmmNextPage
  bounds : pageTablePoolBase ≤ t ∧ t < pageTablePoolEnd ∧ t % pageSize = 0
  fresh : ∀ x, ¬NodeAt r D x t
  pool : FreePool pageSize pageTablePoolBase pageTablePoolEnd (fun a => r₁.frame a 0)
    r₁.pageTableFreeList r₁.pageTableNext fun a => (∃ x, NodeAt r D x a) ∨ a = t

section Pool

variable {r r₁ : Ram} {D : ℕ → Prop} {c : ℕ}

/-- **`alloc_page_table`** fails only when the pool is exhausted; otherwise its
result is not in use. -/
theorem allocPageTable_spec (H : TableInv r D c) :
    (allocPageTable r = (none, r) ∧ r.pageTableFreeList = 0 ∧
      pageTablePoolEnd ≤ r.pageTableNext) ∨
    ∃ t r₁, allocPageTable r = (some t, r₁) ∧ FreshTable r D t r₁ := by
  -- zeroing the new page does not touch the list of the others
  have hzero : ∀ {head next : ℕ} {t : ℕ} {N : ℕ → Prop},
      FreePool pageSize pageTablePoolBase pageTablePoolEnd (fun a => r.frame a 0) head next
        (fun a => N a ∨ a = t) →
      FreePool pageSize pageTablePoolBase pageTablePoolEnd
        (fun a => Function.update r.frame t (fun _ => 0) a 0) head next fun a => N a ∨ a = t := by
    intro head next t N h
    refine h.congr_link _ fun a _ hna => ?_
    rw [Function.update_of_ne fun he => hna (Or.inr he)]
  by_cases hfl : r.pageTableFreeList = 0
  · by_cases hend : pageTablePoolEnd ≤ r.pageTableNext
    · refine Or.inl ⟨?_, hfl, hend⟩
      rw [allocPageTable, if_neg (by simpa using hfl), if_pos hend]
    · have hge := H.pool.next_ge
      have hmod := H.pool.next_mod
      have hroom : r.pageTableNext + pageSize ≤ pageTablePoolEnd := by
        simp only [pageSize, pageTablePoolEnd] at hend hmod ⊢
        omega
      obtain ⟨hnew, hpool⟩ := H.pool.bump (by decide) hroom
      have hadd : add32 r.pageTableNext pageSize = r.pageTableNext + pageSize :=
        add32_of_lt (by simp only [pageSize, pageTablePoolEnd] at hroom ⊢; omega)
      refine Or.inr ⟨r.pageTableNext,
        Ram.setPage { r with pageTableNext := add32 r.pageTableNext pageSize } r.pageTableNext
          fun _ => 0, ?_, ?_⟩
      · rw [allocPageTable, if_neg (by simpa using hfl), if_neg hend]
      · exact
          { frame := rfl
            used := rfl
            hint := rfl
            bounds := ⟨hge, by omega, hmod⟩
            fresh := fun x hx => hnew ⟨x, hx⟩
            pool := by
              simp only [Ram.setPage, hadd]
              exact hzero hpool }
  · obtain ⟨⟨h1, h2, h3⟩, hfree⟩ := H.pool.head_free hfl
    refine Or.inr ⟨r.pageTableFreeList,
      Ram.setPage { r with pageTableFreeList := r.frame r.pageTableFreeList 0 } r.pageTableFreeList
        fun _ => 0, ?_, ?_⟩
    · rw [allocPageTable, if_pos hfl]
    · exact
        { frame := rfl
          used := rfl
          hint := rfl
          bounds := ⟨h1, lt_of_lt_of_le h2 H.pool.next_le, h3⟩
          fresh := fun x hx => hfree ⟨x, hx⟩
          pool := hzero (H.pool.pop hfl) }

/-- No table can be had because every page of the pool is in use. -/
theorem allocPageTable_full (H : TableInv r D c) (h : allocPageTable r = (none, r₁)) {a : ℕ}
    (h1 : pageTablePoolBase ≤ a) (h2 : a < pageTablePoolEnd) (h3 : a % pageSize = 0) :
    ∃ x, NodeAt r D x a := by
  rcases allocPageTable_spec H with ⟨-, hlist, hnext⟩ | ⟨t, r₂, hsome, -⟩
  · exact H.pool.full hlist hnext h1 h2 h3
  · rw [h] at hsome
    cases hsome

namespace FreshTable

variable {t : ℕ}

theorem frame_self (F : FreshTable r D t r₁) : r₁.frame t = fun _ => 0 := by
  rw [F.frame, Function.update_self]

theorem frame_of_ne (F : FreshTable r D t r₁) {a : ℕ} (ha : a ≠ t) : r₁.frame a = r.frame a := by
  rw [F.frame, Function.update_of_ne ha]

theorem ne_pageDirBase (F : FreshTable r D t r₁) : t ≠ pageDirBase := by
  have h := F.bounds.1
  simp only [pageTablePoolBase, pageDirBase] at h ⊢
  omega

theorem lt_word (F : FreshTable r D t r₁) : t < 2 ^ 32 := by
  have h := F.bounds.2.1
  simp only [pageTablePoolEnd] at h
  omega

theorem ne_zero (F : FreshTable r D t r₁) : t ≠ 0 := by
  have h := F.bounds.1
  simp only [pageTablePoolBase] at h
  omega

theorem ne_dir (F : FreshTable r D t r₁) {d : ℕ} (hd : D d) : t ≠ d :=
  fun h => F.fresh (.dir d) ⟨hd, h⟩

theorem ne_table (F : FreshTable r D t r₁) {d i t' : ℕ} (hd : D d) (ht : tableOf r d i = some t') :
    t ≠ t' := by
  rintro rfl
  exact F.fresh (.table d i) ⟨hd, ht⟩

theorem ne_ktable (F : FreshTable r D t r₁) {i k : ℕ} (hk : ktableOf r i = some k) : t ≠ k := by
  rintro rfl
  exact F.fresh (.ktable i) hk

theorem dirFrame (F : FreshTable r D t r₁) : DirFrame D r r₁ where
  kernel := F.frame_of_ne F.ne_pageDirBase.symm
  dir := fun _ hd => F.frame_of_ne (F.ne_dir hd).symm
  table := fun _ _ _ hd ht => F.frame_of_ne (F.ne_table hd ht).symm

end FreshTable

namespace TableInv

variable {t : ℕ}

/-- The fresh table becomes the user table of an empty directory entry. -/
theorem linkTable (H : TableInv r D c) (F : FreshTable r D t r₁) {d i : ℕ} (hd : D d) (hi : i < 512)
    (hp : present (r.frame d i) = false) :
    TableInv (r₁.setWord d i (t ||| pagePresentRwUser)) D c ∧
      tableOf (r₁.setWord d i (t ||| pagePresentRwUser)) d i = some t ∧
      DirFrame (fun x => D x ∧ x ≠ d) r (r₁.setWord d i (t ||| pagePresentRwUser)) ∧
      KernelFrame r (r₁.setWord d i (t ||| pagePresentRwUser)) ∧
      ∀ d' i' j', D d' →
        ownedAt (r₁.setWord d i (t ||| pagePresentRwUser)) d' i' j' = ownedAt r d' i' j' := by
  set r₂ := r₁.setWord d i (t ||| pagePresentRwUser) with hr₂
  obtain ⟨hb1, hb2, hb3, hb4, hb5⟩ := userPde_bits F.bounds.2.2 F.lt_word
  have hdk : d ≠ pageDirBase := H.node_ne_pageDirBase (x := .dir d) ⟨hd, rfl⟩
  have hdt : t ≠ d := F.ne_dir hd
  have hself : r₂.frame d = Function.update (r.frame d) i (t ||| pagePresentRwUser) := by
    rw [hr₂, Ram.frame_setWord_self, F.frame_of_ne hdt.symm]
  have hother : ∀ a, a ≠ d → a ≠ t → r₂.frame a = r.frame a := fun a h1 h2 =>
    (Function.update_of_ne h1 _ _).trans (F.frame_of_ne h2)
  have hnew : r₂.frame t = fun _ => 0 := (Function.update_of_ne hdt _ _).trans F.frame_self
  have hk : r₂.frame pageDirBase = r.frame pageDirBase :=
    hother _ hdk.symm F.ne_pageDirBase.symm
  have hnone : tableOf r d i = none := by simp [tableOf, hp]
  have htab : ∀ d' i', D d' → tableOf r₂ d' i' =
      if d' = d ∧ i' = i then some t else tableOf r d' i' := by
    intro d' i' hd'
    by_cases hdd : d' = d
    · subst hdd
      by_cases hii : i' = i
      · subst hii
        simp [tableOf, hself, hb1, hb2, hb3, hb4, hi]
      · simp [tableOf, hself, hii]
    · rw [if_neg fun h => hdd h.1, tableOf_congr (hother d' hdd (F.ne_dir hd').symm)]
  -- the places in use are those of before and the new one
  have hnode : ∀ x a, NodeAt r₂ D x a ↔ NodeAt r D x a ∨ x = .table d i ∧ a = t := by
    intro x a
    cases x with
    | dir d' => simp [NodeAt]
    | ktable i' => simp [NodeAt, ktableOf_congr hk]
    | table d' i' =>
      simp only [NodeAt, Node.table.injEq]
      constructor
      · rintro ⟨hd', h⟩
        rw [htab d' i' hd'] at h
        split_ifs at h with hpos
        · exact Or.inr ⟨hpos, (Option.some.inj h).symm⟩
        · exact Or.inl ⟨hd', h⟩
      · rintro (⟨hd', h⟩ | ⟨⟨rfl, rfl⟩, rfl⟩)
        · refine ⟨hd', ?_⟩
          rw [htab d' i' hd', if_neg, h]
          rintro ⟨rfl, rfl⟩
          rw [hnone] at h
          cases h
        · exact ⟨hd, by rw [htab _ _ hd, if_pos ⟨rfl, rfl⟩]⟩
  refine ⟨?_, by rw [htab d i hd, if_pos ⟨rfl, rfl⟩], ?_, ?_, ?_⟩
  · exact
      { pool := by
          have hp₂ := F.pool.congr_link (fun a => r₂.frame a 0) fun a _ hna => by
            have hne : a ≠ d := fun he => hna (Or.inl ⟨.dir d, hd, he⟩)
            exact congrFun (Function.update_of_ne hne _ _) 0
          refine hp₂.congr_inUse fun a => ?_
          simp only [hnode, exists_or, exists_and_right, exists_eq, true_and]
        node_inj := by
          intro x y a hx hy
          rcases (hnode x a).mp hx with hx | ⟨rfl, rfl⟩ <;>
            rcases (hnode y a).mp hy with hy | ⟨rfl, hat⟩
          · exact H.node_inj hx hy
          · exact absurd (hat ▸ hx) (F.fresh x)
          · exact absurd hy (F.fresh y)
          · rfl
        kernel_pde := by rw [hk]; exact H.kernel_pde
        dir_pde := by
          intro d' hd' i' hi'
          rw [kernelCopy_congr hk, htab d' i' hd']
          by_cases hpos : d' = d ∧ i' = i
          · obtain ⟨rfl, rfl⟩ := hpos
            refine Or.inr ⟨?_, by simp⟩
            rcases H.dir_pde d' hd i' hi' with h | h
            · rcases kernelCopy_zero_or_present r i' with h0 | h1
              · exact h0
              · rw [h, h1.1] at hp
                cases hp
            · exact h.1
          · rw [if_neg hpos]
            have hword : r₂.frame d' i' = r.frame d' i' := by
              by_cases hdd : d' = d
              · subst hdd
                rw [hself, Function.update_of_ne fun h => hpos ⟨rfl, h⟩]
              · rw [hother d' hdd (F.ne_dir hd').symm]
            rw [hword]
            exact H.dir_pde d' hd' i' hi'
        user_pde := by
          intro d' i' t' hd' ht'
          rw [htab d' i' hd'] at ht'
          split_ifs at ht' with hpos
          · obtain ⟨rfl, rfl⟩ := hpos
            rw [hself, Function.update_self]
            exact hb5
          · have hword : r₂.frame d' i' = r.frame d' i' := by
              by_cases hdd : d' = d
              · subst hdd
                rw [hself, Function.update_of_ne fun h => hpos ⟨rfl, h⟩]
              · rw [hother d' hdd (F.ne_dir hd').symm]
            rw [hword]
            exact H.user_pde d' i' t' hd' ht'
        user_pte := by
          intro d' i' t' hd' ht' j' hj'
          rw [htab d' i' hd'] at ht'
          split_ifs at ht' with hpos
          · obtain rfl : t = t' := Option.some.inj ht'
            exact Or.inl (congrFun hnew j')
          · rw [hother t' (H.table_ne_dir hd' hd ht') (F.ne_table hd' ht').symm]
            exact H.user_pte d' i' t' hd' ht' j' hj'
        heap_tail := by
          intro k hkk
          rw [ktableOf_congr hk] at hkk
          have hkd : k ≠ d := by
            rintro rfl
            have h := H.node_inj (x := .ktable kheapPde) (y := .dir k) hkk ⟨hd, rfl⟩
            cases h
          rw [hother k hkd (F.ne_ktable hkk).symm]
          exact H.heap_tail k hkk }
  · refine ⟨hk, fun d' h => hother d' h.2 (F.ne_dir h.1).symm, fun d' i' t' h ht' => ?_⟩
    exact hother t' (H.table_ne_dir h.1 hd ht') (F.ne_table h.1 ht').symm
  · refine ⟨hk, fun i' k hkk => hother k ?_ (F.ne_ktable hkk).symm⟩
    rintro rfl
    have h := H.node_inj (x := .ktable i') (y := .dir k) hkk ⟨hd, rfl⟩
    cases h
  · intro d' i' j' hd'
    rw [ownedAt, ownedAt, htab d' i' hd']
    by_cases hpos : d' = d ∧ i' = i
    · obtain ⟨rfl, rfl⟩ := hpos
      simp [hnone, hnew, present_zero]
    · rw [if_neg hpos]
      cases ht' : tableOf r d' i' with
      | none => rfl
      | some t' =>
        simp only [Option.bind_some, hother t' (H.table_ne_dir hd' hd ht') (F.ne_table hd' ht').symm]

/-- The fresh table becomes a directory with the kernel's supervisor entries. -/
theorem openDir (H : TableInv r D c) (F : FreshTable r D t r₁) :
    TableInv (r₁.setPage t fun i => if i < 1024 then kernelCopy r₁ i else r₁.frame t i)
        (fun x => D x ∨ x = t) c ∧
      DirFrame D r (r₁.setPage t fun i => if i < 1024 then kernelCopy r₁ i else r₁.frame t i) ∧
      KernelFrame r (r₁.setPage t fun i => if i < 1024 then kernelCopy r₁ i else r₁.frame t i) ∧
      ∀ i, tableOf (r₁.setPage t fun i => if i < 1024 then kernelCopy r₁ i else r₁.frame t i) t i
        = none := by
  set r₂ := r₁.setPage t fun i => if i < 1024 then kernelCopy r₁ i else r₁.frame t i with hr₂
  have hother : ∀ a, a ≠ t → r₂.frame a = r.frame a := fun a h =>
    (Function.update_of_ne h _ _).trans (F.frame_of_ne h)
  have hk : r₂.frame pageDirBase = r.frame pageDirBase := hother _ F.ne_pageDirBase.symm
  have hself : ∀ i < 1024, r₂.frame t i = kernelCopy r i := by
    intro i hi
    rw [hr₂, Ram.setPage]
    simp only [Function.update_self, if_pos hi]
    exact kernelCopy_congr F.dirFrame.kernel i
  have hnone : ∀ i, tableOf r₂ t i = none := by
    intro i
    rw [tableOf]
    refine if_neg ?_
    rintro ⟨hi, -, hu, -⟩
    rw [hself i (by omega)] at hu
    rcases kernelCopy_zero_or_present r i with h | h
    · rw [h] at hu
      cases hu
    · rw [h.2] at hu
      cases hu
  have hnode : ∀ x a, NodeAt r₂ (fun x => D x ∨ x = t) x a ↔
      NodeAt r D x a ∨ x = .dir t ∧ a = t := by
    intro x a
    cases x with
    | dir d =>
      simp only [NodeAt, Node.dir.injEq]
      constructor
      · rintro ⟨hd | rfl, rfl⟩
        · exact Or.inl ⟨hd, rfl⟩
        · exact Or.inr ⟨rfl, rfl⟩
      · rintro (⟨hd, rfl⟩ | ⟨rfl, rfl⟩)
        · exact ⟨Or.inl hd, rfl⟩
        · exact ⟨Or.inr rfl, rfl⟩
    | ktable i => simp [NodeAt, ktableOf_congr hk]
    | table d i =>
      simp only [NodeAt, reduceCtorEq, false_and, or_false]
      constructor
      · rintro ⟨hd | rfl, h⟩
        · exact ⟨hd, (tableOf_congr (hother d (F.ne_dir hd).symm) i) ▸ h⟩
        · rw [hnone] at h
          cases h
      · rintro ⟨hd, h⟩
        exact ⟨Or.inl hd, (tableOf_congr (hother d (F.ne_dir hd).symm) i).trans h⟩
  have hframe : DirFrame D r r₂ :=
    ⟨hk, fun d hd => hother d (F.ne_dir hd).symm,
      fun d i t' hd ht => hother t' (F.ne_table hd ht).symm⟩
  refine ⟨?_, hframe, ⟨hk, fun _ k hkk => hother k (F.ne_ktable hkk).symm⟩, hnone⟩
  exact
    { pool := by
        have hp₂ := F.pool.congr_link (fun a => r₂.frame a 0) fun a _ hna =>
          congrFun (Function.update_of_ne (fun he => hna (Or.inr he)) _ _) 0
        refine hp₂.congr_inUse fun a => ?_
        simp only [hnode, exists_or, exists_and_right, exists_eq, true_and]
      node_inj := by
        intro x y a hx hy
        rcases (hnode x a).mp hx with hx | ⟨rfl, rfl⟩ <;>
          rcases (hnode y a).mp hy with hy | ⟨rfl, hat⟩
        · exact H.node_inj hx hy
        · exact absurd (hat ▸ hx) (F.fresh x)
        · exact absurd hy (F.fresh y)
        · rfl
      kernel_pde := by rw [hk]; exact H.kernel_pde
      dir_pde := by
        rintro d (hd | rfl) i hi
        · rw [kernelCopy_congr hk, tableOf_congr (hframe.dir d hd), hframe.dir d hd]
          exact H.dir_pde d hd i hi
        · exact Or.inl ((hself i hi).trans (kernelCopy_congr hk i).symm)
      user_pde := by
        rintro d i t' (hd | rfl) ht
        · rw [hframe.tableOf_eq hd] at ht
          rw [hframe.dir d hd]
          exact H.user_pde d i t' hd ht
        · rw [hnone] at ht
          cases ht
      user_pte := by
        rintro d i t' (hd | rfl) ht j hj
        · rw [hframe.tableOf_eq hd] at ht
          rw [hframe.table d i t' hd ht]
          exact H.user_pte d i t' hd ht j hj
        · rw [hnone] at ht
          cases ht
      heap_tail := by
        intro k hkk
        rw [ktableOf_congr hk] at hkk
        rw [hother k (F.ne_ktable hkk).symm]
        exact H.heap_tail k hkk }

/-- The fresh table becomes a table of the kernel, while no directory is live. -/
theorem linkKernelTable (H : TableInv r D c) (hD : ∀ d, ¬D d) (F : FreshTable r D t r₁) {i : ℕ}
    (hi : i < 1024) (hp : present (r.frame pageDirBase i) = false) :
    TableInv (r₁.setWord pageDirBase i (t ||| pagePresentRw)) D c ∧
      ktableOf (r₁.setWord pageDirBase i (t ||| pagePresentRw)) i = some t ∧
      (∀ j, heapAt (r₁.setWord pageDirBase i (t ||| pagePresentRw)) j = heapAt r j) ∧
      ∀ i' k, ktableOf (r₁.setWord pageDirBase i (t ||| pagePresentRw)) i' = some k →
        ((r₁.setWord pageDirBase i (t ||| pagePresentRw)).frame k = fun _ => 0) ∨
          ktableOf r i' = some k ∧
            (r₁.setWord pageDirBase i (t ||| pagePresentRw)).frame k = r.frame k := by
  set r₂ := r₁.setWord pageDirBase i (t ||| pagePresentRw) with hr₂
  obtain ⟨hb1, hb2, hb3, hb4⟩ := kernelPde_bits F.bounds.2.2 F.lt_word
  have hself : r₂.frame pageDirBase =
      Function.update (r.frame pageDirBase) i (t ||| pagePresentRw) := by
    rw [hr₂, Ram.frame_setWord_self, F.frame_of_ne F.ne_pageDirBase.symm]
  have hother : ∀ a, a ≠ pageDirBase → a ≠ t → r₂.frame a = r.frame a := fun a h1 h2 =>
    (Function.update_of_ne h1 _ _).trans (F.frame_of_ne h2)
  have hnew : r₂.frame t = fun _ => 0 :=
    (Function.update_of_ne F.ne_pageDirBase _ _).trans F.frame_self
  have hnone : ktableOf r i = none := by simp [ktableOf, hp]
  have hkt : ∀ i', ktableOf r₂ i' = if i' = i then some t else ktableOf r i' := by
    intro i'
    by_cases hii : i' = i
    · subst hii
      simp [ktableOf, hself, hb1, hb3, hb4, hi]
    · simp [ktableOf, hself, hii]
  have hnode : ∀ x a, NodeAt r₂ D x a ↔ NodeAt r D x a ∨ x = .ktable i ∧ a = t := by
    intro x a
    cases x with
    | dir d => simp [NodeAt, hD d]
    | table d i' => simp [NodeAt, hD d]
    | ktable i' =>
      simp only [NodeAt, hkt, Node.ktable.injEq]
      by_cases hii : i' = i
      · subst hii
        simp [hnone, eq_comm]
      · simp [hii]
  have hktne : ∀ k i', ktableOf r i' = some k → k ≠ pageDirBase := fun k i' hk =>
    H.node_ne_pageDirBase (x := .ktable i') hk
  refine ⟨?_, by rw [hkt, if_pos rfl], ?_, fun i' k hk => ?_⟩
  · exact
      { pool := by
          have hp₂ := F.pool.congr_link (fun a => r₂.frame a 0) fun a ha _ => by
            have hne : a ≠ pageDirBase := by
              have h := ha.1
              simp only [pageTablePoolBase, pageDirBase] at h ⊢
              omega
            exact congrFun (Function.update_of_ne hne _ _) 0
          refine hp₂.congr_inUse fun a => ?_
          simp only [hnode, exists_or, exists_and_right, exists_eq, true_and]
        node_inj := by
          intro x y a hx hy
          rcases (hnode x a).mp hx with hx | ⟨rfl, rfl⟩ <;>
            rcases (hnode y a).mp hy with hy | ⟨rfl, hat⟩
          · exact H.node_inj hx hy
          · exact absurd (hat ▸ hx) (F.fresh x)
          · exact absurd hy (F.fresh y)
          · rfl
        kernel_pde := by
          intro i' hi'
          rw [hself]
          by_cases hii : i' = i
          · rw [hii, Function.update_self]
            exact Or.inr ⟨hb1, by simp [hb2]⟩
          · rw [Function.update_of_ne hii]
            exact H.kernel_pde i' hi'
        dir_pde := fun d hd => absurd hd (hD d)
        user_pde := fun d _ _ hd => absurd hd (hD d)
        user_pte := fun d _ _ hd => absurd hd (hD d)
        heap_tail := by
          intro k hkk j h1 h2
          rw [hkt] at hkk
          split_ifs at hkk with hii
          · obtain rfl : t = k := Option.some.inj hkk
            rw [hnew]
          · rw [hother k (hktne k _ hkk) (F.ne_ktable hkk).symm]
            exact H.heap_tail k hkk j h1 h2 }
  · intro j
    rw [heapAt, heapAt, hkt]
    by_cases hii : kheapPde = i
    · rw [if_pos hii, hii, hnone]
      simp [hnew, present_zero]
    · rw [if_neg hii]
      cases hk : ktableOf r kheapPde with
      | none => rfl
      | some k =>
        simp only [Option.bind_some, hother k (hktne k _ hk) (F.ne_ktable hk).symm]
  · rw [hkt] at hk
    split_ifs at hk with hii
    · exact Or.inl (Option.some.inj hk ▸ hnew)
    · exact Or.inr ⟨hk, hother k (hktne k _ hk) (F.ne_ktable hk).symm⟩

/-- A page of the pool goes back: the guards of `free_page_table` pass. -/
theorem freePageTable_eq {a : ℕ} (h : pageTablePoolBase ≤ a ∧ a < pageTablePoolEnd ∧
    a % pageSize = 0) :
    freePageTable a r = { r.setWord a 0 r.pageTableFreeList with pageTableFreeList := a } := by
  obtain ⟨h1, h2, h3⟩ := h
  refine if_neg ?_
  simp only [pageTablePoolBase, pageTablePoolEnd] at h1 h2 ⊢
  omega

theorem freePageTable_used (a : ℕ) (r : Ram) : (freePageTable a r).used = r.used := by
  unfold freePageTable
  split_ifs <;> rfl

theorem freePageTable_hint (a : ℕ) (r : Ram) :
    (freePageTable a r).pmmNextPage = r.pmmNextPage := by
  unfold freePageTable
  split_ifs <;> rfl

/-- A user table without owned entries goes back to the pool. -/
theorem unlinkTable (H : TableInv r D c) {d i : ℕ} (hd : D d) (ht : tableOf r d i = some t)
    (hown : ∀ j, ownedAt r d i j = none) :
    TableInv ((freePageTable t r).setWord d i 0) D c ∧
      DirFrame (fun x => D x ∧ x ≠ d) r ((freePageTable t r).setWord d i 0) ∧
      KernelFrame r ((freePageTable t r).setWord d i 0) ∧
      (∀ d' i', D d' → tableOf ((freePageTable t r).setWord d i 0) d' i' =
        if d' = d ∧ i' = i then none else tableOf r d' i') ∧
      ∀ d' i' j', D d' →
        ownedAt ((freePageTable t r).setWord d i 0) d' i' j' = ownedAt r d' i' j' := by
  have hb := H.node_bounds (x := .table d i) ⟨hd, ht⟩
  rw [freePageTable_eq hb]
  set r₂ := Ram.setWord { r.setWord t 0 r.pageTableFreeList with pageTableFreeList := t } d i 0
    with hr₂
  have htd : ∀ d', D d' → t ≠ d' := fun d' h => H.table_ne_dir hd h ht
  have hdk : d ≠ pageDirBase := H.node_ne_pageDirBase (x := .dir d) ⟨hd, rfl⟩
  have htk : t ≠ pageDirBase := H.node_ne_pageDirBase (x := .table d i) ⟨hd, ht⟩
  have hi : i < 512 := by
    rw [tableOf] at ht
    split_ifs at ht with h
    exact h.1
  have hself : r₂.frame d = Function.update (r.frame d) i 0 := by
    refine (Function.update_self _ _ _).trans ?_
    have h : (r.setWord t 0 r.pageTableFreeList).frame d = r.frame d :=
      Function.update_of_ne (htd d hd).symm _ _
    exact congrArg (fun f => Function.update f i 0) h
  have hother : ∀ a, a ≠ d → a ≠ t → r₂.frame a = r.frame a := fun a h1 h2 =>
    (Function.update_of_ne h1 _ _).trans (Function.update_of_ne h2 _ _)
  have hk : r₂.frame pageDirBase = r.frame pageDirBase := hother _ hdk.symm htk.symm
  have htab : ∀ d' i', D d' → tableOf r₂ d' i' =
      if d' = d ∧ i' = i then none else tableOf r d' i' := by
    intro d' i' hd'
    by_cases hdd : d' = d
    · subst hdd
      by_cases hii : i' = i
      · subst hii
        simp [tableOf, hself, present_zero]
      · simp [tableOf, hself, hii]
    · rw [if_neg fun h => hdd h.1, tableOf_congr (hother d' hdd (htd d' hd').symm)]
  have htne : ∀ d' i' t', D d' → tableOf r d' i' = some t' → ¬(d' = d ∧ i' = i) → t' ≠ t := by
    rintro d' i' t' hd' ht' hpos rfl
    exact hpos (H.table_inj hd hd' ht ht')
  have hnode : ∀ x a, NodeAt r₂ D x a ↔ NodeAt r D x a ∧ x ≠ .table d i := by
    intro x a
    cases x with
    | dir d' => simp [NodeAt]
    | ktable i' => simp [NodeAt, ktableOf_congr hk]
    | table d' i' =>
      simp only [NodeAt, ne_eq, Node.table.injEq]
      constructor
      · rintro ⟨hd', h⟩
        rw [htab d' i' hd'] at h
        split_ifs at h with hpos
        exact ⟨⟨hd', h⟩, hpos⟩
      · rintro ⟨⟨hd', h⟩, hpos⟩
        exact ⟨hd', by rw [htab d' i' hd', if_neg hpos, h]⟩
  have hframe : DirFrame (fun x => D x ∧ x ≠ d) r r₂ := by
    refine ⟨hk, fun d' h => hother d' h.2 (htd d' h.1).symm, fun d' i' t' h ht' => ?_⟩
    exact hother t' (H.table_ne_dir h.1 hd ht') (htne d' i' t' h.1 ht' fun hp => h.2 hp.1)
  have hkernel : ∀ i' k, ktableOf r i' = some k → r₂.frame k = r.frame k := by
    intro i' k hkk
    refine hother k ?_ (H.table_ne_ktable hd ht hkk).symm
    rintro rfl
    have h := H.node_inj (x := .ktable i') (y := .dir k) hkk ⟨hd, rfl⟩
    cases h
  refine ⟨?_, hframe, ⟨hk, hkernel⟩, htab, ?_⟩
  · exact
      { pool := by
          have hpush := H.pool.push (a := t) ⟨.table d i, hd, ht⟩
          have hlink := hpush.congr_link (fun a => r₂.frame a 0) fun a _ hna => by
            by_cases hat : a = t
            · subst hat
              rw [Function.update_self]
              have h : r₂.frame a = Function.update (r.frame a) 0 r.pageTableFreeList :=
                (Function.update_of_ne (htd d hd) _ _).trans (Function.update_self _ _ _)
              rw [h, Function.update_self]
            · have had : a ≠ d := fun he => hna ⟨⟨.dir d, hd, he⟩, hat⟩
              rw [hother a had hat, Function.update_of_ne hat]
          refine hlink.congr_inUse fun a => ?_
          simp only [hnode]
          constructor
          · rintro ⟨x, hx, hne⟩
            refine ⟨⟨x, hx⟩, ?_⟩
            rintro rfl
            exact hne (H.node_inj hx ⟨hd, ht⟩)
          · rintro ⟨⟨x, hx⟩, hne⟩
            refine ⟨x, hx, ?_⟩
            rintro rfl
            exact hne (Option.some.inj (hx.2.symm.trans ht))
        node_inj := fun hx hy => H.node_inj ((hnode _ _).mp hx).1 ((hnode _ _).mp hy).1
        kernel_pde := by rw [hk]; exact H.kernel_pde
        dir_pde := by
          intro d' hd' i' hi'
          rw [kernelCopy_congr hk, htab d' i' hd']
          by_cases hpos : d' = d ∧ i' = i
          · obtain ⟨rfl, rfl⟩ := hpos
            refine Or.inl ?_
            rw [hself, Function.update_self]
            rcases H.dir_pde d' hd i' hi' with h | h
            · rcases kernelCopy_zero_or_present r i' with h0 | h1
              · exact h0.symm
              · -- a user entry is not a copy of a supervisor entry
                rw [tableOf, h, h1.2] at ht
                simp at ht
            · exact h.1.symm
          · rw [if_neg hpos]
            have hword : r₂.frame d' i' = r.frame d' i' := by
              by_cases hdd : d' = d
              · subst hdd
                rw [hself, Function.update_of_ne fun h => hpos ⟨rfl, h⟩]
              · rw [hother d' hdd (htd d' hd').symm]
            rw [hword]
            exact H.dir_pde d' hd' i' hi'
        user_pde := by
          intro d' i' t' hd' ht'
          rw [htab d' i' hd'] at ht'
          split_ifs at ht' with hpos
          have hword : r₂.frame d' i' = r.frame d' i' := by
            by_cases hdd : d' = d
            · subst hdd
              rw [hself, Function.update_of_ne fun h => hpos ⟨rfl, h⟩]
            · rw [hother d' hdd (htd d' hd').symm]
          rw [hword]
          exact H.user_pde d' i' t' hd' ht'
        user_pte := by
          intro d' i' t' hd' ht' j' hj'
          rw [htab d' i' hd'] at ht'
          split_ifs at ht' with hpos
          rw [hother t' (H.table_ne_dir hd' hd ht') (htne d' i' t' hd' ht' hpos)]
          exact H.user_pte d' i' t' hd' ht' j' hj'
        heap_tail := by
          intro k hkk
          rw [ktableOf_congr hk] at hkk
          rw [hkernel kheapPde k hkk]
          exact H.heap_tail k hkk }
  · intro d' i' j' hd'
    by_cases hpos : d' = d ∧ i' = i
    · obtain ⟨rfl, rfl⟩ := hpos
      rw [hown, ownedAt, htab d' i' hd', if_pos ⟨rfl, rfl⟩]
      rfl
    · rw [ownedAt, ownedAt, htab d' i' hd', if_neg hpos]
      cases ht' : tableOf r d' i' with
      | none => rfl
      | some t' =>
        simp only [Option.bind_some,
          hother t' (H.table_ne_dir hd' hd ht') (htne d' i' t' hd' ht' hpos)]

/-- A directory without user tables goes back to the pool. -/
theorem closeDir (H : TableInv r D c) {d : ℕ} (hd : D d) (hnone : ∀ i, tableOf r d i = none) :
    TableInv (freePageTable d r) (fun x => D x ∧ x ≠ d) c ∧
      DirFrame (fun x => D x ∧ x ≠ d) r (freePageTable d r) ∧
      KernelFrame r (freePageTable d r) := by
  have hb := H.node_bounds (x := .dir d) ⟨hd, rfl⟩
  rw [freePageTable_eq hb]
  set r₂ : Ram := { r.setWord d 0 r.pageTableFreeList with pageTableFreeList := d } with hr₂
  have hother : ∀ a, a ≠ d → r₂.frame a = r.frame a := fun a h => Function.update_of_ne h _ _
  have hk : r₂.frame pageDirBase = r.frame pageDirBase :=
    hother _ (H.node_ne_pageDirBase (x := .dir d) ⟨hd, rfl⟩).symm
  have hnode : ∀ x a, NodeAt r₂ (fun x => D x ∧ x ≠ d) x a ↔ NodeAt r D x a ∧ x ≠ .dir d := by
    intro x a
    cases x with
    | dir d' =>
      simp only [NodeAt, ne_eq, Node.dir.injEq]
      tauto
    | ktable i => simp [NodeAt, ktableOf_congr hk]
    | table d' i =>
      simp only [NodeAt, ne_eq, reduceCtorEq, not_false_eq_true, and_true]
      constructor
      · rintro ⟨⟨hd', hne⟩, h⟩
        exact ⟨hd', (tableOf_congr (hother d' hne) i) ▸ h⟩
      · rintro ⟨hd', h⟩
        have hne : d' ≠ d := by
          rintro rfl
          rw [hnone] at h
          cases h
        exact ⟨⟨hd', hne⟩, (tableOf_congr (hother d' hne) i).trans h⟩
  have htne : ∀ d' i' t', D d' → tableOf r d' i' = some t' → t' ≠ d :=
    fun d' i' t' hd' ht' => H.table_ne_dir hd' hd ht'
  have hframe : DirFrame (fun x => D x ∧ x ≠ d) r r₂ :=
    ⟨hk, fun d' h => hother d' h.2, fun d' i' t' h ht' => hother t' (htne d' i' t' h.1 ht')⟩
  have hkernel : ∀ i k, ktableOf r i = some k → r₂.frame k = r.frame k := by
    intro i k hkk
    refine hother k ?_
    rintro rfl
    have h := H.node_inj (x := .ktable i) (y := .dir k) hkk ⟨hd, rfl⟩
    cases h
  refine ⟨?_, hframe, ⟨hk, hkernel⟩⟩
  exact
    { pool := by
        have hpush := H.pool.push (a := d) ⟨.dir d, hd, rfl⟩
        have hlink := hpush.congr_link (fun a => r₂.frame a 0) fun a _ _ => by
          by_cases had : a = d
          · subst had
            rw [Function.update_self]
            have h : r₂.frame a = Function.update (r.frame a) 0 r.pageTableFreeList :=
              Function.update_self _ _ _
            rw [h, Function.update_self]
          · rw [hother a had, Function.update_of_ne had]
        refine hlink.congr_inUse fun a => ?_
        simp only [hnode]
        constructor
        · rintro ⟨x, hx, hne⟩
          refine ⟨⟨x, hx⟩, ?_⟩
          rintro rfl
          exact hne (H.node_inj hx ⟨hd, rfl⟩)
        · rintro ⟨⟨x, hx⟩, hne⟩
          refine ⟨x, hx, ?_⟩
          rintro rfl
          exact hne hx.2
      node_inj := fun hx hy => H.node_inj ((hnode _ _).mp hx).1 ((hnode _ _).mp hy).1
      kernel_pde := by rw [hk]; exact H.kernel_pde
      dir_pde := by
        intro d' hd' i hi
        rw [kernelCopy_congr hk, tableOf_congr (hframe.dir d' hd'), hframe.dir d' hd']
        exact H.dir_pde d' hd'.1 i hi
      user_pde := by
        intro d' i' t' hd' ht'
        rw [hframe.tableOf_eq hd'] at ht'
        rw [hframe.dir d' hd']
        exact H.user_pde d' i' t' hd'.1 ht'
      user_pte := by
        intro d' i' t' hd' ht' j hj
        rw [hframe.tableOf_eq hd'] at ht'
        rw [hframe.table d' i' t' hd' ht']
        exact H.user_pte d' i' t' hd'.1 ht' j hj
      heap_tail := by
        intro k hkk
        rw [ktableOf_congr hk] at hkk
        rw [hkernel kheapPde k hkk]
        exact H.heap_tail k hkk }

end TableInv

end Pool

end VirtualKernel
