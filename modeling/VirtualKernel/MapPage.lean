/-
What `map_page` reports.

`map_page` looks at the present bit of the directory entry only.  Behind an entry of
4 MiB it takes the base of the page for the address of a table and writes the table entry
there.  If that linear address is mapped, as in the 4 MiB that are mapped one to one, the
call maps nothing and reports success; otherwise it ends in a page fault.  `unmap_page`,
`map_user_page` and `get_physical_address` look at the size bit.

* **`mapPage_eq_pool`** — away from 4 MiB entries the write goes to a table of the pool,
  which is mapped one to one;
* **`Inv.mapPage_eq_pool`** — so do the kernel's own calls in every state of the running
  system;
* **`getPhysicalAddress_congr`** — a translation depends on one directory entry and one
  table entry;
* **`tableInv_setKernelPte`** — writing an entry of a kernel table keeps the tables;
* **`mapPage_reports`** — after every sequence of calls that do not write into a 4 MiB
  page, a call does what it reports exactly if it does not do so either.
-/
import VirtualKernel.BootSpec
import VirtualKernel.PmmHints

namespace VirtualKernel

open Lib

/-! ### Translations -/

section Translation

variable {r r' : Ram} {d w : ℕ}

/-- The index of the table entry of an address. -/
abbrev pteIndex (w : ℕ) : ℕ := w / 2 ^ 12 % 2 ^ 10

/-- A translation depends on one directory entry and, behind a table, on one entry of it. -/
theorem getPhysicalAddress_congr (hpde : r'.frame d (w / 2 ^ 22) = r.frame d (w / 2 ^ 22))
    (hpte : present (r.frame d (w / 2 ^ 22)) = true → psBit (r.frame d (w / 2 ^ 22)) = false →
      r'.frame (pageAddr (r.frame d (w / 2 ^ 22))) (pteIndex w) =
        r.frame (pageAddr (r.frame d (w / 2 ^ 22))) (pteIndex w)) :
    getPhysicalAddress d w r' = getPhysicalAddress d w r := by
  rw [getPhysicalAddress, getPhysicalAddress, hpde]
  dsimp only
  by_cases hout : d = 0 ∨ ¬present (r.frame d (w / 2 ^ 22)) = true
  · rw [if_pos hout, if_pos hout]
  rw [if_neg hout, if_neg hout]
  by_cases hps : psBit (r.frame d (w / 2 ^ 22)) = true
  · rw [if_pos hps, if_pos hps]
  · have hp : present (r.frame d (w / 2 ^ 22)) = true := by
      by_contra h
      exact hout (Or.inr h)
    rw [if_neg hps, if_neg hps, hpte hp (Bool.eq_false_of_not_eq_true hps)]

/-- Nothing is mapped behind an absent entry. -/
theorem getPhysicalAddress_absent (hp : present (r.frame d (w / 2 ^ 22)) = false) :
    getPhysicalAddress d w r = none := by
  rw [getPhysicalAddress]
  dsimp only
  rw [if_pos (Or.inr (by rw [hp]; exact Bool.false_ne_true))]

/-- The translation through a table. -/
theorem getPhysicalAddress_table (hd : d ≠ 0) (hp : present (r.frame d (w / 2 ^ 22)) = true)
    (hps : psBit (r.frame d (w / 2 ^ 22)) = false) {e : ℕ}
    (he : r.frame (pageAddr (r.frame d (w / 2 ^ 22))) (pteIndex w) = e) :
    getPhysicalAddress d w r =
      if present e = true then some (pageAddr e ||| (w &&& 0xFFF)) else none := by
  rw [getPhysicalAddress]
  dsimp only
  rw [if_neg, if_neg (by rw [hps]; exact Bool.false_ne_true), he]
  · by_cases hpe : present e = true
    · rw [if_neg (not_not.mpr hpe), if_pos hpe]
    · rw [if_pos hpe, if_neg hpe]
  · rintro (h0 | hnot)
    · exact hd h0
    · exact hnot hp

/-- A page-aligned address and an offset. -/
theorem or_offset {p : ℕ} (hp : p % pageSize = 0) (w : ℕ) :
    p ||| (w &&& 0xFFF) = p + w % pageSize := by
  have hw : w &&& 0xFFF = w % 2 ^ 12 := Nat.and_two_pow_sub_one_eq_mod w 12
  have hshift : p = (p / 2 ^ 12) <<< 12 := by
    rw [Nat.shiftLeft_eq]
    simp only [pageSize] at hp
    omega
  rw [hw, hshift, ← Nat.shiftLeft_add_eq_or_of_lt (Nat.mod_lt _ (Nat.two_pow_pos 12))]

/-- An address in the 4 MiB page at `base`. -/
theorem or_offset_large {base : ℕ} (hbase : base % 2 ^ 22 = 0) (hw : w / 2 ^ 22 = base / 2 ^ 22) :
    base ||| (w &&& 0x003FFFFF) = w := by
  have hand : w &&& 0x003FFFFF = w % 2 ^ 22 := Nat.and_two_pow_sub_one_eq_mod w 22
  have hshift : base = (w / 2 ^ 22) <<< 22 := by
    rw [Nat.shiftLeft_eq]
    omega
  rw [hand, hshift, ← Nat.shiftLeft_add_eq_or_of_lt (Nat.mod_lt _ (Nat.two_pow_pos 22)),
    Nat.shiftLeft_eq]
  exact Nat.div_add_mod' w (2 ^ 22)

/-- Two addresses in one page. -/
theorem same_page_iff {v : ℕ} :
    w / pageSize = v / pageSize ↔ w / 2 ^ 22 = v / 2 ^ 22 ∧ pteIndex w = pteIndex v := by
  simp only [pageSize, pteIndex]
  omega

end Translation

/-! ### The linear write -/

/-- The entry of `v` is a present 4 MiB entry. -/
def LargeEntry (r : Ram) (v : ℕ) : Prop :=
  present (r.frame pageDirBase (v / 2 ^ 22)) = true ∧ psBit (r.frame pageDirBase (v / 2 ^ 22)) = true

/-- The entry of the 4 MiB that hold the page-table pool. -/
abbrev poolPde : ℕ := 0x30400000 / 2 ^ 22

/-- The pool is mapped one to one. -/
def PoolMapped (r : Ram) : Prop := r.frame pageDirBase poolPde = bootDirectory poolPde

section Linear

variable {r r₁ : Ram} {D : ℕ → Prop} {c : ℕ}

/-- **A write to an entry of a table of the pool** reaches the table. -/
theorem storeLinear_pool (hpool : PoolMapped r) {t j : ℕ}
    (ht : pageTablePoolBase ≤ t ∧ t < pageTablePoolEnd ∧ t % pageSize = 0) (hj : j < 2 ^ 10) (v : ℕ) :
    storeLinear (add32 t (4 * j)) v r = some (r.setWord t j v) := by
  obtain ⟨h1, h2, h3⟩ := ht
  simp only [pageTablePoolBase, pageTablePoolEnd, pageSize] at h1 h2 h3
  set a := t + 4 * j with ha
  have hadd : add32 t (4 * j) = a := add32_of_lt (by omega)
  have hpde : a / 2 ^ 22 = poolPde := by
    simp only [poolPde]
    omega
  have hphys : getPhysicalAddress pageDirBase a r = some a := by
    have hboot : bootDirectory poolPde = 0x30400083 := by decide
    rw [getPhysicalAddress, hpde, hpool, hboot]
    dsimp only
    rw [if_neg (by decide), if_pos (by decide)]
    have hmask : (0x30400083 &&& 0xFFC00000 : ℕ) = 0x30400000 := by decide
    rw [hmask, or_offset_large (by decide) hpde]
  have hframe : pageAddr a = t := by
    rw [pageAddr_eq (by omega)]
    omega
  have hindex : a % pageSize / 4 = j := by
    simp only [pageSize]
    omega
  rw [hadd, storeLinear, hphys, Option.map_some, hframe, hindex]

/-- **`map_page` away from 4 MiB entries** writes into a table of the pool, at its physical
address. -/
theorem mapPage_eq_pool (H : TableInv r D c) (hpool : PoolMapped r) {v : ℕ} (hv : v < 2 ^ 32)
    (hlarge : ¬LargeEntry r v) (p flags : ℕ) :
    mapPage v p flags r = some (mapPagePool v p flags r) := by
  have hj : pteIndex v < 2 ^ 10 := Nat.mod_lt _ (by decide)
  rw [mapPage, mapPagePool]
  by_cases hpde : present (r.frame pageDirBase (v / 2 ^ 22)) = true
  · rw [if_pos hpde, if_pos hpde]
    have hps : psBit (r.frame pageDirBase (v / 2 ^ 22)) = false :=
      Bool.eq_false_of_not_eq_true fun h => hlarge ⟨hpde, h⟩
    have hnode : NodeAt r D (.ktable (v / 2 ^ 22)) (pageAddr (r.frame pageDirBase (v / 2 ^ 22))) :=
      ktableOf_eq_some.mpr ⟨by omega, hpde, hps, rfl⟩
    rw [storeLinear_pool hpool (H.node_bounds hnode) hj, Option.map_some]
  · rw [if_neg hpde, if_neg hpde]
    rcases allocPageTable_spec H with ⟨hnone, -, -⟩ | ⟨t, r₁, hsome, F⟩
    · rw [hnone]
    · -- the new entry is not that of the pool, which is present
      have hne : poolPde ≠ v / 2 ^ 22 := by
        intro h
        rw [← h, hpool] at hpde
        exact hpde (by decide)
      have hpool' : PoolMapped (r₁.setWord pageDirBase (v / 2 ^ 22) (t ||| pagePresentRw)) := by
        rw [PoolMapped, Ram.frame_setWord_self, Function.update_of_ne hne,
          F.frame_of_ne F.ne_pageDirBase.symm, hpool]
      rw [hsome]
      dsimp only
      rw [storeLinear_pool hpool' F.bounds hj, Option.map_some]

/-- **In the running system** the pool is mapped one to one, and the entries behind which
the kernel maps pages have tables. -/
theorem Inv.mapPage_eq_pool {w : World} {O : ℕ → Prop} {B : Items} {P : Multiset ℕ}
    (H : Inv w O B P) {v : ℕ} (hv : v < 2 ^ 32) (hk : KernelTables (v / 2 ^ 22)) (p flags : ℕ) :
    mapPage v p flags w.k.ram = some (mapPagePool v p flags w.k.ram) := by
  simp only [KernelTables, kheapPde, tempPde, storagePde] at hk
  have hpool : PoolMapped w.k.ram := by
    rcases H.pdes poolPde with h | ⟨h, -⟩
    · exact h
    · simp only [KernelTables, poolPde, kheapPde, tempPde, storagePde] at h
      omega
  have hlarge : ¬LargeEntry w.k.ram v := by
    rintro ⟨hpde, hps⟩
    rcases H.pdes (v / 2 ^ 22) with h | ⟨-, h⟩
    · -- the bootstrap leaves such an entry empty
      rw [h, bootDirectory, if_neg (by omega), if_neg (by omega), if_neg (by omega),
        if_neg (by omega), if_neg (by omega), if_neg (by omega)] at hpde
      exact absurd hpde (by decide)
    · rw [h] at hps
      cases hps
  exact VirtualKernel.mapPage_eq_pool H.holds.ram.tables hpool hv hlarge p flags

end Linear

/-! ### The kernel's tables -/

/-- There are no process directories yet. -/
abbrev NoDirs : ℕ → Prop := fun _ => False

/-- The invariant of the kernel's directory while `map_page` and `unmap_page` are all
that changes it; nothing is known about the entries of the heap's table. -/
abbrev MapTables (r : Ram) : Prop := TableInv r NoDirs (kheapBase + 2 ^ 22)

section Tables

variable {r : Ram}

theorem mapTables_setup {r : Ram} (hpool : r.pageTableNext = pageTablePoolBase)
    (hlist : r.pageTableFreeList = 0) : MapTables (setupPaging r) := by
  set r₀ : Ram := { setupPaging r with pmmNextPage := mainRamStart / pageSize } with hr₀
  have hdir : (setupPaging r).frame pageDirBase = bootDirectory := Ram.frame_setPage_self r _ _
  have H : TableInv (setupPaging r) NoDirs kheapBase :=
    (pmmInit_ramInv (r := r₀) hdir rfl hpool hlist fun _ h => h).tables.congr_frame rfl rfl rfl
  exact { H with heap_tail := fun t ht j hj => H.heap_tail t ht j (by
    rw [Nat.sub_self, Nat.zero_div]
    exact Nat.zero_le j) }

/-- Writing one entry of a kernel table. -/
theorem tableInv_setKernelPte (H : MapTables r) {i t j : ℕ} (ht : ktableOf r i = some t)
    (hj : j < 1024) (v : ℕ) : MapTables (r.setWord t j v) := by
  by_cases hheap : i = kheapPde
  · rw [hheap] at ht
    have hlast : (kheapBase + 2 ^ 22 - kheapBase) / pageSize = 1024 := by decide
    refine (H.setHeapPte (v := v) ht hj fun j' hj' => ⟨hj', fun h => ?_⟩).1
    omega
  · exact (H.setPage_other (Function.update (r.frame t) j v)
      (H.node_ne_pageDirBase (x := .ktable i) ht)
      (fun x hx => ⟨i, H.node_inj hx ht, hheap⟩) (fun _ => ⟨.ktable i, ht⟩)).1

/-- Two tables of the kernel are different pages. -/
theorem ktable_inj (H : MapTables r) {i i' t : ℕ} (ht : ktableOf r i = some t)
    (ht' : ktableOf r i' = some t) : i = i' := by
  have h := H.node_inj (x := .ktable i) (y := .ktable i') ht ht'
  cases h
  rfl

theorem ktable_ne_dir (H : MapTables r) {i t : ℕ} (ht : ktableOf r i = some t) :
    t ≠ pageDirBase := H.node_ne_pageDirBase (x := .ktable i) ht

/-! ### What a call reports -/

/-- A call for `v` writes into a 4 MiB page: the entry of `v` is a present 4 MiB entry, and
the linear address that is taken for the table entry is mapped. -/
def WritesLarge (r : Ram) (v : ℕ) : Prop :=
  LargeEntry r v ∧ (getPhysicalAddress pageDirBase
    (add32 (pageAddr (r.frame pageDirBase (v / 2 ^ 22))) (4 * pteIndex v)) r).isSome = true

/-- The physical memory outside the frames and the table pool is the same. -/
structure SamePool (r r' : Ram) : Prop where
  used : r'.used = r.used
  hint : r'.pmmNextPage = r.pmmNextPage
  next : r'.pageTableNext = r.pageTableNext
  list : r'.pageTableFreeList = r.pageTableFreeList

/-- From `r` to `r'` only the table entry of `v` was written: the entry was in a table of
the kernel. -/
def EntryOnly (v : ℕ) (r r' : Ram) : Prop :=
  ∃ t, ktableOf r (v / 2 ^ 22) = some t ∧ SamePool r r' ∧
    ∀ a k, ¬(a = t ∧ k = pteIndex v) → r'.frame a k = r.frame a k

/-- From `r` to `r'` the absent directory entry of `v` was filled with a new table of the
pool, zero but for the entry of `v`. -/
def NewTable (v : ℕ) (r r' : Ram) : Prop :=
  present (r.frame pageDirBase (v / 2 ^ 22)) = false ∧
    r'.used = r.used ∧ r'.pmmNextPage = r.pmmNextPage ∧
    ∃ t, ktableOf r' (v / 2 ^ 22) = some t ∧ (∀ i, ktableOf r i ≠ some t) ∧
      (pageTablePoolBase ≤ t ∧ t < pageTablePoolEnd ∧ t % pageSize = 0) ∧
      (∀ k, k ≠ pteIndex v → r'.frame t k = 0) ∧
      ∀ a k, a ≠ t → ¬(a = pageDirBase ∧ k = v / 2 ^ 22) → r'.frame a k = r.frame a k

/-- What success means. -/
structure MapsPage (v p : ℕ) (r r' : Ram) : Prop where
  maps : ∀ w < 2 ^ 32, w / pageSize = v / pageSize →
    getPhysicalAddress pageDirBase w r' = some (p + w % pageSize)
  others : ∀ w < 2 ^ 32, w / pageSize ≠ v / pageSize →
    getPhysicalAddress pageDirBase w r' = getPhysicalAddress pageDirBase w r
  written : EntryOnly v r r' ∨ NewTable v r r'

/-- `map_page(v, p, flags)` does what it reports, if it returns. -/
structure MapPageReports (v p flags : ℕ) (r : Ram) : Prop where
  success : ∀ r', mapPage v p flags r = some (true, r') → MapsPage v p r r'
  failure : ∀ r', mapPage v p flags r = some (false, r') → r' = r

/-- The entry word. -/
theorem mapPte_bits {p flags : ℕ} (hp : p % pageSize = 0) (hp32 : p < 2 ^ 32)
    (hflags : flags < 0x1000) :
    present (pageAddr p ||| flags ||| pagePresentRw) = true ∧
      pageAddr (pageAddr p ||| flags ||| pagePresentRw) = p := by
  constructor
  · rw [present, Nat.testBit_or]
    simp [pagePresentRw]
  · rw [pageAddr_or _ (by decide), pageAddr_or _ hflags, pageAddr_of_aligned hp hp32,
      pageAddr_of_aligned hp hp32]

/-- A table that is linked, and the entry of `v` in it, decide the translations of the page. -/
theorem maps_of_entry {v p flags t : ℕ} {r' : Ram} (hp : p % pageSize = 0) (hp32 : p < 2 ^ 32)
    (hflags : flags < 0x1000) (ht : ktableOf r' (v / 2 ^ 22) = some t)
    (he : r'.frame t (pteIndex v) = pageAddr p ||| flags ||| pagePresentRw) {w : ℕ}
    (hw : w / pageSize = v / pageSize) :
    getPhysicalAddress pageDirBase w r' = some (p + w % pageSize) := by
  obtain ⟨hi, hj⟩ := same_page_iff.mp hw
  obtain ⟨-, hpde, hps, haddr⟩ := ktableOf_eq_some.mp ht
  rw [← hi] at hpde hps haddr
  obtain ⟨hb1, hb2⟩ := mapPte_bits hp hp32 hflags
  have he' : r'.frame (pageAddr (r'.frame pageDirBase (w / 2 ^ 22))) (pteIndex w) =
      pageAddr p ||| flags ||| pagePresentRw := by
    rw [haddr, hj, he]
  rw [getPhysicalAddress_table (by decide) hpde hps he', if_pos hb1, hb2, or_offset hp]

section Call

variable {v p flags : ℕ}

/-- A call on an entry with a table. -/
theorem mapPagePool_table (H : MapTables r) (hp : p % pageSize = 0) (hp32 : p < 2 ^ 32)
    (hflags : flags < 0x1000) {t : ℕ} (ht : ktableOf r (v / 2 ^ 22) = some t) :
    ∃ r', mapPagePool v p flags r = (true, r') ∧ MapTables r' ∧ MapsPage v p r r' ∧
      r'.frame pageDirBase = r.frame pageDirBase := by
  have hj : pteIndex v < 1024 := Nat.mod_lt _ (by decide)
  have hne := ktable_ne_dir H ht
  refine ⟨_, mapPagePool_eq ht rfl p flags, tableInv_setKernelPte H ht hj _, ?_,
    Ram.frame_setWord_of_ne r _ _ hne.symm⟩
  set e := pageAddr p ||| flags ||| pagePresentRw with he
  set r' := r.setWord t (pteIndex v) e with hr'
  have hdir : r'.frame pageDirBase = r.frame pageDirBase := Ram.frame_setWord_of_ne r _ _ hne.symm
  have hself : r'.frame t = Function.update (r.frame t) (pteIndex v) e :=
    Ram.frame_setWord_self r t _ _
  have ht' : ktableOf r' (v / 2 ^ 22) = some t := by
    rw [ktableOf_congr hdir]
    exact ht
  constructor
  · intro w _ hw
    exact maps_of_entry hp hp32 hflags ht' (by rw [hself, Function.update_self]) hw
  · intro w hw32 hw
    refine getPhysicalAddress_congr (by rw [hdir]) fun hpde hps => ?_
    have hkw : ktableOf r (w / 2 ^ 22) = some (pageAddr (r.frame pageDirBase (w / 2 ^ 22))) :=
      ktableOf_eq_some.mpr ⟨by omega, hpde, hps, rfl⟩
    by_cases htw : pageAddr (r.frame pageDirBase (w / 2 ^ 22)) = t
    · -- the same table, another entry
      rw [htw] at hkw ⊢
      have hi := ktable_inj H hkw ht
      rw [hself, Function.update_of_ne]
      exact fun hjw => hw (same_page_iff.mpr ⟨hi, hjw⟩)
    · rw [hr', Ram.frame_setWord_of_ne r _ _ htw]
  · -- one word is written
    refine Or.inl ⟨t, ht, ⟨rfl, rfl, rfl, rfl⟩, fun a k hak => ?_⟩
    by_cases hat : a = t
    · subst hat
      rw [hself, Function.update_of_ne fun hk => hak ⟨rfl, hk⟩]
    · rw [hr', Ram.frame_setWord_of_ne r _ _ hat]

/-- A call on an absent entry. -/
theorem mapPagePool_absent (H : MapTables r) (hv : v < 2 ^ 32) (hp : p % pageSize = 0)
    (hp32 : p < 2 ^ 32) (hflags : flags < 0x1000)
    (habs : present (r.frame pageDirBase (v / 2 ^ 22)) = false) :
    mapPagePool v p flags r = (false, r) ∨
      ∃ r', mapPagePool v p flags r = (true, r') ∧ MapTables r' ∧ MapsPage v p r r' ∧
        ∀ i, i ≠ v / 2 ^ 22 → r'.frame pageDirBase i = r.frame pageDirBase i := by
  have hi : v / 2 ^ 22 < 1024 := by omega
  have hj : pteIndex v < 1024 := Nat.mod_lt _ (by decide)
  have hnot : ¬present (r.frame pageDirBase (v / 2 ^ 22)) = true := by
    rw [habs]
    exact Bool.false_ne_true
  rcases allocPageTable_spec H with ⟨hnone, -, -⟩ | ⟨t, r₁, hsome, F⟩
  · refine Or.inl ?_
    rw [mapPagePool, if_neg hnot, hnone]
  obtain ⟨H₂, ht₂, -⟩ := H.linkKernelTable (fun _ h => h) F hi habs
  set r₂ := r₁.setWord pageDirBase (v / 2 ^ 22) (t ||| pagePresentRw) with hr₂
  set e := pageAddr p ||| flags ||| pagePresentRw with he
  set r' := r₂.setWord t (pteIndex v) e with hr'
  have hne := F.ne_pageDirBase
  have hrun : mapPagePool v p flags r = (true, r') := by
    rw [mapPagePool, if_neg hnot, hsome]
  -- the memory in terms of the memory before
  have hself : r'.frame t = Function.update (fun _ => 0) (pteIndex v) e := by
    rw [hr', Ram.frame_setWord_self, hr₂, Ram.frame_setWord_of_ne r₁ _ _ hne, F.frame_self]
  have hdir : r'.frame pageDirBase =
      Function.update (r.frame pageDirBase) (v / 2 ^ 22) (t ||| pagePresentRw) := by
    rw [hr', Ram.frame_setWord_of_ne r₂ _ _ hne.symm, hr₂, Ram.frame_setWord_self,
      F.frame_of_ne hne.symm]
  have hother : ∀ a, a ≠ t → a ≠ pageDirBase → r'.frame a = r.frame a := by
    intro a hat had
    rw [hr', Ram.frame_setWord_of_ne r₂ _ _ hat, hr₂, Ram.frame_setWord_of_ne r₁ _ _ had,
      F.frame_of_ne hat]
  have ht' : ktableOf r' (v / 2 ^ 22) = some t := by
    rw [ktableOf_congr (Ram.frame_setWord_of_ne r₂ _ _ hne.symm)]
    exact ht₂
  refine Or.inr ⟨r', hrun, tableInv_setKernelPte H₂ ht₂ hj e, ⟨?_, ?_, ?_⟩, fun i hi => by
    rw [hdir, Function.update_of_ne hi]⟩
  · intro w _ hw
    exact maps_of_entry hp hp32 hflags ht' (by rw [hself, Function.update_self]) hw
  · intro w hw32 hw
    by_cases hiw : w / 2 ^ 22 = v / 2 ^ 22
    · -- another page behind the new table
      have hjw : pteIndex w ≠ pteIndex v := fun h => hw (same_page_iff.mpr ⟨hiw, h⟩)
      obtain ⟨-, hpde, hps, haddr⟩ := ktableOf_eq_some.mp ht'
      rw [← hiw] at hpde hps haddr
      have hzero : r'.frame (pageAddr (r'.frame pageDirBase (w / 2 ^ 22))) (pteIndex w) = 0 := by
        rw [haddr, hself, Function.update_of_ne hjw]
      have habsw : present (r.frame pageDirBase (w / 2 ^ 22)) = false := by
        rw [hiw]
        exact habs
      rw [getPhysicalAddress_absent habsw, getPhysicalAddress_table (by decide) hpde hps hzero]
      rfl
    · have hpdew : r'.frame pageDirBase (w / 2 ^ 22) = r.frame pageDirBase (w / 2 ^ 22) := by
        rw [hdir, Function.update_of_ne hiw]
      refine getPhysicalAddress_congr hpdew fun hpde hps => ?_
      have hkw : ktableOf r (w / 2 ^ 22) = some (pageAddr (r.frame pageDirBase (w / 2 ^ 22))) :=
        ktableOf_eq_some.mpr ⟨by omega, hpde, hps, rfl⟩
      rw [hother _ (F.ne_ktable hkw).symm (ktable_ne_dir H hkw)]
  · refine Or.inr ⟨habs, F.used, F.hint, t, ht', fun i hit => F.fresh (.ktable i) hit, F.bounds,
      fun k hk => ?_, fun a k hat hak => ?_⟩
    · rw [hself, Function.update_of_ne hk]
    · by_cases had : a = pageDirBase
      · subst had
        rw [hdir, Function.update_of_ne fun hk => hak ⟨rfl, hk⟩]
      · rw [hother a hat had]

/-- A call on a 4 MiB entry returns exactly if the word that it writes is mapped; it then
reports success and has written no table entry. -/
theorem mapPage_large (h : WritesLarge r v) : ¬MapPageReports v p flags r := by
  intro hrep
  obtain ⟨⟨hpde, hps⟩, hmapped⟩ := h
  obtain ⟨a, ha⟩ := Option.isSome_iff_exists.mp hmapped
  have hrun : ∃ r', mapPage v p flags r = some (true, r') := by
    rw [mapPage, if_pos hpde, storeLinear, ha]
    exact ⟨_, rfl⟩
  obtain ⟨r', hrun⟩ := hrun
  rcases (hrep.success r' hrun).written with ⟨t, ht, -⟩ | ⟨habs, -⟩
  · have hnot := (ktableOf_eq_some.mp ht).2.2.1
    rw [hps] at hnot
    cases hnot
  · rw [hpde] at habs
    cases habs

/-- A call that does not return reports nothing. -/
theorem mapPage_fault (hlarge : LargeEntry r v) (hnot : ¬WritesLarge r v) :
    mapPage v p flags r = none := by
  have hnone : getPhysicalAddress pageDirBase
      (add32 (pageAddr (r.frame pageDirBase (v / 2 ^ 22))) (4 * pteIndex v)) r = none := by
    rw [← Option.not_isSome_iff_eq_none]
    exact fun h => hnot ⟨hlarge, h⟩
  rw [mapPage, if_pos hlarge.1, storeLinear, hnone]
  rfl

/-- What `map_page` and `unmap_page` keep in the kernel's directory. -/
structure MapInv (r : Ram) : Prop where
  tables : MapTables r
  pool : PoolMapped r

/-- **One call.** -/
theorem mapPage_step (H : MapInv r) (hv : v < 2 ^ 32) (hp : p % pageSize = 0)
    (hp32 : p < 2 ^ 32) (hflags : flags < 0x1000) (hlarge : ¬WritesLarge r v) :
    MapPageReports v p flags r ∧ ∀ b r', mapPage v p flags r = some (b, r') → MapInv r' := by
  by_cases hl : LargeEntry r v
  · -- the call ends in a page fault
    have hnone : mapPage v p flags r = none := mapPage_fault hl hlarge
    refine ⟨⟨fun r' h => ?_, fun r' h => ?_⟩, fun b r' h => ?_⟩ <;>
      · rw [hnone] at h
        cases h
  -- otherwise the table is in the pool, where linear and physical addresses agree
  have heq := VirtualKernel.mapPage_eq_pool H.tables H.pool hv hl p flags
  have hdone : ∀ {r₁}, mapPagePool v p flags r = (true, r₁) → MapInv r₁ → MapsPage v p r r₁ →
      MapPageReports v p flags r ∧ ∀ b r', mapPage v p flags r = some (b, r') → MapInv r' := by
    intro r₁ hrun H₁ hmap
    rw [hrun] at heq
    refine ⟨⟨fun r' h => ?_, fun r' h => ?_⟩, fun b r' h => ?_⟩ <;> rw [heq] at h <;> cases h
    · exact hmap
    · exact H₁
  by_cases hpde : present (r.frame pageDirBase (v / 2 ^ 22)) = true
  · have hps : psBit (r.frame pageDirBase (v / 2 ^ 22)) = false :=
      Bool.eq_false_of_not_eq_true fun h => hl ⟨hpde, h⟩
    obtain ⟨r₁, hrun, H₁, hmap, hdir⟩ := mapPagePool_table (v := v) H.tables hp hp32 hflags
      (ktableOf_eq_some.mpr ⟨by omega, hpde, hps, rfl⟩)
    exact hdone hrun ⟨H₁, by rw [PoolMapped, hdir, H.pool]⟩ hmap
  · rcases mapPagePool_absent H.tables hv hp hp32 hflags (Bool.eq_false_of_not_eq_true hpde) with
      hrun | ⟨r₁, hrun, H₁, hmap, hdir⟩
    · rw [hrun] at heq
      refine ⟨⟨fun r' h => ?_, fun r' h => ?_⟩, fun b r' h => ?_⟩ <;> rw [heq] at h <;> cases h
      · rfl
      · exact H
    · -- the entry of the pool is present, so it is not the one that gets a table
      have hne : poolPde ≠ v / 2 ^ 22 := by
        intro h
        rw [← h, H.pool] at hpde
        exact hpde (by decide)
      exact hdone hrun ⟨H₁, by rw [PoolMapped, hdir poolPde hne, H.pool]⟩ hmap

/-- `unmap_page` on the kernel's directory clears at most one entry of a table. -/
theorem unmapPage_step (H : MapInv r) (hv : v < 2 ^ 32) :
    MapInv (unmapPage pageDirBase v r).2 := by
  rw [unmapPage]
  dsimp only
  by_cases hno : pageDirBase = 0 ∨ ¬present (r.frame pageDirBase (v / 2 ^ 22)) = true ∨
      psBit (r.frame pageDirBase (v / 2 ^ 22)) = true
  · rw [if_pos hno]
    exact H
  rw [if_neg hno]
  rw [not_or, not_or, not_not] at hno
  have ht : ktableOf r (v / 2 ^ 22) = some (pageAddr (r.frame pageDirBase (v / 2 ^ 22))) :=
    ktableOf_eq_some.mpr ⟨by omega, hno.2.1, Bool.eq_false_of_not_eq_true hno.2.2, rfl⟩
  split
  · exact H
  · refine ⟨tableInv_setKernelPte H.tables ht (Nat.mod_lt _ (by decide)) 0, ?_⟩
    rw [PoolMapped, Ram.frame_setWord_of_ne r _ _ (ktable_ne_dir H.tables ht).symm, H.pool]

end Call

end Tables

/-! ### Runs -/

/-- The kernel's directory from `setup_paging` on, changed by `map_page` and
`unmap_page`; the calls of `map_page` return and meet the condition `C`. -/
inductive MapRun (C : Ram → ℕ → Prop) : Ram → Prop
  | setup {r : Ram} : r.pageTableNext = pageTablePoolBase → r.pageTableFreeList = 0 →
      MapRun C (setupPaging r)
  | map {r r' : Ram} {v p flags : ℕ} {b : Bool} : MapRun C r → v < 2 ^ 32 → p % pageSize = 0 →
      p < 2 ^ 32 → flags < 0x1000 → C r v → mapPage v p flags r = some (b, r') → MapRun C r'
  | unmap {r : Ram} {v : ℕ} : MapRun C r → v < 2 ^ 32 → MapRun C (unmapPage pageDirBase v r).2

/-- Calls that do not write into a 4 MiB page. -/
abbrev SmallEntries (r : Ram) (v : ℕ) : Prop := ¬WritesLarge r v

theorem MapRun.inv {r : Ram} (h : MapRun SmallEntries r) : MapInv r := by
  induction h with
  | @setup r hpool hlist =>
    refine ⟨mapTables_setup hpool hlist, ?_⟩
    rw [PoolMapped, setupPaging, Ram.frame_setPage_self]
  | map _ hv hp hp32 hflags hsmall hrun ih =>
    exact (mapPage_step ih hv hp hp32 hflags hsmall).2 _ _ hrun
  | unmap _ hv ih => exact unmapPage_step ih hv

/-- **`map_page` does what it reports**, after any calls that do not write into a 4 MiB
page, exactly when it does not write into one itself. -/
theorem mapPage_reports {r : Ram} (h : MapRun SmallEntries r) {v p flags : ℕ} (hv : v < 2 ^ 32)
    (hp : p % pageSize = 0) (hp32 : p < 2 ^ 32) (hflags : flags < 0x1000) :
    MapPageReports v p flags r ↔ ¬WritesLarge r v :=
  ⟨fun hrep hlarge => mapPage_large hlarge hrep,
    fun hsmall => (mapPage_step h.inv hv hp hp32 hflags hsmall).1⟩

/-- The memory after `setup_paging`. -/
def bootRam : Ram := setupPaging imageRam

theorem bootRam_run {C : Ram → ℕ → Prop} : MapRun C bootRam := MapRun.setup rfl rfl

/-- The first page of the kernel heap is mapped: the call returns, with carry clear. -/
theorem mapPage_reports_heap : MapPageReports kheapBase mainRamStart pagePresentRw bootRam ∧
    (mapPage kheapBase mainRamStart pagePresentRw bootRam).map (·.1) = some true :=
  ⟨(mapPage_reports bootRam_run (by decide) (by decide) (by decide) (by decide)).mpr (by
    rintro ⟨⟨hpde, -⟩, -⟩
    exact Bool.false_ne_true hpde), rfl⟩

/-- In the 4 MiB at 30000000h, which are mapped one to one, the call maps nothing: it reports
success, the address keeps its translation and the word at 30000000h is overwritten. -/
theorem mapPage_lies : MapRun (fun _ _ => True) bootRam ∧
    (mapPage 0x30000000 0x100000 pagePresentRw bootRam).map (fun (b, r) =>
      (b, getPhysicalAddress pageDirBase 0x30000000 r, r.frame 0x30000000 0)) =
      some (true, some 0x30000000, 0x100003) ∧
    ¬MapPageReports 0x30000000 0x100000 pagePresentRw bootRam :=
  ⟨bootRam_run, rfl, mapPage_large ⟨⟨rfl, rfl⟩, rfl⟩⟩

/-- In the kernel's own 4 MiB the call ends in a page fault: 34000000h is not mapped. -/
example : mapPage 0x80000000 0x100000 pagePresentRw bootRam = none := rfl

end VirtualKernel
