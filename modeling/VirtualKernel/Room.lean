/-
Allocations that succeed.

`Room heap pages tables k` says how much the kernel can still hand out: pages
by which its heap may grow, free physical pages, pages of the page-table pool.
An allocator with enough room does not fail, and each lemma says how much room
is left: `kHeapAlloc_room`, `kCreatePageDirectory_room`, `kAllocMapPage_room`,
`gdtCreateDescriptor_room`.  They complement the specifications of the same
routines, which allow for failure.
-/
import VirtualKernel.AllOrNothing
import Mathlib.Data.Finset.Card
import Mathlib.Order.Interval.Finset.Nat

namespace VirtualKernel

open Lib

/-! ### Free pages and free tables -/

/-- At least `n` physical pages are free. -/
def Ram.FreePages (r : Ram) (n : ℕ) : Prop :=
  ∃ s : Finset ℕ, n ≤ s.card ∧ ∀ m ∈ s, r.used m = false

/-- The page-table pool can still supply `n` tables. -/
def Ram.FreeTables (r : Ram) (n : ℕ) : Prop :=
  ∃ s : Finset ℕ, n ≤ s.card ∧ ∀ a ∈ s, pageTablePoolBase ≤ a ∧ a < pageTablePoolEnd ∧
    a % pageSize = 0 ∧ ¬r.PoolUsed a

section Free

variable {r r' : Ram} {n : ℕ}

theorem Ram.FreePages.mono (h : r.FreePages n) {m : ℕ} (hm : m ≤ n) : r.FreePages m := by
  obtain ⟨s, hs, hfree⟩ := h
  exact ⟨s, hm.trans hs, hfree⟩

/-- One page has been taken. -/
theorem Ram.FreePages.take (h : r.FreePages (n + 1)) (x : ℕ)
    (hx : ∀ m, r'.used m = true → r.used m = true ∨ m = x) : r'.FreePages n := by
  obtain ⟨s, hs, hfree⟩ := h
  refine ⟨s.erase x, ?_, fun m hm => ?_⟩
  · have := Finset.pred_card_le_card_erase (s := s) (a := x)
    omega
  · obtain ⟨hne, hm⟩ := Finset.mem_erase.mp hm
    by_contra hu
    rcases hx m (by simpa using hu) with h | h
    · rw [hfree m hm] at h
      cases h
    · exact hne h

theorem Ram.FreeTables.mono (h : r.FreeTables n) {m : ℕ} (hm : m ≤ n) : r.FreeTables m := by
  obtain ⟨s, hs, hfree⟩ := h
  exact ⟨s, hm.trans hs, hfree⟩

/-- One table has been taken. -/
theorem Ram.FreeTables.take (h : r.FreeTables (n + 1)) (x : ℕ)
    (hx : ∀ a, r'.PoolUsed a → r.PoolUsed a ∨ a = x) : r'.FreeTables n := by
  obtain ⟨s, hs, hfree⟩ := h
  refine ⟨s.erase x, ?_, fun a ha => ?_⟩
  · have := Finset.pred_card_le_card_erase (s := s) (a := x)
    omega
  · obtain ⟨hne, ha⟩ := Finset.mem_erase.mp ha
    obtain ⟨h1, h2, h3, h4⟩ := hfree a ha
    refine ⟨h1, h2, h3, fun hu => ?_⟩
    rcases hx a hu with h | h
    · exact h4 h
    · exact hne h

/-- Exactly the page `x` has been taken. -/
theorem Ram.freePages_put {x : ℕ} (hx : r.used x = false)
    (hu : r'.used = Function.update r.used x true) : r'.FreePages n ↔ r.FreePages (n + 1) := by
  constructor
  · rintro ⟨s, hs, hfree⟩
    have hxs : x ∉ s := fun h => by
      have := hfree x h
      rw [hu, Function.update_self] at this
      cases this
    refine ⟨insert x s, by rw [Finset.card_insert_of_notMem hxs]; omega, fun m hm => ?_⟩
    rcases Finset.mem_insert.mp hm with rfl | hm
    · exact hx
    · have hmx : m ≠ x := fun h => hxs (by rw [← h]; exact hm)
      have := hfree m hm
      rwa [hu, Function.update_of_ne hmx] at this
  · refine fun h => h.take x fun m hm => ?_
    by_cases hmx : m = x
    · exact Or.inr hmx
    · rw [hu, Function.update_of_ne hmx] at hm
      exact Or.inl hm

/-- Exactly the table `x` has been taken. -/
theorem Ram.freeTables_put {x : ℕ}
    (hx : (pageTablePoolBase ≤ x ∧ x < pageTablePoolEnd ∧ x % pageSize = 0) ∧ ¬r.PoolUsed x)
    (hu : ∀ a, r'.PoolUsed a ↔ r.PoolUsed a ∨ a = x) : r'.FreeTables n ↔ r.FreeTables (n + 1) := by
  constructor
  · rintro ⟨s, hs, hfree⟩
    have hxs : x ∉ s := fun h => (hfree x h).2.2.2 ((hu x).mpr (Or.inr rfl))
    refine ⟨insert x s, by rw [Finset.card_insert_of_notMem hxs]; omega, fun a ha => ?_⟩
    rcases Finset.mem_insert.mp ha with rfl | ha
    · exact ⟨hx.1.1, hx.1.2.1, hx.1.2.2, hx.2⟩
    · obtain ⟨h1, h2, h3, h4⟩ := hfree a ha
      exact ⟨h1, h2, h3, fun h => h4 ((hu a).mpr (Or.inl h))⟩
  · exact fun h => h.take x fun a ha => (hu a).mp ha

theorem Ram.FreeTables.congr (h : r.FreeTables n) (hx : ∀ a, r'.PoolUsed a ↔ r.PoolUsed a) :
    r'.FreeTables n := by
  obtain ⟨s, hs, hfree⟩ := h
  refine ⟨s, hs, fun a ha => ?_⟩
  obtain ⟨h1, h2, h3, h4⟩ := hfree a ha
  exact ⟨h1, h2, h3, fun hu => h4 ((hx a).mp hu)⟩

end Free

/-! ### A heap that can grow -/

section Growth

variable {σ : Type} {commit : ℕ → σ → Bool × σ} {J : ℕ → ℕ → σ → Prop} {h : Heap}
  {bs : List Block} {w : σ}

/-- `J m c w`: from the memory `w`, `m` more pages can be put behind the
committed end `c`. -/
structure CanCommit (commit : ℕ → σ → Bool × σ) (J : ℕ → ℕ → σ → Prop) : Prop where
  ok : ∀ m c w, J (m + 1) c w → kheapBase ≤ c → c < kheapBase + kheapMaxSize → c % pageSize = 0 →
    ∃ w', commit c w = (true, w') ∧ J m (c + pageSize) w'
  mono : ∀ m n c w, J n c w → m ≤ n → J m c w

/-- Growth by pages that are all there. -/
theorem heapGrowPagesNext_all (hJ : CanCommit commit J) {m : ℕ} : ∀ (count : ℕ) {h : Heap}
    {bs : List Block} {w : σ}, HeapRep h bs → J (m + count) h.committed w →
    h.committed + count * pageSize ≤ h.limit →
    ∃ h' w' bs', heapGrowPagesNext commit count h w = some (1, h', w') ∧ HeapRep h' bs' ∧
      J m h'.committed w' ∧ h'.committed = h.committed + count * pageSize
  | 0, h, bs, w, H, hw, _ => ⟨h, w, bs, rfl, H, hw, by rw [Nat.zero_mul, Nat.add_zero]⟩
  | count + 1, h, bs, w, H, hw, hroom => by
    rw [Nat.succ_mul] at hroom
    have hlt : h.committed < h.limit := by
      simp only [pageSize] at hroom
      omega
    obtain ⟨w₁, hc, hw₁⟩ := hJ.ok (m + count) h.committed w hw H.tiled.le
      (by have := H.limit; omega) H.paged
    obtain ⟨r, h₁, w₂, hrun, ⟨-, -, hwhy⟩ | ⟨rfl, hc₂, -, hcom, H₁⟩⟩ :=
      heapGrowOnePage_spec commit H w
    · rcases hwhy with ⟨hlim, -⟩ | hfail
      · omega
      · rw [hc] at hfail
        cases hfail
    · rw [hc] at hc₂
      obtain ⟨-, rfl⟩ := Prod.mk.inj hc₂
      rw [← hcom] at hw₁
      have hlimit : h₁.limit = h.limit := H₁.limit.trans H.limit.symm
      obtain ⟨h₂, w₂, bs₂, hrun₂, H₂, hw₂, hcom₂⟩ := heapGrowPagesNext_all hJ count H₁ hw₁
        (by rw [hlimit]; omega)
      refine ⟨h₂, w₂, bs₂, ?_, H₂, hw₂, by rw [hcom₂, hcom, Nat.succ_mul]; omega⟩
      simp [heapGrowPagesNext, hrun, hrun₂]

/-- **`heap_alloc` with room to grow** hands out a block. -/
theorem heapAlloc_room (hJ : CanCommit commit J) {m size g : ℕ} (H : HeapRep h bs) (h1 : 1 ≤ size)
    (hs : size ≤ kheapMaxSize) (hg : heapGrowCount (heapRound size) = g)
    (hw : J (m + g) h.committed w) (hroom : h.committed + g * pageSize ≤ h.limit) :
    ∃ r h' w', heapAlloc commit size h w = some (r, h', w') ∧ r ≠ 0 ∧ J m h'.committed w' ∧
      h'.committed ≤ h.committed + g * pageSize := by
  have hn := heapRound_le hs
  have halloc : heapAlloc commit size h w =
      heapAllocRetry commit (heapRound size) (2 ^ 32 - 2 + 1 + 1) h w := by
    rw [heapAlloc, if_neg (by omega)]
    rfl
  rw [halloc]
  cases hfind : bs.find? (fits (heapRound size)) with
  | some b =>
    -- a block fits at once
    exact ⟨_, _, _, heapAllocRetry_found H hfind _ w, found_ne_zero H hfind,
      hJ.mono m _ _ _ hw (Nat.le_add_right m g), Nat.le_add_right _ _⟩
  | none =>
    subst hg
    obtain ⟨h₁, w₁, bs₁, hrun, H₁, hw₁, hcom⟩ := heapGrowPagesNext_all hJ _ H hw hroom
    obtain ⟨h₂, w₂, bs₂, hrun₂, H₂, hext⟩ :=
      @heapGrowPagesNext_extends σ commit h bs (heapGrowCount (heapRound size)) H w
    rw [hrun] at hrun₂
    simp only [Option.some.injEq, Prod.mk.injEq] at hrun₂
    obtain ⟨hone, rfl, rfl⟩ := hrun₂
    -- all pages came, so the second scan finds them
    have hall : availablePages commit h.limit (heapGrowCount (heapRound size)) h.committed w =
        heapGrowCount (heapRound size) := by
      by_contra hne
      rw [if_neg hne] at hone
      cases hone
    rw [hall] at hext
    obtain ⟨b, hb, hfree, hle⟩ := extends_fits hn hext
    have hcount : heapGrowCount (heapRound size) ≠ 0 := by
      simp only [kheapMaxSize] at hn
      simp only [heapGrowCount, heapHdrSize, pageSize]
      rw [add32_of_lt (show heapRound size + 16 < 2 ^ 32 by omega), add32_of_lt (by omega)]
      omega
    have hgrow : heapGrowPages commit (heapGrowCount (heapRound size)) h w = some (1, h₁, w₁) := by
      rw [heapGrowPages, if_neg hcount, hrun]
    cases hfind₁ : bs₂.find? (fits (heapRound size)) with
    | none =>
      have hlt := find?_fits_none.mp hfind₁ b hb hfree
      omega
    | some d =>
      refine ⟨_, { h₁ with hdr := heapTakeBlock h₁.hdr d.addr (heapRound size) }, w₁, ?_,
        found_ne_zero H₂ hfind₁, hw₁, hcom.le⟩
      rw [heapAllocRetry_grow H hfind _ hgrow, if_neg Nat.one_ne_zero]
      exact heapAllocRetry_found H₂ hfind₁ _ w₁

end Growth

/-! ### Room in the kernel -/

/-- What the kernel can still hand out. -/
structure Room (heap pages tables : ℕ) (k : Kernel) : Prop where
  heap : k.heap.committed + heap * pageSize ≤ kheapBase + kheapMaxSize
  pages : k.ram.FreePages pages
  tables : k.ram.FreeTables tables

theorem Room.mono {a b c a' b' c' : ℕ} {k : Kernel} (h : Room a b c k) (ha : a' ≤ a) (hb : b' ≤ b)
    (hc : c' ≤ c) : Room a' b' c' k :=
  ⟨(Nat.add_le_add_left (Nat.mul_le_mul_right _ ha) _).trans h.heap, h.pages.mono hb,
    h.tables.mono hc⟩

/-- Memory of blocks, descriptors and tables of the kernel need no room. -/
theorem Room.congr {a b c : ℕ} {k k' : Kernel} (h : Room a b c k) (hh : k'.heap = k.heap)
    (hr : k'.ram = k.ram) : Room a b c k' :=
  ⟨by rw [hh]; exact h.heap, by rw [hr]; exact h.pages, by rw [hr]; exact h.tables⟩

/-- A page that is free is one that `pmm_alloc_page` can hand out. -/
theorem RamInv.allocatable {r : Ram} {O D : ℕ → Prop} {pend : Option ℕ} {c n : ℕ}
    (H : RamInv r O D pend c) (hn : r.used n = false) : Allocatable n := by
  by_contra hna
  have hused := (H.pages.ledger.exact n).mpr ⟨.other, H.pages.reserved n hna⟩
  rw [hn] at hused
  cases hused

/-- With a free page, one of them is handed out. -/
theorem not_all_used {r : Ram} {O D : ℕ → Prop} {pend : Option ℕ} {c n : ℕ}
    (H : RamInv r O D pend c) (h : r.FreePages (n + 1)) :
    ¬∀ m, Allocatable m → r.used m = true := by
  obtain ⟨s, hs, hfree⟩ := h
  obtain ⟨m, hm⟩ := Finset.card_pos.mp (show 0 < s.card by omega)
  intro hall
  have hused := hall m (H.allocatable (hfree m hm))
  rw [hfree m hm] at hused
  cases hused

/-- Physical pages can be put behind the heap. -/
theorem canCommit (O D : ℕ → Prop) : CanCommit heapCommit fun m c r =>
    RamInv r O D none c ∧ Windows r ∧ r.FreePages m where
  ok := by
    rintro m c r ⟨H, W, hfree⟩ h1 h2 h3
    rcases pmmAllocPage_cases H (fun r => (false, r)) (fun ebx r => mapPagePool c ebx pagePresentRw r)
      with ⟨-, hall⟩ | ⟨n, r₁, h, -, -, hu, hf, -, -, H₁⟩
    · exact absurd hall (not_all_used H hfree)
    · obtain ⟨k, hk⟩ := Option.isSome_iff_exists.mp W.heap
      have hk₁ : ktableOf r₁ kheapPde = some k := (ktableOf_congr (by rw [hf]) _).trans hk
      obtain ⟨r₂, hmap, H₂, F₂⟩ := mapPagePool_heap H₁ hk₁ h1 h2 h3
      refine ⟨r₂, h.trans hmap, H₂, W.congr ((RamFrame.of_frame hf).trans F₂), hfree.take n ?_⟩
      have hcv : c / 2 ^ 22 = kheapPde := by
        simp only [kheapBase, kheapMaxSize] at h1 h2
        simp only [kheapPde]
        omega
      rw [mapPagePool_eq hk₁ hcv] at hmap
      obtain ⟨-, rfl⟩ := Prod.mk.inj hmap
      intro m hm
      change r₁.used m = true at hm
      rw [hu] at hm
      by_cases hmn : m = n
      · exact Or.inr hmn
      · rw [Function.update_of_ne hmn] at hm
        exact Or.inl hm
  mono := fun _ _ _ _ h hle => ⟨h.1, h.2.1, h.2.2.mono hle⟩

section Kernel

variable {k k' : Kernel} {O O' : ℕ → Prop} {T T' : Items} {a b c : ℕ}

/-- The pages of the pool in use are given by the directories. -/
theorem Holds.poolUsed_eq (H : Holds k O T) (H' : Holds k' O' T') (F : Frame T k k')
    (hT : ∀ d, Item.dir d ∈ T' ↔ Item.dir d ∈ T) (x : ℕ) :
    k'.ram.PoolUsed x ↔ k.ram.PoolUsed x := by
  have hdirs : dirsOf T' = dirsOf T := funext fun d => propext (hT d)
  rw [H'.pool_used, H.pool_used, hdirs]
  exact exists_congr fun y => nodeAt_congr F.ram.kernel F.ram.dir y x

/-- **`heap_alloc`** succeeds with room for `g` more heap pages. -/
theorem kHeapAlloc_room (H : Holds k O T) {size g : ℕ} (h1 : 1 ≤ size) (hs : size ≤ kheapMaxSize)
    (hg : heapGrowCount (heapRound size) = g) (room : Room (a + g) (b + g) c k) :
    Runs (kHeapAlloc size) k fun p k' => p ≠ 0 ∧ Room a b c k' := by
  obtain ⟨bs, hrep, -⟩ := H.heap
  have hheap := room.heap
  rw [Nat.add_mul] at hheap
  obtain ⟨r, h', w', hrun, hr, ⟨-, -, hfree⟩, hcom⟩ := heapAlloc_room (canCommit O (dirsOf T)) hrep
    h1 hs hg ⟨H.ram, H.windows, room.pages⟩ (by
      rw [hrep.limit]
      exact (Nat.add_le_add_left (Nat.le_add_left _ _) _).trans hheap)
  have hk := kHeapAlloc_run hrun
  refine ⟨r, _, hk, hr, ?_, hfree, ?_⟩
  · refine (Nat.add_le_add_right hcom _).trans ?_
    rw [Nat.add_assoc, Nat.add_comm (g * pageSize)]
    exact hheap
  · -- no table is used up
    obtain ⟨F, hres⟩ := (kHeapAlloc_spec H size).of_run hk
    obtain ⟨-, H'⟩ := hres.resolve_left fun h => hr h.1
    exact room.tables.congr (H.poolUsed_eq H' F fun d => by simp)

/-- **`create_page_directory`** succeeds while the pool has a table. -/
theorem kCreatePageDirectory_room (H : Holds k O T) (room : Room a b (c + 1) k) :
    Runs (onRam createPageDirectory) k fun res k' => res ≠ none ∧ Room a b c k' := by
  refine runs_modifyGet ?_
  dsimp only
  rcases createPageDirectory_spec H.ram with ⟨-, h⟩ | ⟨d, r', h, -, -, -, hI, hF, hs, hnone⟩
  · -- the pool is not exhausted
    exfalso
    rcases allocPageTable_spec H.ram.tables with ⟨-, h1, h2⟩ | ⟨t, r₁, h4, -⟩
    · obtain ⟨s, hs, hfree⟩ := room.tables
      obtain ⟨x, hx⟩ := Finset.card_pos.mp (show 0 < s.card by omega)
      obtain ⟨hx1, hx2, hx3, hx4⟩ := hfree x hx
      exact hx4 ((H.pool_used x).mpr (H.ram.tables.pool.full h1 h2 hx1 hx2 hx3))
    · rw [h] at h4
      cases h4
  · rw [h]
    refine ⟨by simp, room.heap, ?_, ?_⟩
    · obtain ⟨s, hs', hfree⟩ := room.pages
      exact ⟨s, hs', fun m hm => by rw [← hfree m hm]; exact congrFun hs.used m⟩
    · refine room.tables.take d fun x hx => ?_
      have hpool := hI.tables.pool
      obtain ⟨l, hchain, hl⟩ := hpool.list
      rw [Ram.PoolUsed, hchain.listed_iff, hl] at hx
      obtain ⟨y, hy⟩ : ∃ y, NodeAt r' (fun x => dirsOf T x ∨ x = d) y x := by
        by_contra hno
        exact hx.2 ⟨hx.1, hno⟩
      rw [H.pool_used]
      cases y with
      | dir d' =>
        obtain ⟨hd, rfl⟩ := hy
        exact hd.imp_left fun hd => ⟨.dir x, hd, rfl⟩
      | table d' i =>
        obtain ⟨hd, ht⟩ := hy
        rcases hd with hd | rfl
        · exact Or.inl ⟨.table d' i, hd, (hF.tableOf_eq hd i).symm.trans ht⟩
        · rw [hnone] at ht
          cases ht
      | ktable i => exact Or.inl ⟨.ktable i, (ktableOf_congr hF.kernel i).symm.trans hy⟩

/-- A directory that has taken over nothing at an entry has a table there, or
nothing. -/
theorem Holds.pde_free {d i : ℕ} (H : Holds k O T) (hd : Item.dir d ∈ T) (hi : i < 1024)
    (hcopy : kernelCopy k.ram i = 0) (ht : tableOf k.ram d i = none) :
    present (k.ram.frame d i) = false := by
  rcases H.ram.tables.dir_pde d hd i hi with h | ⟨-, h⟩
  · rw [h, hcopy]
    decide
  · rw [ht] at h
    cases h

theorem kernelCopy_zero {r : Ram} {i : ℕ} (h : r.frame pageDirBase i = 0) : kernelCopy r i = 0 := by
  rw [kernelCopy, h]
  exact ite_self 0

/-- There is a table at entry `i` of the directory `d`, or one of `n` free
tables can be put there. -/
def Ram.TableReady (r : Ram) (d i n : ℕ) : Prop :=
  (tableOf r d i).isSome ∨ present (r.frame d i) = false ∧ r.FreeTables n

theorem Holds.tableReady {d i n : ℕ} (H : Holds k O T) (hd : Item.dir d ∈ T) (hi : i < 1024)
    (hcopy : kernelCopy k.ram i = 0) (htables : k.ram.FreeTables n) : k.ram.TableReady d i n := by
  by_cases hs : (tableOf k.ram d i).isSome
  · exact Or.inl hs
  · exact Or.inr ⟨H.pde_free hd hi hcopy (by simpa using hs), htables⟩

/-- An entry that has been taken over from the kernel's is present and no
table. -/
theorem Holds.not_tableReady {d i n : ℕ} (H : Holds k O T) (hd : Item.dir d ∈ T) (hi : i < 1024)
    (hcopy : kernelCopy k.ram i ≠ 0) : ¬k.ram.TableReady d i n := by
  have hpde := (H.ram.tables.dir_pde d hd i hi).resolve_right fun h => hcopy h.1
  have hc : i ≠ 0 ∧ present (k.ram.frame pageDirBase i) = true ∧
      ¬userBit (k.ram.frame pageDirBase i) = true := by
    by_contra hno
    exact hcopy (if_neg hno)
  rw [kernelCopy, if_pos hc] at hpde
  rintro (h | ⟨h, -⟩)
  · rw [tableOf, if_neg fun h => hc.2.2 (by rw [← hpde]; exact h.2.2.1)] at h
    cases h
  · rw [hpde, hc.2.1] at h
    cases h

/-- A new page can be mapped at `virt` of the directory `d`. -/
structure Ram.Mappable (r : Ram) (d virt : ℕ) : Prop where
  low : virt < userSpaceLimit
  aligned : virt % pageSize = 0
  page : r.FreePages 1
  table : r.TableReady d (virt / 2 ^ 22) 1

theorem allocMapPage_bad {d virt flags : ℕ} {f : ℕ → ℕ} {r : Ram}
    (hbad : userSpaceLimit ≤ virt ∨ virt % pageSize ≠ 0) :
    (allocMapPage d virt flags f r).1 = false := by
  have hmap : ∀ ebx r, mapUserPage d virt ebx flags r = (false, r) := fun ebx r => if_pos (by tauto)
  unfold allocMapPage
  split
  · rfl
  · unfold mapNewPage
    split
    · rw [hmap]
    · rfl

/-- A page that has been mapped uses up at most one table. -/
theorem PageMapped.nodeAt {C D : ℕ → Prop} {d i j flags : ℕ} {r r' : Ram}
    (hM : PageMapped C D c d i j flags r r') (hd : D d) (y : Node) (x : ℕ) :
    NodeAt r' D y x ↔ NodeAt r D y x ∨ y = .table d i ∧ tableOf r' d i = some x := by
  cases y with
  | dir d' => exact ⟨Or.inl, fun h => h.resolve_right fun h => nomatch h.1⟩
  | ktable i' =>
    have hk := ktableOf_congr hM.frame.kernel i'
    refine ⟨fun h => Or.inl (hk.symm.trans h), fun h => ?_⟩
    exact hk.trans (h.resolve_right fun h => nomatch h.1)
  | table d' i' =>
    by_cases hdd : d' = d
    · subst hdd
      by_cases hii : i' = i
      · subst hii
        refine ⟨fun h => Or.inr ⟨rfl, h.2⟩, ?_⟩
        rintro (h | ⟨-, h⟩)
        · exact ⟨hd, hM.keep x h.2⟩
        · exact ⟨hd, h⟩
      · have htab : tableOf r' d' i' = tableOf r d' i' := by rw [tableOf, tableOf, hM.pde i' hii]
        refine ⟨fun h => Or.inl ⟨hd, htab.symm.trans h.2⟩, ?_⟩
        rintro (h | ⟨h, -⟩)
        · exact ⟨hd, htab.trans h.2⟩
        · exact absurd (Node.table.inj h).2 hii
    · refine ⟨fun h => Or.inl ⟨h.1, (hM.frame.tableOf_eq ⟨h.1, hdd⟩ i').symm.trans h.2⟩, ?_⟩
      rintro (h | ⟨h, -⟩)
      · exact ⟨h.1, (hM.frame.tableOf_eq ⟨h.1, hdd⟩ i').trans h.2⟩
      · exact absurd (Node.table.inj h).1 hdd

/-- What a page that has been mapped has used up. -/
theorem Holds.mapped_used {d i j flags : ℕ} (H : Holds k O (T + {.dir d})) (H' : Holds k' O' (T + {.dir d}))
    {C : ℕ → Prop} (hM : PageMapped C (dirsOf (T + {.dir d})) c d i j flags k.ram k'.ram) (x : ℕ) :
    k'.ram.PoolUsed x ↔ k.ram.PoolUsed x ∨ tableOf k'.ram d i = some x := by
  have hin : dirsOf (T + {.dir d}) d := mem_add_singleton.mpr (Or.inr rfl)
  rw [H'.pool_used, H.pool_used]
  constructor
  · rintro ⟨y, hy⟩
    rcases (hM.nodeAt hin y x).mp hy with h | ⟨-, h⟩
    · exact Or.inl ⟨y, h⟩
    · exact Or.inr h
  · rintro (⟨y, hy⟩ | h)
    · exact ⟨y, (hM.nodeAt hin y x).mpr (Or.inl hy)⟩
    · exact ⟨_, (hM.nodeAt hin _ x).mpr (Or.inr ⟨rfl, h⟩)⟩

/-- A table that was not there before comes from the free part of the pool. -/
theorem Holds.new_table {d i j t flags : ℕ} (H : Holds k O (T + {.dir d})) (H' : Holds k' O' (T + {.dir d}))
    {C : ℕ → Prop} (hM : PageMapped C (dirsOf (T + {.dir d})) c d i j flags k.ram k'.ram)
    (hnone : tableOf k.ram d i = none) (ht : tableOf k'.ram d i = some t) :
    (pageTablePoolBase ≤ t ∧ t < pageTablePoolEnd ∧ t % pageSize = 0) ∧ ¬k.ram.PoolUsed t := by
  have hin : dirsOf (T + {.dir d}) d := mem_add_singleton.mpr (Or.inr rfl)
  have hnode : NodeAt k'.ram (dirsOf (T + {.dir d})) (.table d i) t := ⟨hin, ht⟩
  refine ⟨H'.ram.tables.node_bounds hnode, fun hu => ?_⟩
  obtain ⟨y, hy⟩ := (H.pool_used t).mp hu
  obtain rfl := H'.ram.tables.node_inj ((hM.nodeAt hin y t).mpr (Or.inl hy)) hnode
  have h := hy.2
  rw [hnone] at h
  cases h

/-- Where a page has been mapped, one could be mapped. -/
theorem Holds.mappable {d virt flags : ℕ} (H : Holds k O (T + {.dir d})) (H' : Holds k' O' (T + {.dir d}))
    {C : ℕ → Prop} (hM : PageMapped C (dirsOf (T + {.dir d})) c d (virt / 2 ^ 22)
      (virt / 2 ^ 12 % 2 ^ 10) flags k.ram k'.ram) (hv : virt < userSpaceLimit)
    (hva : virt % pageSize = 0) : k.ram.Mappable d virt := by
  have hin : dirsOf (T + {.dir d}) d := mem_add_singleton.mpr (Or.inr rfl)
  obtain ⟨n, hn, -⟩ := hM.used
  obtain ⟨t, ht⟩ := Option.isSome_iff_exists.mp hM.table
  refine ⟨hv, hva, ⟨{n}, by simp, fun m hm => by rw [Finset.mem_singleton.mp hm, hn]⟩, ?_⟩
  by_cases hs : (tableOf k.ram d (virt / 2 ^ 22)).isSome
  · exact Or.inl hs
  have hi : virt / 2 ^ 22 < 1024 := by
    simp only [userSpaceLimit] at hv
    omega
  refine Or.inr ⟨?_, {t}, by simp, fun x hx => ?_⟩
  · -- an entry of the kernel's would still be there
    have hcopy := kernelCopy_congr hM.frame.kernel (virt / 2 ^ 22)
    have hpde := (H.ram.tables.dir_pde d hin _ hi).resolve_right fun h => hs h.2
    rcases H'.ram.tables.dir_pde d hin _ hi with h | ⟨h, -⟩
    · have hsame := h.trans (hcopy.trans hpde.symm)
      refine absurd ?_ hs
      rw [show tableOf k.ram d (virt / 2 ^ 22) = tableOf k'.ram d (virt / 2 ^ 22) by
        rw [tableOf, tableOf, hsame]]
      exact hM.table
    · rw [hpde, ← hcopy, h]
      decide
  · obtain rfl := Finset.mem_singleton.mp hx
    obtain ⟨⟨h1, h2, h3⟩, hfree⟩ := H.new_table H' hM (by simpa using hs) ht
    exact ⟨h1, h2, h3, hfree⟩

/-- **When a new page can be mapped.** -/
theorem kAllocMapPage_exact {d virt flags : ℕ} (H : Holds k O (T + {.dir d}))
    (hfl : flags.testBit 9 = true) (f : ℕ → ℕ) :
    Runs (onRam (allocMapPage d virt flags f)) k fun r _ => r = true ↔ k.ram.Mappable d virt := by
  obtain ⟨r, k', hrun, F, -, hres⟩ := kAllocMapPage_spec H virt hfl f
  refine ⟨r, k', hrun, ?_⟩
  rcases hres with ⟨rfl, -, -, hwhy, -⟩ | ⟨rfl, H', hM⟩
  · refine ⟨fun h => absurd h Bool.false_ne_true, fun hm => ?_⟩
    -- none of the reasons for a failure applies
    exfalso
    cases hwhy with
    | badAddress h =>
      have h1 := hm.low
      have h2 := hm.aligned
      omega
    | noPage h => exact not_all_used H.ram hm.page h
    | supervisor hp ht =>
      rcases hm.table with h | ⟨h, -⟩
      · rw [ht] at h
        cases h
      · rw [hp] at h
        cases h
    | noTable hp h =>
      rcases hm.table with h' | ⟨-, s, hs, hfree⟩
      · rw [tableOf, if_neg fun h => by rw [hp] at h; exact Bool.false_ne_true h.2.1] at h'
        cases h'
      · obtain ⟨x, hx⟩ := Finset.card_pos.mp (show 0 < s.card by omega)
        obtain ⟨hx1, hx2, hx3, hx4⟩ := hfree x hx
        exact hx4 ((H.pool_used x).mpr (h x hx1 hx2 hx3))
  · have hb : (allocMapPage d virt flags f k.ram).1 = true := congrArg Prod.fst (Option.some.inj hrun)
    have hgood : ¬(userSpaceLimit ≤ virt ∨ virt % pageSize ≠ 0) := fun hbad => by
      rw [allocMapPage_bad hbad] at hb
      cases hb
    simp only [not_or, not_not, Nat.not_le] at hgood
    exact ⟨fun _ => H.mappable H' hM hgood.1 hgood.2, fun _ => rfl⟩

/-- **Mapping a new page** succeeds where the directory has taken over nothing
from the kernel's. -/
theorem kAllocMapPage_room {d virt flags : ℕ} (H : Holds k O (T + {.dir d}))
    (hv : virt < userSpaceLimit) (hva : virt % pageSize = 0) (hfl : flags.testBit 9 = true)
    (f : ℕ → ℕ) (hcopy : kernelCopy k.ram (virt / 2 ^ 22) = 0)
    (room : Room a (b + 1) (c + 1) k) :
    Runs (onRam (allocMapPage d virt flags f)) k fun r k' => r = true ∧ Room a b c k' := by
  refine ((kAllocMapPage_spec H virt hfl f).and (kAllocMapPage_exact H hfl f)).mono ?_
  rintro r k' ⟨⟨F, hR, hres⟩, hexact⟩
  have hi : virt / 2 ^ 22 < 1024 := by
    simp only [userSpaceLimit] at hv
    omega
  have hr : r = true := hexact.mpr ⟨hv, hva, room.pages.mono (by omega),
    H.tableReady (by simp) hi hcopy (room.tables.mono (by omega))⟩
  subst hr
  rcases hres with ⟨h, -⟩ | ⟨-, H', hM⟩
  · cases h
  refine ⟨rfl, by rw [hR]; exact room.heap, ?_, ?_⟩
  · obtain ⟨n, -, hu, -⟩ := hM.used
    refine room.pages.take n fun m hm => ?_
    rw [hu] at hm
    by_cases hmn : m = n
    · exact Or.inr hmn
    · rw [Function.update_of_ne hmn] at hm
      exact Or.inl hm
  · obtain ⟨t, ht⟩ := Option.isSome_iff_exists.mp hM.table
    refine room.tables.take t fun x hx => ?_
    refine ((H.mapped_used H' hM x).mp hx).imp_right fun h => ?_
    exact Option.some.inj (h.symm.trans ht)

/-- A descriptor can be had while fewer items are held than there are
descriptors. -/
theorem gdtCreateDescriptor_room (H : Holds k O T) (desc : ℕ × ℕ)
    (hT : T.card < gdtEntryCount - gdtFirstDynamic) (room : Room a b c k) :
    Runs (gdtCreateDescriptor desc) k fun sel k' => sel ≠ none ∧ Room a b c k' := by
  have halloc : Runs gdtAllocSelector k fun sel k' => sel ≠ none ∧ Room a b c k' := by
    refine runs_modifyGet ?_
    cases hfind : (List.range' gdtFirstDynamic (gdtEntryCount - gdtFirstDynamic)).find?
        fun i => !k.gdtBitmap i with
    | none =>
      -- then every dynamic descriptor would be held
      exfalso
      have hall : ((Finset.Ico gdtFirstDynamic gdtEntryCount).image Item.gdt) ⊆ T.toFinset := by
        intro x hx
        obtain ⟨i, hi, rfl⟩ := Finset.mem_image.mp hx
        obtain ⟨h1, h2⟩ := Finset.mem_Ico.mp hi
        have hbit := List.find?_eq_none.mp hfind i (List.mem_range'_1.mpr ⟨h1, by omega⟩)
        have hin := (H.gdt.bit i h2).mp (by simpa using hbit)
        exact Multiset.mem_toFinset.mpr (hin.resolve_left (by omega))
      have hcard := Finset.card_le_card hall
      rw [Finset.card_image_of_injective _ fun i j h => Item.gdt.inj h, Nat.card_Ico] at hcard
      exact absurd (hcard.trans (Multiset.toFinset_card_le T)) (by omega)
    | some i => exact ⟨by simp, room.congr rfl rfl⟩
  refine runs_bind halloc ?_
  rintro sel k' ⟨hsel, room'⟩
  cases sel with
  | none => exact absurd rfl hsel
  | some s => exact runs_modify_bind (runs_pure ⟨by simp, room'.congr rfl rfl⟩)

end Kernel

end VirtualKernel
