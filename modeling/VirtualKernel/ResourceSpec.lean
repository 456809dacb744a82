/-
The allocators of the kernel, as moves of items.

One lemma for each routine that hands out or takes back a resource: from
`Holds k O T` an allocation goes to `Holds k' O T` or to one item more, and a
release takes that item away again.  The items of `T` are framed.
-/
import VirtualKernel.Resources

namespace VirtualKernel

open Lib

section Items

variable {T : Items} {x : Item}

theorem mem_add_singleton {y : Item} : y ∈ T + {x} ↔ y ∈ T ∨ y = x := by
  rw [Multiset.mem_add, Multiset.mem_singleton]

theorem mem_add_singleton_of_ne {y : Item} (h : y ≠ x) : y ∈ T + {x} ↔ y ∈ T := by
  rw [mem_add_singleton, or_iff_left h]

theorem nodup_add_singleton : (T + {x}).Nodup ↔ T.Nodup ∧ x ∉ T := by
  rw [Multiset.nodup_add, Multiset.disjoint_singleton]
  exact ⟨fun h => ⟨h.1, h.2.2⟩, fun h => ⟨h.1, Multiset.nodup_singleton _, h.2⟩⟩

end Items

section Spec

variable {k k' : Kernel} {O : ℕ → Prop} {T : Items}

/-! ### The kernel heap -/

theorem Holds.block_range (H : Holds k O T) {p : ℕ} (hp : Item.block p ∈ T) :
    kheapBase + heapHdrSize ≤ p ∧ p ≤ kheapBase + kheapMaxSize := by
  obtain ⟨bs, hrep, hb⟩ := H.heap
  obtain ⟨b, hbs, -, rfl⟩ := (hb p).mp hp
  have h1 := hrep.tiled.mem_bounds b hbs
  have h2 := hrep.le_limit
  have h3 := hrep.limit
  omega

theorem Holds.block_ne_zero (H : Holds k O T) {p : ℕ} (hp : Item.block p ∈ T) : p ≠ 0 := by
  have h := (H.block_range hp).1
  simp only [kheapBase] at h
  omega

theorem exists_used_iff (l : List Block) (q : ℕ) :
    (∃ b ∈ l, b.used = true ∧ b.addr + heapHdrSize = q) ↔
      ∃ b ∈ l.filter Block.used, b.addr + heapHdrSize = q := by
  simp only [List.mem_filter, and_assoc]

theorem Holds.block_lt (H : Holds k O T) {p : ℕ} (hp : Item.block p ∈ T) : p < 2 ^ 32 := by
  have h := (H.block_range hp).2
  simp only [kheapBase, kheapMaxSize] at h
  omega

/-- The account after the items of the heap have changed. -/
theorem Holds.of_heap (H : Holds k O T) {h : Heap} {r : Ram} {T' : Items} (hnd : T'.Nodup)
    (hh : HeapHolds h T') (hr : RamInv r O (dirsOf T) none h.committed) (hw : Windows r)
    (hT : ∀ x, (∀ p, x ≠ .block p) → (x ∈ T' ↔ x ∈ T)) :
    Holds { k with heap := h, ram := r } O T' where
  nodup := hnd
  heap := hh
  ram := by
    have hd : dirsOf T' = dirsOf T := funext fun d => propext (hT _ (by simp))
    rw [hd]
    exact hr
  windows := hw
  gdt := H.gdt.congr fun i => hT _ (by simp)
  slot := H.slot.congr fun i => hT _ (by simp)
  entry := H.entry.congr fun i p => hT _ (by simp)
  task := H.task.congr fun v => hT _ (by simp)
  sched := H.sched

/-- **`heap_alloc`**: nothing, or one block more. -/
theorem kHeapAlloc_spec (H : Holds k O T) (size : ℕ) :
    Runs (kHeapAlloc size) k fun p k' => Frame T k k' ∧
      (p = 0 ∧ Holds k' O T ∨ p ≠ 0 ∧ Holds k' O (T + {.block p})) := by
  obtain ⟨bs, hrep, hb⟩ := H.heap
  obtain ⟨p, h', r', bs', hrun, hg, hres⟩ := heapAlloc_spec (heapCommit_inv O (dirsOf T) k.ram) size
    hrep (w := k.ram) ⟨H.ram, .refl _ _, H.windows⟩
  obtain ⟨hram, hframe, hwin⟩ := hg.inv
  refine ⟨p, { k with heap := h', ram := r' }, kHeapAlloc_run hrun, ?_, ?_⟩
  · exact ⟨hframe, fun _ _ => rfl, fun _ _ => rfl, fun _ _ _ => rfl, rfl, rfl, rfl, rfl, rfl⟩
  rcases hres with ⟨rfl, hsame⟩ | ⟨-, pre, post, b, hpre, hpost, rfl, -⟩
  · refine Or.inl ⟨rfl, H.of_heap H.nodup ⟨bs', hg.rep, fun q => ?_⟩ hram hwin fun _ _ => Iff.rfl⟩
    rw [hb q, exists_used_iff, exists_used_iff, hsame]
  · have hnew : Item.block (b.addr + heapHdrSize) ∉ T := by
      rw [hb, exists_used_iff, hpre]
      rintro ⟨d, hd, he⟩
      have hnd := hg.rep.used_nodup
      rw [hpost, (List.perm_middle.map Block.addr).nodup_iff, List.map_cons, List.nodup_cons] at hnd
      exact hnd.1 (List.mem_map.mpr ⟨d, hd, by omega⟩)
    refine Or.inr ⟨by simp [heapHdrSize], H.of_heap (nodup_add_singleton.mpr ⟨H.nodup, hnew⟩)
      ⟨bs', hg.rep, fun q => ?_⟩ hram hwin fun x hx => mem_add_singleton_of_ne (hx _)⟩
    rw [mem_add_singleton, hb q, exists_used_iff, exists_used_iff, hpre, hpost]
    simp only [List.mem_append, List.mem_cons, Item.block.injEq]
    constructor
    · rintro (⟨d, hd, he⟩ | rfl)
      · exact ⟨d, by tauto, he⟩
      · exact ⟨b, by tauto, rfl⟩
    · rintro ⟨d, hd | rfl | hd, he⟩
      · exact Or.inl ⟨d, Or.inl hd, he⟩
      · exact Or.inr he.symm
      · exact Or.inl ⟨d, Or.inr hd, he⟩

/-- **`heap_free`** of a block that is held. -/
theorem kHeapFree_spec {p : ℕ} (H : Holds k O (T + {.block p})) :
    Runs (kHeapFree p) k fun _ k' => Frame T k k' ∧ Holds k' O T := by
  obtain ⟨hnd, hp⟩ := nodup_add_singleton.mp H.nodup
  obtain ⟨bs, hrep, hb⟩ := H.heap
  obtain ⟨b, hbs, hu, rfl⟩ := (hb p).mp (mem_add_singleton.mpr (Or.inr rfl))
  obtain ⟨h', bs', hrun, hrep', ⟨pre, post, b', hpre, hpost, he⟩, hc, -⟩ := heapFree_spec hrep hbs hu
  refine ⟨(), { k with heap := h' }, kHeapFree_run hrun, ?_, ?_⟩
  · exact ⟨.refl _ _, fun _ _ => rfl, fun _ _ => rfl, fun _ _ _ => rfl, rfl, rfl, rfl, rfl, rfl⟩
  have hram := H.ram
  rw [← hc] at hram
  refine H.of_heap (r := k.ram) hnd ⟨bs', hrep', fun q => ?_⟩ hram H.windows
    fun x hx => (mem_add_singleton_of_ne (hx _)).symm
  have hnd' := hrep.used_nodup
  rw [hpre, (List.perm_middle.map Block.addr).nodup_iff, List.map_cons, List.nodup_cons] at hnd'
  have hq := hb q
  rw [mem_add_singleton, exists_used_iff, hpre] at hq
  rw [exists_used_iff, hpost]
  simp only [List.mem_append, List.mem_cons, Item.block.injEq] at hq ⊢
  constructor
  · intro hqT
    obtain ⟨d, hd | rfl | hd, hdq⟩ := hq.mp (Or.inl hqT)
    · exact ⟨d, Or.inl hd, hdq⟩
    · exact absurd hqT (by rw [← hdq, he]; exact hp)
    · exact ⟨d, Or.inr hd, hdq⟩
  · rintro ⟨d, hd, hdq⟩
    refine (hq.mpr ⟨d, by tauto, hdq⟩).resolve_right fun h => ?_
    exact hnd'.1 (List.mem_map.mpr ⟨d, List.mem_append.mpr hd, by omega⟩)

/-! ### Descriptors -/

/-- The account after the items of the descriptor table have changed. -/
theorem Holds.of_gdt (H : Holds k O T) {bitmap : ℕ → Bool} {gdt : ℕ → ℕ × ℕ} {T' : Items}
    (hnd : T'.Nodup) (hg : GdtHolds bitmap gdt T')
    (hT : ∀ x, (∀ i, x ≠ .gdt i) → (x ∈ T' ↔ x ∈ T)) :
    Holds { k with gdtBitmap := bitmap, gdt := gdt } O T' where
  nodup := hnd
  heap := H.heap.congr fun p => hT _ (by simp)
  ram := by
    have hd : dirsOf T' = dirsOf T := funext fun d => propext (hT _ (by simp))
    rw [hd]
    exact H.ram
  windows := H.windows
  gdt := hg
  slot := H.slot.congr fun i => hT _ (by simp)
  entry := H.entry.congr fun i p => hT _ (by simp)
  task := H.task.congr fun v => hT _ (by simp)
  sched := H.sched

/-- **`gdt_alloc_selector` and the write of a descriptor**: nothing, or one
dynamic entry more, which holds the descriptor. -/
theorem gdtCreateDescriptor_spec (H : Holds k O T) (desc : ℕ × ℕ) :
    Runs (gdtCreateDescriptor desc) k fun sel k' =>
      sel = none ∧ k' = k ∨ ∃ i, sel = some (i * 8) ∧ gdtFirstDynamic ≤ i ∧ i < gdtEntryCount ∧
        Holds k' O (T + {.gdt i}) ∧ Frame T k k' ∧ k'.mem = k.mem ∧ k'.gdt i = desc := by
  set P : Option ℕ → Kernel → Prop := fun sel k' =>
    sel = none ∧ k' = k ∨ ∃ i, sel = some (i * 8) ∧ gdtFirstDynamic ≤ i ∧ i < gdtEntryCount ∧
      k.gdtBitmap i = false ∧
      k' = { k with gdtBitmap := Function.update k.gdtBitmap i true } with hP
  have halloc : Runs gdtAllocSelector k P := by
    refine runs_modifyGet ?_
    cases hfind : (List.range' gdtFirstDynamic (gdtEntryCount - gdtFirstDynamic)).find?
        fun i => !k.gdtBitmap i with
    | none => exact Or.inl ⟨rfl, rfl⟩
    | some i =>
      have hmem := List.mem_of_find?_eq_some hfind
      have hfree : k.gdtBitmap i = false := by simpa using List.find?_some hfind
      rw [List.mem_range'_1] at hmem
      refine Or.inr ⟨i, rfl, hmem.1, ?_, hfree, rfl⟩
      have := hmem.2
      simp only [gdtFirstDynamic, gdtEntryCount] at this ⊢
      omega
  refine runs_bind halloc ?_
  rintro sel k₁ (⟨rfl, rfl⟩ | ⟨i, rfl, h1, h2, hfree, rfl⟩)
  · exact runs_pure (Or.inl ⟨rfl, rfl⟩)
  · refine runs_modify_bind (runs_pure (Or.inr ?_))
    have hi : i * 8 % 2 ^ 16 / 8 = i := by
      simp only [gdtEntryCount] at h2
      omega
    rw [hi]
    have hnew : Item.gdt i ∉ T := by
      intro h
      have := (H.gdt.bit i h2).mpr (Or.inr h)
      rw [hfree] at this
      cases this
    refine ⟨i, rfl, h1, h2, ?_, ?_, rfl, Function.update_self _ _ _⟩
    · refine H.of_gdt (nodup_add_singleton.mpr ⟨H.nodup, hnew⟩) ?_
        fun x hx => mem_add_singleton_of_ne (hx i)
      refine ⟨fun j hj => ?_, fun j hj => ?_, fun j hj hjn => ?_⟩
      · rcases mem_add_singleton.mp hj with h | h
        · exact H.gdt.range j h
        · obtain rfl := Item.gdt.inj h
          exact ⟨h1, h2⟩
      · rw [mem_add_singleton, Item.gdt.injEq]
        by_cases hji : j = i
        · simp [hji]
        · simp only [Function.update_of_ne hji, H.gdt.bit j hj, hji, or_false]
      · rw [mem_add_singleton, Item.gdt.injEq, not_or] at hjn
        exact (Function.update_of_ne hjn.2 _ _).trans (H.gdt.free j hj hjn.1)
    · refine ⟨.refl _ _, fun _ _ => rfl, fun j hj => ?_, fun _ _ _ => rfl, rfl, rfl, rfl, rfl, rfl⟩
      refine Function.update_of_ne ?_ _ _
      rintro rfl
      rcases hj with hj | hj
      · omega
      · exact hnew hj

/-- **`gdt_free_selector`** of an entry that is held. -/
theorem gdtFreeSelector_spec {i : ℕ} (H : Holds k O (T + {.gdt i})) :
    Runs (gdtFreeSelector (i * 8)) k fun _ k' => Frame T k k' ∧ Holds k' O T ∧ k'.mem = k.mem := by
  obtain ⟨hnd, hi⟩ := nodup_add_singleton.mp H.nodup
  obtain ⟨h1, h2⟩ := H.gdt.range i (mem_add_singleton.mpr (Or.inr rfl))
  refine runs_modify ?_
  have hbit : (i * 8).testBit 2 = false := by
    rw [show (8 : ℕ) = 2 ^ 3 from rfl, Nat.testBit_mul_two_pow]
    simp
  have hguard : ¬((i * 8).testBit 2 = true ∨ i * 8 / 8 < gdtFirstDynamic ∨
      gdtEntryCount ≤ i * 8 / 8) := by
    rw [hbit, Nat.mul_div_cancel i (by decide)]
    simp only [Bool.false_eq_true, false_or]
    omega
  dsimp only
  rw [if_neg hguard, Nat.mul_div_cancel i (by decide)]
  refine ⟨⟨.refl _ _, fun _ _ => rfl, fun j hj => ?_, fun _ _ _ => rfl, rfl, rfl, rfl, rfl, rfl⟩,
    ?_, rfl⟩
  · refine Function.update_of_ne ?_ _ _
    rintro rfl
    rcases hj with hj | hj
    · omega
    · exact hi hj
  · refine H.of_gdt hnd ?_ fun x hx => (mem_add_singleton_of_ne (hx i)).symm
    refine ⟨fun j hj => H.gdt.range j (mem_add_singleton.mpr (Or.inl hj)), fun j hj => ?_,
      fun j hj hjn => ?_⟩
    · by_cases hji : j = i
      · subst hji
        rw [Function.update_self]
        simp only [Bool.false_eq_true, hi, or_false, false_iff]
        omega
      · rw [Function.update_of_ne hji, H.gdt.bit j hj,
          mem_add_singleton_of_ne fun h => hji (Item.gdt.inj h)]
    · by_cases hji : j = i
      · rw [hji]
        exact Function.update_self _ _ _
      · rw [Function.update_of_ne hji]
        exact H.gdt.free j hj (by rw [mem_add_singleton_of_ne fun h => hji (Item.gdt.inj h)]; exact hjn)

/-! ### Slots -/

/-- The account after the items of the slot bitmap have changed. -/
theorem Holds.of_slot (H : Holds k O T) {bitmap : ℕ → Bool} {T' : Items} (hnd : T'.Nodup)
    (hs : SlotHolds bitmap T') (hT : ∀ x, (∀ i, x ≠ .slot i) → (x ∈ T' ↔ x ∈ T)) :
    Holds { k with slotBitmap := bitmap } O T' where
  nodup := hnd
  heap := H.heap.congr fun p => hT _ (by simp)
  ram := by
    have hd : dirsOf T' = dirsOf T := funext fun d => propext (hT _ (by simp))
    rw [hd]
    exact H.ram
  windows := H.windows
  gdt := H.gdt.congr fun i => hT _ (by simp)
  slot := hs
  entry := H.entry.congr fun i p => hT _ (by simp)
  task := H.task.congr fun v => hT _ (by simp)
  sched := H.sched

theorem Frame.slotBitmap (T : Items) (k : Kernel) (bitmap : ℕ → Bool) :
    Frame T k { k with slotBitmap := bitmap } :=
  ⟨.refl _ _, fun _ _ => rfl, fun _ _ => rfl, fun _ _ _ => rfl, rfl, rfl, rfl, rfl, rfl⟩

/-- The slot that `process_slot_alloc` takes. -/
def firstFreeSlot (k : Kernel) : Option ℕ :=
  (List.range processMaxCount).find? fun i => !k.slotBitmap i

/-- **`process_slot_alloc`**: nothing, or the first free slot. -/
theorem processSlotAlloc_spec (H : Holds k O T) :
    Runs processSlotAlloc k fun res k' =>
      res = none ∧ k' = k ∨ ∃ i, firstFreeSlot k = some i ∧ i < processMaxCount ∧
        res = some (i, processSlotSize * i + processAreaBase) ∧
        Holds k' O (T + {.slot i}) ∧ Frame T k k' ∧ k'.mem = k.mem := by
  refine runs_modifyGet ?_
  cases hfind : (List.range processMaxCount).find? fun i => !k.slotBitmap i with
  | none => exact Or.inl ⟨rfl, rfl⟩
  | some i =>
    obtain ⟨hfree, hmem, -⟩ := List.find?_range_eq_some.mp hfind
    have hfree : k.slotBitmap i = false := by simpa using hfree
    have hi : i < processMaxCount := List.mem_range.mp hmem
    have hnew : Item.slot i ∉ T := by
      intro h
      have := (H.slot.bit i hi).mpr h
      rw [hfree] at this
      cases this
    refine Or.inr ⟨i, hfind, hi, ?_, ?_, Frame.slotBitmap T k _, rfl⟩
    · dsimp only
      rw [add32_of_lt]
      simp only [processMaxCount] at hi
      simp only [processSlotSize, processAreaBase]
      omega
    · refine H.of_slot (nodup_add_singleton.mpr ⟨H.nodup, hnew⟩) ⟨fun j hj => ?_, fun j hj => ?_⟩
        fun x hx => mem_add_singleton_of_ne (hx i)
      · rcases mem_add_singleton.mp hj with h | h
        · exact H.slot.range j h
        · exact Item.slot.inj h ▸ hi
      · rw [mem_add_singleton, Item.slot.injEq]
        by_cases hji : j = i
        · simp [hji]
        · rw [Function.update_of_ne hji, H.slot.bit j hj]
          simp [hji]

/-- **`process_slot_free`** of a slot that is held. -/
theorem processSlotFree_spec {i : ℕ} (H : Holds k O (T + {.slot i})) :
    Runs (processSlotFree i) k fun _ k' => Frame T k k' ∧ Holds k' O T ∧ k'.mem = k.mem := by
  obtain ⟨hnd, hi⟩ := nodup_add_singleton.mp H.nodup
  have hlt := H.slot.range i (mem_add_singleton.mpr (Or.inr rfl))
  refine runs_modify ?_
  rw [if_neg (by omega)]
  refine ⟨Frame.slotBitmap T k _, ?_, rfl⟩
  refine H.of_slot hnd ⟨fun j hj => H.slot.range j (mem_add_singleton.mpr (Or.inl hj)),
    fun j hj => ?_⟩ fun x hx => (mem_add_singleton_of_ne (hx i)).symm
  by_cases hji : j = i
  · subst hji
    rw [Function.update_self]
    simp [hi]
  · rw [Function.update_of_ne hji, H.slot.bit j hj,
      mem_add_singleton_of_ne fun h => hji (Item.slot.inj h)]

/-! ### The process table -/

/-- The account after the items of the process table have changed. -/
theorem Holds.of_entry (H : Holds k O T) {table : ℕ → ℕ} {count : ℕ} {T' : Items} (hnd : T'.Nodup)
    (he : EntryHolds table count T') (hT : ∀ x, (∀ i p, x ≠ .entry i p) → (x ∈ T' ↔ x ∈ T)) :
    Holds { k with processTable := table, processActiveCount := count } O T' where
  nodup := hnd
  heap := H.heap.congr fun p => hT _ (by simp)
  ram := by
    have hd : dirsOf T' = dirsOf T := funext fun d => propext (hT _ (by simp))
    rw [hd]
    exact H.ram
  windows := H.windows
  gdt := H.gdt.congr fun i => hT _ (by simp)
  slot := H.slot.congr fun i => hT _ (by simp)
  entry := he
  task := H.task.congr fun v => hT _ (by simp)
  sched := H.sched

theorem Frame.processTable (T : Items) (k : Kernel) (table : ℕ → ℕ) (count : ℕ) :
    Frame T k { k with processTable := table, processActiveCount := count } :=
  ⟨.refl _ _, fun _ _ => rfl, fun _ _ => rfl, fun _ _ _ => rfl, rfl, rfl, rfl, rfl, rfl⟩

/-- Writing one entry of a table changes the number of its nonzero entries. -/
theorem count_update {n : ℕ} {t : ℕ → ℕ} {i v : ℕ} (hi : i < n) (hz : t i = 0) (hv : v ≠ 0) :
    ((List.range n).filter fun j => Function.update t i v j ≠ 0).length =
      ((List.range n).filter fun j => t j ≠ 0).length + 1 := by
  have hperm : ((List.range n).filter fun j => Function.update t i v j ≠ 0).Perm
      (i :: (List.range n).filter fun j => t j ≠ 0) := by
    refine (List.perm_ext_iff_of_nodup (List.nodup_range.filter _) ?_).mpr fun j => ?_
    · exact List.nodup_cons.mpr ⟨by simp [hz], List.nodup_range.filter _⟩
    · by_cases hji : j = i
      · simp [hji, hi, hv]
      · simp [hji]
  rw [hperm.length_eq, List.length_cons]

theorem count_le (n : ℕ) (t : ℕ → ℕ) :
    ((List.range n).filter fun j => t j ≠ 0).length ≤ n :=
  (List.length_filter_le _ _).trans (by simp)

/-- **`process_register`** of an object without entry: 0, or one entry more. -/
theorem processRegister_spec {p : ℕ} (H : Holds k O (T + {.block p}))
    (hidx : k.mem p procTableIndex = noIndex) :
    Runs (processRegister p) k fun eax k' =>
      eax = 0 ∧ k' = k ∨ eax = 1 ∧ ∃ i < processMaxCount,
        Holds k' O (T + {.block p} + {.entry i p}) ∧ Frame T k k' ∧
        k'.mem = Function.update k.mem p (Function.update (k.mem p) procTableIndex i) ∧
        k'.gdt = k.gdt ∧ k'.ram = k.ram := by
  have hp := H.block_ne_zero (mem_add_singleton.mpr (Or.inr rfl))
  have hblock := (nodup_add_singleton.mp H.nodup).2
  refine runs_modifyGet ?_
  rw [if_neg (by simp [hp, hidx])]
  cases hfind : (List.range processMaxCount).find? fun i => decide (k.processTable i = 0) with
  | none => exact Or.inl ⟨rfl, rfl⟩
  | some i =>
    obtain ⟨hz, hmem, -⟩ := List.find?_range_eq_some.mp hfind
    have hz : k.processTable i = 0 := by simpa using hz
    have hi : i < processMaxCount := List.mem_range.mp hmem
    have hnew : ∀ q, q ≠ 0 → Item.entry i q ∉ T + {.block p} := by
      intro q hq h
      rw [(H.entry.entry i hi q hq).mpr h] at hz
      exact hq hz
    refine Or.inr ⟨rfl, i, hi, ?_, ?_, rfl, rfl, rfl⟩
    · refine Holds.setMem (k := { k with processTable := _, processActiveCount := _ })
        (H.of_entry (nodup_add_singleton.mpr ⟨H.nodup, hnew p hp⟩) ⟨fun j q hj => ?_,
        fun j hj q hq => ?_, ?_⟩ fun x hx => mem_add_singleton_of_ne (hx i p)) _ _
      · rcases mem_add_singleton.mp hj with h | h
        · exact H.entry.range j q h
        · obtain ⟨rfl, rfl⟩ := Item.entry.inj h
          exact ⟨hi, hp⟩
      · rw [mem_add_singleton, Item.entry.injEq]
        by_cases hji : j = i
        · subst hji
          rw [Function.update_self]
          simp [hnew q hq, eq_comm]
        · rw [Function.update_of_ne hji, H.entry.entry j hj q hq]
          simp [hji]
      · rw [count_update hi hz hp, ← H.entry.count, add32_of_lt]
        have := count_le processMaxCount k.processTable
        rw [← H.entry.count] at this
        simp only [processMaxCount] at this
        omega
    · exact (Frame.processTable T k _ _).trans (Frame.setMem hblock _)

/-- **`process_unregister`** of an object with an entry. -/
theorem processUnregister_spec {i p : ℕ} (H : Holds k O (T + {.block p} + {.entry i p}))
    (hidx : k.mem p procTableIndex = i) :
    Runs (processUnregister p) k fun _ k' => Frame T k k' ∧ Holds k' O (T + {.block p}) ∧
      k'.mem = Function.update k.mem p (Function.update (k.mem p) procTableIndex noIndex) := by
  obtain ⟨hnd, hnot⟩ := nodup_add_singleton.mp H.nodup
  have hblock := (nodup_add_singleton.mp hnd).2
  have hin : Item.entry i p ∈ T + {.block p} + {.entry i p} := mem_add_singleton.mpr (Or.inr rfl)
  obtain ⟨hi, hp⟩ := H.entry.range i p hin
  have htab := (H.entry.entry i hi p hp).mpr hin
  refine runs_modify ?_
  dsimp only
  have hguard : ¬(p = 0 ∨ processMaxCount ≤ i ∨ k.processTable i ≠ p) := by
    rw [htab]
    simp only [hp, ne_eq, not_true_eq_false, or_false, false_or]
    omega
  rw [hidx, if_neg hguard]
  refine ⟨?_, ?_, rfl⟩
  · exact (Frame.processTable T k _ _).trans (Frame.setMem hblock _)
  · refine Holds.setMem (k := { k with processTable := _, processActiveCount := _ })
      (H.of_entry hnd ⟨fun j q hj => H.entry.range j q (mem_add_singleton.mpr (Or.inl hj)),
      fun j hj q hq => ?_, ?_⟩ fun x hx => (mem_add_singleton_of_ne (hx i p)).symm) _ _
    · by_cases hji : j = i
      · subst hji
        rw [Function.update_self]
        refine ⟨fun h => absurd h.symm hq, fun h => ?_⟩
        have := (H.entry.entry j hj q hq).mpr (mem_add_singleton.mpr (Or.inl h))
        rw [htab] at this
        exact absurd (this ▸ h) hnot
      · rw [Function.update_of_ne hji, H.entry.entry j hj q hq,
          mem_add_singleton_of_ne fun h => hji (Item.entry.inj h).1]
    · have h1 := count_update (t := Function.update k.processTable i 0) (v := p) hi
        (Function.update_self _ _ _) hp
      rw [Function.update_idem, ← htab, Function.update_eq_self, ← H.entry.count] at h1
      omega

/-- An object without entry is left alone. -/
theorem processUnregister_none {p : ℕ} (hidx : k.mem p procTableIndex = noIndex) :
    Runs (processUnregister p) k fun _ k' => k' = k := by
  refine runs_modify ?_
  dsimp only
  rw [hidx, if_pos (Or.inr (Or.inl (by decide)))]

end Spec

end VirtualKernel
