/-
`process_create` succeeds when there is room.

Each part of the constructor of a protected-mode process comes back with what
it was asked for while the heap can grow, physical pages and page tables are
left, and a slot, an entry of the process table and an entry of the task table
are free (`Spare`).  The parts take seven pages of the heap, nine physical pages
and three tables in all (`processCreateProtected32_room`); so as many processes
can be created one after the other as there is room for.  A VM86 process takes a
page for each page of its private memory (`v86ProcessCreate_room`).
-/
import VirtualKernel.Room
import VirtualKernel.LdtSelectors
import VirtualKernel.SchedulerEntries

namespace VirtualKernel

open Lib

/-- A slot is free. -/
def FewSlots (T : Items) : Prop :=
  ∃ s : Finset ℕ, s.card < processMaxCount ∧ ∀ i, Item.slot i ∈ T → i ∈ s

/-- An entry of the process table is free. -/
def FewEntries (T : Items) : Prop :=
  ∃ s : Finset ℕ, s.card < processMaxCount ∧ ∀ i p, Item.entry i p ∈ T → i ∈ s

/-- An entry of the task table is free. -/
def FewTasks (T : Items) : Prop :=
  ∃ s : Finset ℕ, s.card < maxTasks ∧ ∀ v, Item.task v ∈ T → v ∈ s

/-- What the tables of the kernel can still take, read off the items that are
held. -/
structure Spare (T : Items) : Prop where
  gdt : T.card + 16 ≤ gdtEntryCount - gdtFirstDynamic
  slots : FewSlots T
  entries : FewEntries T
  tasks : FewTasks T

theorem card_itemIf_le (v none : ℕ) (x : Item) : (itemIf v none x).card ≤ 1 := by
  unfold itemIf
  split_ifs
  · exact Nat.zero_le 1
  · exact Nat.le_refl 1

/-- A process holds at most ten items. -/
theorem card_procItems_le (p : ℕ) (w : ℕ → ℕ) : (procItems p w).card ≤ 10 := by
  have h1 := card_itemIf_le (w procPageDir) 0 (.dir (w procPageDir))
  have h2 := card_itemIf_le (w procSlotIndex) noIndex (.slot (w procSlotIndex))
  have h3 := card_itemIf_le (w procLdtBase) 0 (.block (w procLdtBase))
  have h4 := card_itemIf_le (w procLdtBitmap) 0 (.block (w procLdtBitmap))
  have h5 := card_itemIf_le (w procLdtSelector) 0 (.gdt (w procLdtSelector / 8))
  have h6 := card_itemIf_le (w procKstackTop) 0 (.block (sub32 (w procKstackTop) pageSize))
  have h7 := card_itemIf_le (w procTssBase) 0 (.block (w procTssBase))
  have h8 := card_itemIf_le (w procTssSelector) 0 (.gdt (w procTssSelector / 8))
  have h9 := card_itemIf_le (w procTableIndex) noIndex (.entry (w procTableIndex) p)
  simp only [procItems, Multiset.card_add, Multiset.card_singleton]
  omega

section Few

variable {T X : Items}

theorem FewSlots.add (h : FewSlots T) (hX : ∀ i, Item.slot i ∉ X) : FewSlots (T + X) := by
  obtain ⟨s, hs, hmem⟩ := h
  exact ⟨s, hs, fun i hi => hmem i ((Multiset.mem_add.mp hi).resolve_right (hX i))⟩

theorem FewEntries.add (h : FewEntries T) (hX : ∀ i p, Item.entry i p ∉ X) : FewEntries (T + X) := by
  obtain ⟨s, hs, hmem⟩ := h
  exact ⟨s, hs, fun i p hi => hmem i p ((Multiset.mem_add.mp hi).resolve_right (hX i p))⟩

theorem FewTasks.add (h : FewTasks T) (hX : ∀ v, Item.task v ∉ X) : FewTasks (T + X) := by
  obtain ⟨s, hs, hmem⟩ := h
  exact ⟨s, hs, fun v hv => hmem v ((Multiset.mem_add.mp hv).resolve_right (hX v))⟩

end Few

section Stages

variable {k k' : Kernel} {O : ℕ → Prop} {T : Items} {p a b c : ℕ}

/-! ### The object and its address space -/

/-- **`process_memory_create`** with room. -/
theorem processMemoryCreate_room (H : Holds k O T)
    (hk : k.ram.frame pageDirBase (userHeapBase / 2 ^ 22) = 0)
    (room : Room (a + 1) (b + 2) (c + 2) k) :
    Runs processMemoryCreate k fun p k' => p ≠ 0 ∧ Room a b c k' := by
  refine runs_bind ((kHeapAlloc_spec H procMemSize).and
    (kHeapAlloc_room (g := 1) (b := b + 1) H (by decide) (by decide) (by decide) room)) ?_
  rintro p k₁ ⟨⟨F₁, hres⟩, hp, room₁⟩
  have H₁ : Holds k₁ O (T + {.block p}) := (hres.resolve_left fun h => hp h.1).2
  rw [if_neg hp]
  refine runs_modify_bind ?_
  generalize hk₂ : k₁.setMem p _ = k₂
  have H₂ : Holds k₂ O (T + {.block p}) := by rw [← hk₂]; exact H₁.setMem _ _
  have room₂ : Room a (b + 1) (c + 2) k₂ := by rw [← hk₂]; exact room₁.congr rfl rfl
  have hr₂ : k₂.ram.frame pageDirBase = k.ram.frame pageDirBase := by
    rw [← hk₂]
    exact F₁.ram.kernel
  clear hk₂
  refine runs_bind ((kCreatePageDirectory_spec H₂).and (kCreatePageDirectory_room H₂ room₂)) ?_
  rintro res k₃ ⟨⟨rfl, -⟩ | ⟨d, rfl, -, H₃, F₃, -, -⟩, hres, room₃⟩
  · exact absurd rfl hres
  refine runs_modify_bind ?_
  generalize hk₄ : k₃.setMem p _ = k₄
  have H₄ : Holds k₄ O (T + {.block p} + {.dir d}) := by rw [← hk₄]; exact H₃.setMem _ _
  have room₄ : Room a (b + 1) (c + 1) k₄ := by rw [← hk₄]; exact room₃.congr rfl rfl
  have hr₄ : k₄.ram = k₃.ram := by rw [← hk₄]; rfl
  clear hk₄
  have hcopy : kernelCopy k₄.ram (userHeapBase / 2 ^ 22) = 0 :=
    kernelCopy_zero (by rw [hr₄, F₃.ram.kernel, hr₂, hk])
  refine runs_bind (kAllocMapPage_room H₄ (by decide) (by decide) (by decide) userHeapPage hcopy
    room₄) ?_
  rintro b k₅ ⟨rfl, room₅⟩
  exact runs_modify_bind (runs_pure ⟨hp, room₅.congr rfl rfl⟩)

/-! ### The local descriptor table -/

/-- A bitmap with at most two entries set from 1 on has a free one. -/
theorem exists_free_entry {f : ℕ → ℕ} {n i j : ℕ} (hn : 4 ≤ n)
    (h : ∀ e, e ≠ i → e ≠ j → 1 ≤ e → e < n → bitOf f e = false) :
    ∃ e, 1 ≤ e ∧ e < n ∧ bitOf f e = false := by
  by_cases h1 : i ≠ 1 ∧ j ≠ 1
  · exact ⟨1, by omega, by omega, h 1 (by omega) (by omega) (by omega) (by omega)⟩
  · by_cases h2 : i ≠ 2 ∧ j ≠ 2
    · exact ⟨2, by omega, by omega, h 2 (by omega) (by omega) (by omega) (by omega)⟩
    · exact ⟨3, by omega, by omega, h 3 (by omega) (by omega) (by omega) (by omega)⟩

/-- One selector, stored in the object, from a bitmap with a free entry. -/
theorem ldtSelector_room {bitmap off : ℕ} {fail next : KM ℕ} {R : ℕ → Kernel → Prop}
    (hbp : bitmap ≠ p) (hfree : ∃ e, 1 ≤ e ∧ e < ldtEntryCount ∧ bitOf (k.mem bitmap) e = false)
    (hnext : ∀ e k', k'.mem bitmap = setBit (k.mem bitmap) e → k'.heap = k.heap →
      k'.ram = k.ram → Runs next k' R) :
    Runs (ldtAllocSelector bitmap ldtEntryCount >>= fun res =>
      match res with
      | none => fail
      | some sel => store p off sel >>= fun _ => next) k R := by
  refine runs_bind (ldtAllocSelector_found k bitmap (by decide)) ?_
  rintro res k₁ ⟨tsc, ⟨e, h₁, h₂, hbit, rfl, rfl⟩ | ⟨hall, rfl, rfl⟩⟩
  · refine runs_modify_bind (hnext e _ ?_ rfl rfl)
    simp [Kernel.setMem, Function.update_of_ne hbp]
  · obtain ⟨e, h₁, h₂, hbit⟩ := hfree
    rw [hall e h₁ h₂] at hbit
    cases hbit

/-- **The three selectors** of a process come from a fresh bitmap. -/
theorem processAllocLdtSelectors_room {sel bitmap ldt base : ℕ} (hbp : bitmap ≠ p)
    (hfresh : ∀ e, 1 ≤ e → e < ldtEntryCount → bitOf (k.mem bitmap) e = false) :
    Runs (processAllocLdtSelectors p sel bitmap ldt base) k fun eax k' => eax = 1 ∧
      k'.heap = k.heap ∧ k'.ram = k.ram := by
  refine ldtSelector_room hbp ⟨1, by decide, by decide, hfresh 1 (by decide) (by decide)⟩ ?_
  intro i k₁ hb₁ hh₁ hr₁
  have hbits₁ : ∀ e, e ≠ i → 1 ≤ e → e < ldtEntryCount → bitOf (k₁.mem bitmap) e = false :=
    fun e he h1 h2 => by rw [hb₁, bitOf_setBit_of_ne _ he, hfresh e h1 h2]
  refine ldtSelector_room hbp (exists_free_entry (by decide) (i := i) (j := i)
    fun e he _ h1 h2 => hbits₁ e he h1 h2) ?_
  intro j k₂ hb₂ hh₂ hr₂
  refine ldtSelector_room hbp (exists_free_entry (by decide) (i := i) (j := j)
    fun e hi hj h1 h2 => ?_) ?_
  · rw [hb₂, bitOf_setBit_of_ne _ hj, hbits₁ e hi h1 h2]
  intro l k₃ _ hh₃ hr₃
  refine runs_modifyGet_bind (runs_modify_bind (runs_modifyGet_bind (runs_modify_bind
    (runs_modifyGet_bind (runs_modify_bind (runs_pure ⟨rfl, ?_, ?_⟩))))))
  · exact hh₃.trans (hh₂.trans hh₁)
  · exact hr₃.trans (hr₂.trans hr₁)

/-- A cleared bitmap in which entry 0 has been marked. -/
theorem bitOf_cleared {f : ℕ → ℕ} {e n : ℕ} (hf : ∀ o < n, f o = 0) (he : 1 ≤ e)
    (hn : e / 32 * 4 < n) : bitOf (setBit f 0) e = false := by
  rw [bitOf_setBit_of_ne f (by omega), bitOf, hf _ hn, Nat.zero_testBit]

/-- **`process_create_random_ldt`** with room. -/
theorem processCreateRandomLdt_room {base : ℕ} (H : Holds k O (T + {.block p}))
    (hT : (T + {.block p}).card + 2 < gdtEntryCount - gdtFirstDynamic)
    (room : Room (a + 3) (b + 3) c k) :
    Runs (processCreateRandomLdt p base) k fun eax k' => eax = 1 ∧ Room a b c k' := by
  have hp : p ≠ 0 := H.block_ne_zero (mem_add_singleton.mpr (Or.inr rfl))
  rw [processCreateRandomLdt, if_neg hp]
  -- the table: two pages
  refine runs_bind ((kHeapAlloc_spec H ldtSize).and
    (kHeapAlloc_room (g := 2) (a := a + 1) (b := b + 1) H (by decide) (by decide) (by decide)
      room)) ?_
  rintro ldt k₁ ⟨⟨-, hres⟩, hldt, room₁⟩
  have H₁ : Holds k₁ O (T + {.block p} + {.block ldt}) := (hres.resolve_left fun h => hldt h.1).2
  rw [if_neg hldt]
  refine runs_modify_bind (runs_modify_bind ?_)
  generalize hk₂ : Kernel.setMem _ ldt _ = k₂
  have H₂ : Holds k₂ O (T + {.block p} + {.block ldt}) := by
    rw [← hk₂]
    exact (H₁.setMem _ _).setMem _ _
  have room₂ : Room (a + 1) (b + 1) c k₂ := by rw [← hk₂]; exact room₁.congr rfl rfl
  clear hk₂
  -- the bitmap: one page
  refine runs_bind ((kHeapAlloc_spec H₂ ldtBitmapSize).and
    (kHeapAlloc_room (g := 1) H₂ (by decide) (by decide) (by decide) room₂)) ?_
  rintro bitmap k₃ ⟨⟨-, hres⟩, hbitmap, room₃⟩
  have H₃ := (hres.resolve_left fun h => hbitmap h.1).2
  have hbp : bitmap ≠ p := by
    rintro rfl
    exact (nodup_add_singleton.mp H₃.nodup).2 (by simp)
  rw [if_neg hbitmap]
  refine runs_modify_bind (runs_modify_bind (runs_modify_bind ?_))
  generalize hk₄ : ((((k₃.setMem p (Function.update (k₃.mem p) procLdtBitmap bitmap)).setMem bitmap
    _).setMem bitmap _)) = k₄
  have H₄ : Holds k₄ O (T + {.block p} + {.block ldt} + {.block bitmap}) := by
    rw [← hk₄]
    exact ((H₃.setMem _ _).setMem _ _).setMem _ _
  have room₄ : Room a b c k₄ := by rw [← hk₄]; exact room₃.congr rfl rfl
  have hbits₄ : ∀ e, 1 ≤ e → e < ldtEntryCount → bitOf (k₄.mem bitmap) e = false := by
    intro e h1 h2
    rw [← hk₄]
    simp only [Kernel.setMem, Function.update_self]
    refine bitOf_cleared (n := ldtBitmapSize) (fun o ho => if_pos ho) h1 ?_
    simp only [ldtEntryCount] at h2
    simp only [ldtBitmapSize]
    omega
  clear hk₄
  -- the descriptor
  refine runs_bind ((gdtCreateDescriptor_spec H₄ _).and (gdtCreateDescriptor_room H₄ _ ?_ room₄)) ?_
  · simp only [Multiset.card_add, Multiset.card_singleton] at hT ⊢
    omega
  rintro sel k₅ ⟨⟨rfl, -⟩ | ⟨i, rfl, -, -, -, -, hm₅, -⟩, hres, room₅⟩
  · exact absurd rfl hres
  refine runs_modify_bind ((processAllocLdtSelectors_room hbp fun e h1 h2 => ?_).mono ?_)
  · rw [show (k₅.setMem p _).mem bitmap = k₅.mem bitmap from Function.update_of_ne hbp _ _, hm₅]
    exact hbits₄ e h1 h2
  · rintro eax k₆ ⟨rfl, hh₆, hr₆⟩
    exact ⟨rfl, room₅.congr hh₆ hr₆⟩

/-! ### The task state segment -/

/-- **The common part of both constructors** of a segment, with room. -/
theorem createTss_room {objectSize limit g : ℕ} {owner : ℕ → (ℕ → ℕ) → ℕ → ℕ}
    {fields : ℕ → ℕ → KM Unit} (H : Holds k O (T + {.block p}))
    (hfields : ∀ k tss, tss ≠ p → Runs (fields p tss) k fun _ k' => TssOnly tss k k')
    (h1 : 1 ≤ objectSize) (h2 : objectSize ≤ kheapMaxSize)
    (hg : heapGrowCount (heapRound objectSize) = g)
    (hT : (T + {.block p}).card + 2 < gdtEntryCount - gdtFirstDynamic)
    (room : Room (a + 2 + g) (b + 2 + g) c k) :
    Runs (createTss p objectSize limit owner fields) k fun r k' => r = true ∧ Room a b c k' := by
  have hp : p ≠ 0 := H.block_ne_zero (mem_add_singleton.mpr (Or.inr rfl))
  rw [createTss, if_neg hp]
  -- the object
  refine runs_bind ((kHeapAlloc_spec H objectSize).and (kHeapAlloc_room H h1 h2 hg room)) ?_
  rintro tss k₁ ⟨⟨-, hres⟩, htss, room₁⟩
  have H₁ : Holds k₁ O (T + {.block p} + {.block tss}) := (hres.resolve_left fun h => htss h.1).2
  rw [if_neg htss]
  have htp : tss ≠ p := by
    rintro rfl
    exact (nodup_add_singleton.mp H₁.nodup).2 (by simp)
  refine runs_modify_bind (runs_modify_bind (runs_modify_bind ?_))
  generalize hk₂ : Kernel.setMem _ tss _ = k₂
  have H₂ : Holds k₂ O (T + {.block p} + {.block tss}) := by
    rw [← hk₂]
    exact ((H₁.setMem _ _).setMem _ _).setMem _ _
  have room₂ : Room (a + 2) (b + 2) c k₂ := by rw [← hk₂]; exact room₁.congr rfl rfl
  clear hk₂
  -- the stack: two pages
  refine runs_bind ((kHeapAlloc_spec H₂ pageSize).and
    (kHeapAlloc_room (g := 2) H₂ (by decide) (by decide) (by decide) room₂)) ?_
  rintro stack k₃ ⟨⟨-, hres⟩, hstack, room₃⟩
  have H₃ := (hres.resolve_left fun h => hstack h.1).2
  rw [if_neg hstack]
  refine runs_modify_bind (runs_modify_bind ?_)
  generalize hk₄ : Kernel.setMem _ tss _ = k₄
  have H₄ : Holds k₄ O (T + {.block p} + {.block tss} + {.block stack}) := by
    rw [← hk₄]
    exact (H₃.setMem _ _).setMem _ _
  have room₄ : Room a b c k₄ := by rw [← hk₄]; exact room₃.congr rfl rfl
  clear hk₄
  refine runs_bind (hfields k₄ tss htp) ?_
  rintro - k₅ F₅
  have room₅ : Room a b c k₅ := room₄.congr (by rw [F₅.eq]; rfl) (by rw [F₅.eq]; rfl)
  -- the descriptor
  refine runs_bind (gdtCreateDescriptor_room (F₅.holds H₄) _ ?_ room₅) ?_
  · simp only [Multiset.card_add, Multiset.card_singleton] at hT ⊢
    omega
  rintro sel k₆ ⟨hsel, room₆⟩
  cases sel with
  | none => exact absurd rfl hsel
  | some sel => exact runs_modify_bind (runs_pure ⟨rfl, room₆.congr rfl rfl⟩)

/-- **`process_create_tss`** with room. -/
theorem processCreateTss_room (H : Holds k O (T + {.block p}))
    (hT : (T + {.block p}).card + 2 < gdtEntryCount - gdtFirstDynamic)
    (room : Room (a + 3) (b + 3) c k) :
    Runs (processCreateTss p) k fun r k' => r = true ∧ Room a b c k' := by
  refine createTss_room (g := 1) H ?_ (by decide) (by decide) (by decide) hT room
  intro k tss htp
  refine runs_bind (keyboardPrepareProcess_spec k p tss) ?_
  rintro - k₁ ⟨F₁, -⟩
  refine runs_bind (graphicsPrepareProcess_spec k₁ p tss) ?_
  rintro - k₂ ⟨F₂, -⟩
  exact runs_modify ((F₁.trans F₂).trans ⟨by simp [Kernel.setMem], rfl⟩)

/-! ### The gateway page and the tables of the system -/

/-- **`process_install_syscall_gateway`** with room. -/
theorem processInstallSyscallGateway_room {d : ℕ} (H : Holds k O (T + {.dir d})) (hp : p ≠ 0)
    (hd : d ≠ 0) (hdir : k.mem p procPageDir = d)
    (hk : k.ram.frame pageDirBase (userSyscallGatewayPage / 2 ^ 22) = 0)
    (room : Room a (b + 1) (c + 1) k) :
    Runs (processInstallSyscallGateway p) k fun r k' => r = true ∧ Room a b c k' :=
  processInstallSyscallGateway_maps H hp hd hdir (kAllocMapPage_room H (by decide) (by decide)
    (by decide) _ (kernelCopy_zero hk) room)

/-- A table has a free entry while the keys of its entries in use are too few. -/
theorem exists_free_index {n : ℕ} {s : Finset ℕ} {u : ℕ → Prop} {f : ℕ → ℕ}
    (hs : s.card < n) (hf : ∀ i < n, u i → f i ∈ s)
    (hinj : ∀ i < n, ∀ j < n, u i → f i = f j → i = j) : ∃ i < n, ¬u i := by
  by_contra hno
  have hall : ∀ i < n, u i := fun i hi => by
    by_contra hu
    exact hno ⟨i, hi, hu⟩
  have hsub : (Finset.range n).image f ⊆ s := by
    intro x hx
    obtain ⟨i, hi, rfl⟩ := Finset.mem_image.mp hx
    have hi := Finset.mem_range.mp hi
    exact hf i hi (hall i hi)
  have hcard := Finset.card_le_card hsub
  rw [Finset.card_image_of_injOn, Finset.card_range] at hcard
  · omega
  · intro i hi j hj hij
    have hi := Finset.mem_range.mp (Finset.mem_coe.mp hi)
    have hj := Finset.mem_range.mp (Finset.mem_coe.mp hj)
    exact hinj i hi j hj (hall i hi) hij

/-- **`process_slot_alloc`** while a slot is free. -/
theorem processSlotAlloc_room (H : Holds k O T) (hS : FewSlots T) (room : Room a b c k) :
    Runs processSlotAlloc k fun res k' => res ≠ none ∧ Room a b c k' := by
  obtain ⟨s, hs, hmem⟩ := hS
  obtain ⟨i, hi, hfree⟩ := exists_free_index (u := fun i => k.slotBitmap i = true) (f := id) hs
    (fun i hi hu => hmem i ((H.slot.bit i hi).mp hu)) fun _ _ _ _ _ h => h
  refine runs_modifyGet ?_
  cases hfind : (List.range processMaxCount).find? fun i => !k.slotBitmap i with
  | none =>
    have hset := List.find?_eq_none.mp hfind i (List.mem_range.mpr hi)
    exact absurd (by simpa using hset) hfree
  | some i => exact ⟨by simp, room.congr rfl rfl⟩

/-- **`process_register`** while an entry is free. -/
theorem processRegister_room (H : Holds k O T) (hS : FewEntries T) (hp : p ≠ 0)
    (hidx : k.mem p procTableIndex = noIndex) (room : Room a b c k) :
    Runs (processRegister p) k fun eax k' => eax ≠ 0 ∧ Room a b c k' := by
  obtain ⟨s, hs, hmem⟩ := hS
  obtain ⟨i, hi, hfree⟩ := exists_free_index (u := fun i => k.processTable i ≠ 0) (f := id) hs
    (fun i hi hu => hmem i _ ((H.entry.entry i hi _ hu).mp rfl)) fun _ _ _ _ _ h => h
  refine runs_modifyGet ?_
  rw [if_neg (by simp [hp, hidx])]
  cases hfind : (List.range processMaxCount).find? fun i => decide (k.processTable i = 0) with
  | none =>
    have hset := List.find?_eq_none.mp hfind i (List.mem_range.mpr hi)
    exact absurd (by simpa using hset) hfree
  | some i => exact ⟨one_ne_zero, room.congr rfl rfl⟩

/-- **`scheduler_add_process`** while an entry is free. -/
theorem kSchedulerAddProcess_room (H : Holds k O T) (hS : FewTasks T) (hp : p ≠ 0)
    (hsel : k.mem p procTssSelector ≠ 0) (hlt : k.mem p procTssSelector < 2 ^ 16)
    (hnot : Item.task (k.mem p procTssSelector) ∉ T) (room : Room a b c k) :
    Runs (kSchedulerAddProcess p) k fun eax k' => eax ≠ 0 ∧ Room a b c k' := by
  obtain ⟨s, hs, hmem⟩ := hS
  obtain ⟨i, hi, hfree⟩ := exists_free_index (u := fun i => k.sched.taskTable i ≠ 0)
    (f := k.sched.taskTable) hs (fun i hi hu => hmem _ ((H.task.task _ hu).mp ⟨i, hi, rfl⟩))
    fun i hi j hj hu h => H.sched.inj i hi j hj h hu
  have hfree : k.sched.taskTable i = 0 := not_not.mp hfree
  have hcount := H.sched.count_lt hi hfree
  refine runs_modifyGet_bind (runs_modifyGet ?_)
  dsimp only
  refine ⟨?_, room.congr rfl rfl⟩
  unfold schedulerAddProcess
  dsimp only
  rw [Nat.mod_eq_of_lt hlt, if_neg (by rintro (h | h | h); exacts [hp h, hsel h, by omega])]
  split
  · rename_i hfind
    have hskip := List.find?_eq_none.mp hfind i (List.mem_range.mpr hi)
    simp [hfree] at hskip
  · rename_i j hfind
    have hj : j < maxTasks := List.mem_range.mp (List.find?_range_eq_some.mp hfind).2.1
    rw [if_neg fun h => hnot ((H.task.task _ hsel).mp ⟨j, hj, h⟩)]
    exact one_ne_zero

/-- **The end of both constructors** with room in both tables. -/
theorem processPublish_room (H : Holds k O (T + procItems p (k.mem p))) (hT : TasksOwned T)
    (hidx : k.mem p procTableIndex = noIndex) (hR : Ready k p) (hentries : FewEntries T)
    (htasks : FewTasks T) (room : Room a b c k) :
    Runs (processPublish p) k fun q k' => q = p ∧ Room a b c k' := by
  obtain ⟨rest, hrest, hitems⟩ := items_split T (block_mem_procItems p (k.mem p))
  have hp : p ≠ 0 := H.block_ne_zero (Multiset.mem_add.mpr (Or.inr (block_mem_procItems _ _)))
  have hnoEntry : ∀ i q, Item.entry i q ∉ procItems p (k.mem p) := by
    intro i q h
    have hlt := (H.entry.range i q (Multiset.mem_add.mpr (Or.inr h))).1
    rw [(entry_of_mem_procItems h).2, hidx] at hlt
    exact absurd hlt (by decide)
  have H₀ := H
  rw [hitems] at H₀
  refine runs_bind ((processRegister_spec H₀ hidx).and
    (processRegister_room H (hentries.add hnoEntry) hp hidx room)) ?_
  rintro eax k₁ ⟨⟨rfl, -⟩ | ⟨rfl, i, -, H₁, -, hm₁, -, -⟩, hne, room₁⟩
  · exact absurd rfl hne
  rw [if_neg one_ne_zero]
  have hsel₁ : k₁.mem p procTssSelector = k.mem p procTssSelector := by
    rw [hm₁, Function.update_self, Function.update_of_ne (by decide)]
  rw [← hitems] at H₁
  have htasks₁ : FewTasks (T + procItems p (k.mem p) + {.entry i p}) :=
    (htasks.add fun v => task_not_mem_procItems _ _ _).add (by simp)
  have hnot : Item.task (k₁.mem p procTssSelector) ∉ T + procItems p (k.mem p) + {.entry i p} := by
    rw [hsel₁, mem_add_singleton, Multiset.mem_add]
    rintro ((h | h) | h)
    · exact hR.not_queued hT H h
    · exact task_not_mem_procItems _ _ _ h
    · cases h
  refine runs_bind (kSchedulerAddProcess_room H₁ htasks₁ hp (by rw [hsel₁]; exact hR.sel)
    (by rw [hsel₁]; exact hR.sel_lt) hnot room₁) ?_
  rintro eax k₂ ⟨hne, room₂⟩
  rw [if_neg hne]
  exact runs_pure ⟨rfl, room₂⟩

/-! ### The whole constructor -/

/-- The segment, the gateway page and the tables, with room. -/
theorem processCreateTail_room {slot d ldt bitmap i : ℕ}
    (H : Holds k O (T + procItems p (k.mem p))) (hT : TasksOwned T) (hS : Spare T)
    (S : LdtStage slot d ldt bitmap i k p) (hslot : slot < processMaxCount) (hd : d ≠ 0)
    (hldt : ldt ≠ 0) (hlp : ldt ≠ p) (hi : i ≠ 0)
    (hnone : tableOf k.ram d (userSyscallGatewayPage / 2 ^ 22) = none)
    (hk : k.ram.frame pageDirBase (userSyscallGatewayPage / 2 ^ 22) = 0)
    (room : Room (a + 3) (b + 4) (c + 1) k) :
    Runs (do
        if ← processCreateTss p then
          if ← processInstallSyscallGateway p then processPublish p else processCreateUndo p
        else processCreateUndo p) k fun q k' => q = p ∧ Room a b c k' := by
  have hp : p ≠ 0 := H.block_ne_zero (Multiset.mem_add.mpr (Or.inr (block_mem_procItems _ _)))
  obtain ⟨rest, hrest, hsplit⟩ := items_split T (block_mem_procItems p (k.mem p))
  have H₀ := H
  rw [hsplit] at H₀
  have hT₀ : (T + rest + {.block p}).card + 2 < gdtEntryCount - gdtFirstDynamic := by
    have hgdt := hS.gdt
    have hcard := card_procItems_le p (k.mem p)
    rw [← hsplit, Multiset.card_add]
    omega
  refine runs_bind ((processCreateTss_stage H S hslot hd hldt hlp hi).and
    (processCreateTss_room (b := b + 1) H₀ hT₀ room)) ?_
  rintro r k₁ ⟨⟨F₁, ⟨rfl, -⟩ | ⟨rfl, tss, Q⟩⟩, hr, room₁⟩
  · cases hr
  have hdir₁ : k₁.mem p procPageDir = d := by rw [Q.words _ (by decide), S.dir]
  have H₁ := Q.items
  have hdirmem := dir_mem_procItems (p := p) Q.ready.dir
  rw [hdir₁] at hdirmem
  obtain ⟨rest₂, -, hsplit₂⟩ := items_split T hdirmem
  have H₁' := H₁
  rw [hsplit₂] at H₁'
  have hnone₁ : tableOf k₁.ram d (userSyscallGatewayPage / 2 ^ 22) = none := by
    rw [Q.tables, hnone]
  refine runs_bind ((processInstallSyscallGateway_spec H₁' hp hd hdir₁ hnone₁).and
    (processInstallSyscallGateway_room H₁' hp hd hdir₁ (by rw [F₁.ram.kernel, hk])
      room₁)) ?_
  rintro r k₂ ⟨⟨-, hR, H₂, -⟩, rfl, room₂⟩
  rw [← hsplit₂, ← hR.mem] at H₂
  rw [if_pos rfl]
  exact processPublish_room H₂ hT (by rw [hR.mem, Q.words _ (by decide), S.entry])
    (Q.ready.onlyRam hR) hS.entries hS.tasks room₂

/-- **`process_create_protected32` succeeds when there is room.** -/
theorem processCreateProtected32_room (H : Holds k O T) (hT : TasksOwned T) (hS : Spare T)
    (hheap : k.ram.frame pageDirBase (userHeapBase / 2 ^ 22) = 0)
    (hgate : k.ram.frame pageDirBase (userSyscallGatewayPage / 2 ^ 22) = 0)
    (room : Room (a + 7) (b + 9) (c + 3) k) :
    Runs processCreateProtected32 k fun p k' => p ≠ 0 ∧ Room a b c k' := by
  refine runs_bind ((processMemoryCreate_spec H).and
    (processMemoryCreate_room (a := a + 6) (b := b + 7) (c := c + 1) H hheap room)) ?_
  rintro p k₁ ⟨⟨F₁, ⟨rfl, -⟩ | ⟨-, d, hd, H₁, hnew, -, hnone⟩⟩, hp, room₁⟩
  · exact absurd rfl hp
  rw [if_neg hp]
  have hsame : k₁.setMem p (Function.update (k₁.mem p) procType processTypeProtected32) = k₁ := by
    rw [← hnew.type, Function.update_eq_self, Kernel.setMem, Function.update_eq_self]
  refine runs_modify_bind ?_
  rw [hsame]
  refine runs_bind ((processSlotAlloc_spec H₁).and (processSlotAlloc_room H₁
    ((hS.slots.add (by simp)).add (by simp)) room₁)) ?_
  rintro res k₂ ⟨⟨rfl, -⟩ | ⟨slot, -, hslot, rfl, H₂, F₂, hm₂⟩, hres, room₂⟩
  · exact absurd rfl hres
  refine runs_modify_bind ?_
  generalize hk₃ : k₂.setMem p _ = k₃
  have hm₃ : k₃.mem p = Function.update (Function.update (k₁.mem p) procSlotIndex slot)
      procSlotBase (slotBase slot) := by
    rw [← hk₃]
    simp [Kernel.setMem, hm₂, slotBase]
  have H₃ : Holds k₃ O (T + {.dir d} + {.slot slot} + {.block p}) := by
    rw [← hk₃, show T + {.dir d} + {.slot slot} + {.block p} =
      T + {.block p} + {.dir d} + {.slot slot} by abel]
    exact H₂.setMem _ _
  have hnone₃ : tableOf k₃.ram d (userSyscallGatewayPage / 2 ^ 22) = none := by
    rw [← hk₃]
    change tableOf k₂.ram d _ = none
    rw [F₂.ram.tableOf_eq (d := d) (by simp [dirsOf]), hnone _ (by decide)]
  have hgate₃ : k₃.ram.frame pageDirBase (userSyscallGatewayPage / 2 ^ 22) = 0 := by
    rw [← hk₃]
    change k₂.ram.frame pageDirBase _ = 0
    rw [F₂.ram.kernel, F₁.ram.kernel, hgate]
  have room₃ : Room (a + 6) (b + 7) (c + 1) k₃ := by rw [← hk₃]; exact room₂.congr rfl rfl
  clear hk₃
  have hcard := hS.gdt
  refine runs_bind ((processCreateRandomLdt_stage hnew hslot hd hm₃ H₃).and
    (processCreateRandomLdt_room (a := a + 3) (b := b + 4) H₃ ?_ room₃)) ?_
  · simp only [Multiset.card_add, Multiset.card_singleton]
    omega
  rintro eax k₄ ⟨⟨F₄, ⟨rfl, -⟩ | ⟨rfl, ldt, bitmap, i, H₄, S, hldt, hlp, hi, -⟩⟩, heax, room₄⟩
  · cases heax
  rw [if_neg one_ne_zero]
  refine (processCreateTail_room H₄ hT hS S hslot hd hldt hlp hi ?_ ?_ room₄).mono ?_
  · rw [F₄.ram.tableOf_eq (d := d) (by simp [dirsOf]), hnone₃]
  · rw [F₄.ram.kernel, hgate₃]
  · rintro q k₅ ⟨rfl, room₅⟩
    exact ⟨hp, room₅⟩

/-! ### VM86 processes -/

/-- **`v86_map_low_memory`** with a page for each private page and a table. -/
theorem kV86MapLowMemory_room {d : ℕ} (H : Holds k O (T + {.dir d}))
    (hnone : ∀ i, tableOf k.ram d i = none) (room : Room a (b + 160) (c + 1) k) :
    Runs (onRam (v86MapLowMemory d)) k fun r k' => r = true ∧ Room a b 0 k' := by
  refine (kV86MapLowMemory_spec H hnone).mono ?_
  rintro r k' ⟨-, hR, -, hok, hfail⟩
  obtain ⟨s, hs, hfree⟩ := room.pages
  cases r with
  | false =>
    exfalso
    rcases hfail rfl with ⟨t, ht, hall⟩ | hrefused
    · -- the free pages are among the pages taken so far
      have hsub : s ⊆ t := fun m hm => by
        refine (hall m (H.ram.allocatable (hfree m hm))).resolve_left fun h => ?_
        rw [hfree m hm] at h
        cases h
      have := Finset.card_le_card hsub
      omega
    · rcases H.tableReady (n := 1) (d := d) (i := 0) (by simp) (by decide) (if_neg fun h => h.1 rfl)
        (room.tables.mono (by omega)) with h | ⟨h, t, ht, hpool⟩
      · exact not_lowRefused h hrefused
      · rcases hrefused with ⟨h', -⟩ | ⟨-, hfull⟩
        · rw [h] at h'
          cases h'
        · obtain ⟨x, hx⟩ := Finset.card_pos.mp (show 0 < t.card by omega)
          obtain ⟨hx1, hx2, hx3, hx4⟩ := hpool x hx
          exact hx4 ((H.pool_used x).mpr (hfull x hx1 hx2 hx3))
  | true =>
    obtain ⟨t, ht, hsub⟩ := (hok rfl).pages
    refine ⟨rfl, by rw [hR]; exact room.heap, ⟨s \ t, ?_, fun m hm => ?_⟩, ∅, Nat.zero_le _, by simp⟩
    · have := Finset.le_card_sdiff t s
      omega
    · obtain ⟨hms, hmt⟩ := Finset.mem_sdiff.mp hm
      by_contra hu
      rcases hsub m (by simpa using hu) with h | h
      · rw [hfree m hms] at h
        cases h
      · exact hmt h

/-- **`v86_process_memory_create`** with room. -/
theorem v86ProcessMemoryCreate_room (H : Holds k O T) (room : Room (a + 1) (b + 161) (c + 2) k) :
    Runs v86ProcessMemoryCreate k fun p k' => p ≠ 0 ∧ Room a b 0 k' := by
  refine runs_bind ((kHeapAlloc_spec H procMemSize).and
    (kHeapAlloc_room (g := 1) (b := b + 160) H (by decide) (by decide) (by decide) room)) ?_
  rintro p k₁ ⟨⟨-, hres⟩, hp, room₁⟩
  have H₁ : Holds k₁ O (T + {.block p}) := (hres.resolve_left fun h => hp h.1).2
  rw [if_neg hp]
  refine runs_modify_bind ?_
  generalize hk₂ : k₁.setMem p _ = k₂
  have H₂ : Holds k₂ O (T + {.block p}) := by rw [← hk₂]; exact H₁.setMem _ _
  have room₂ : Room a (b + 160) (c + 2) k₂ := by rw [← hk₂]; exact room₁.congr rfl rfl
  clear hk₂
  refine runs_bind ((kCreatePageDirectory_spec H₂).and (kCreatePageDirectory_room H₂ room₂)) ?_
  rintro res k₃ ⟨⟨rfl, -⟩ | ⟨d, rfl, -, H₃, -, -, hnone⟩, hres, room₃⟩
  · exact absurd rfl hres
  refine runs_modify_bind ?_
  generalize hk₄ : k₃.setMem p _ = k₄
  have H₄ : Holds k₄ O (T + {.block p} + {.dir d}) := by rw [← hk₄]; exact H₃.setMem _ _
  have room₄ : Room a (b + 160) (c + 1) k₄ := by rw [← hk₄]; exact room₃.congr rfl rfl
  have hr₄ : k₄.ram = k₃.ram := by rw [← hk₄]; rfl
  clear hk₄
  refine runs_bind (kV86MapLowMemory_room H₄ (by rw [hr₄]; exact hnone) room₄) ?_
  rintro r k₅ ⟨rfl, room₅⟩
  exact runs_pure ⟨hp, room₅⟩

/-- **`v86_process_create` succeeds when there is room.** -/
theorem v86ProcessCreate_room (H : Holds k O T) (hT : TasksOwned T) (hS : Spare T)
    (room : Room (a + 6) (b + 166) (c + 2) k) :
    Runs v86ProcessCreate k fun p k' => p ≠ 0 ∧ Room a b 0 k' := by
  refine runs_bind ((v86ProcessMemoryCreate_spec H).and
    (v86ProcessMemoryCreate_room (a := a + 5) (b := b + 5) H room)) ?_
  rintro p k₁ ⟨⟨-, ⟨rfl, -⟩ | ⟨-, d, hd, H₁, hnew⟩⟩, hp, room₁⟩
  · exact absurd rfl hp
  rw [if_neg hp]
  have hitems : T + procItems p (k₁.mem p) = T + {.dir d} + {.block p} := by
    rw [procItems_new hnew hd]
    abel
  have H₁' := H₁
  rw [add_right_comm] at H₁'
  rw [add_right_comm, ← hitems] at H₁
  have hgdt := hS.gdt
  have hroom : Runs (v86ProcessCreateTss p) k₁ fun r k' => r = true ∧ Room a b 0 k' := by
    refine createTss_room (g := 3) H₁' (fun k tss htp => ?_) (by decide) (by decide) (by decide) ?_
      room₁
    · exact runs_modify ⟨by simp [Kernel.setMem], rfl⟩
    · simp only [Multiset.card_add, Multiset.card_singleton]
      omega
  refine runs_bind ((v86ProcessCreateTss_stage H₁ hnew hd).and hroom) ?_
  rintro r k₂ ⟨⟨-, H₂, hidx, ⟨rfl, -⟩ | ⟨rfl, hready, -, -⟩⟩, hr, room₂⟩
  · cases hr
  rw [if_pos rfl]
  refine (processPublish_room H₂ hT hidx hready hS.entries hS.tasks room₂).mono ?_
  rintro q k₃ ⟨rfl, room₃⟩
  exact ⟨hp, room₃⟩

end Stages

end VirtualKernel
