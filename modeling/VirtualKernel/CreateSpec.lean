/-
`process_create`: a complete process, or nothing.

The specifications of the two constructors are put together from those of
their parts.  Every failure leads back to the items there were before
(`processCreate_spec`), either through the labels of the constructor itself or
through `process_destroy` on the incomplete object.
-/
import VirtualKernel.TssSpec

namespace VirtualKernel

open Lib

section Memory

variable {k k' : Kernel} {O : ℕ → Prop} {T : Items} {p : ℕ}

/-! ### The object and its address space -/

/-- The fields of an object that has an address space and nothing else. -/
structure NewObject (type d : ℕ) (w : ℕ → ℕ) : Prop where
  dir : w procPageDir = d
  type : w procType = type
  slot : w procSlotIndex = noIndex
  entry : w procTableIndex = noIndex
  rest : ∀ o ∈ [procLdtBase, procLdtBitmap, procLdtSelector, procTssBase, procTssSelector,
    procKstackTop], w o = 0

/-- A cleared object in which only the address space has been filled in. -/
theorem NewObject.of_words {type d : ℕ} {w f : ℕ → ℕ} (hd : w procPageDir = d)
    (hw : ∀ o, o ∉ [procPageDir, procHeapBase, procHeapCurrent, procHeapLimit] →
      w o = processObject type f o) : NewObject type d w := by
  refine ⟨hd, ?_, ?_, ?_, fun o ho => ?_⟩
  · rw [hw _ (by decide)]
    rfl
  · rw [hw _ (by decide)]
    rfl
  · rw [hw _ (by decide)]
    rfl
  · simp only [List.mem_cons, List.not_mem_nil, or_false] at ho
    rcases ho with rfl | rfl | rfl | rfl | rfl | rfl
    all_goals
      rw [hw _ (by decide)]
      rfl

theorem processMemoryUndo_spec {d : ℕ} (H : Holds k O (T + {.block p} + {.dir d})) :
    Runs (processMemoryUndo p d) k fun q k' => q = 0 ∧ Frame T k k' ∧ Holds k' O T := by
  refine runs_bind (kDestroyPageDirectory_spec H) ?_
  rintro - k₁ ⟨F₁, H₁, -⟩
  refine runs_bind (kHeapFree_spec H₁) ?_
  rintro - k₂ ⟨F₂, H₂⟩
  exact runs_pure ⟨rfl, F₁.left.trans F₂, H₂⟩

/-- `process_memory_destroy` of an object with a directory. -/
theorem processMemoryDestroy_spec {d : ℕ} (H : Holds k O (T + {.block p} + {.dir d}))
    (hd : k.mem p procPageDir = d) :
    Runs (processMemoryDestroy p) k fun _ k' => Frame T k k' ∧ Holds k' O T := by
  have hp : p ≠ 0 := H.block_ne_zero (by simp)
  rw [processMemoryDestroy, if_neg hp]
  refine runs_modifyGet_bind ?_
  dsimp only
  rw [hd]
  refine runs_bind (kDestroyPageDirectory_spec H) ?_
  rintro - k₁ ⟨F₁, H₁, -⟩
  exact (kHeapFree_spec H₁).mono fun _ _ h => ⟨F₁.left.trans h.1, h.2⟩

/-- **`process_memory_create`**: an object whose directory owns one page. -/
theorem processMemoryCreate_spec (H : Holds k O T) :
    Runs processMemoryCreate k fun p k' => Frame T k k' ∧
      (p = 0 ∧ Holds k' O T ∨ p ≠ 0 ∧ ∃ d, d ≠ 0 ∧ Holds k' O (T + {.block p} + {.dir d}) ∧
        NewObject processTypeProtected32 d (k'.mem p) ∧ k'.mem p procHeapBase = userHeapBase ∧
        ∀ i, i ≠ userHeapBase / 2 ^ 22 → tableOf k'.ram d i = none) := by
  refine runs_bind (kHeapAlloc_spec H procMemSize) ?_
  rintro p k₁ ⟨F₁, ⟨rfl, H₁⟩ | ⟨hp, H₁⟩⟩
  · rw [if_pos rfl]
    exact runs_pure ⟨F₁, Or.inl ⟨rfl, H₁⟩⟩
  rw [if_neg hp]
  have hpT := (nodup_add_singleton.mp H₁.nodup).2
  refine runs_modify_bind ?_
  generalize hk₂ : k₁.setMem p _ = k₂
  have H₂ : Holds k₂ O (T + {.block p}) := by rw [← hk₂]; exact H₁.setMem _ _
  have F₂ : Frame T k k₂ := by rw [← hk₂]; exact F₁.trans (Frame.setMem hpT _)
  have hm₂ : k₂.mem p = processObject processTypeProtected32 (k₁.mem p) := by
    rw [← hk₂]
    exact Function.update_self _ _ _
  clear hk₂
  refine runs_bind (kCreatePageDirectory_spec H₂) ?_
  rintro res k₃ (⟨rfl, rfl⟩ | ⟨d, rfl, hd, H₃, F₃, hR₃, hnone⟩)
  · refine runs_bind (kHeapFree_spec H₂) ?_
    rintro - k₃ ⟨F₃, H₃⟩
    exact runs_pure ⟨F₂.trans F₃, Or.inl ⟨rfl, H₃⟩⟩
  refine runs_modify_bind ?_
  generalize hk₄ : k₃.setMem p _ = k₄
  have H₄ : Holds k₄ O (T + {.block p} + {.dir d}) := by rw [← hk₄]; exact H₃.setMem _ _
  have F₄ : Frame T k k₄ := by
    rw [← hk₄]
    exact (F₂.trans F₃.left).trans (Frame.setMem hpT _)
  have hm₄ : k₄.mem p = Function.update (Function.update (Function.update (Function.update
      (processObject processTypeProtected32 (k₁.mem p)) procPageDir d) procHeapBase userHeapBase)
      procHeapCurrent userHeapBase) procHeapLimit (userHeapBase + userHeapMaxSize) := by
    rw [← hk₄]
    simp [Kernel.setMem, hR₃.mem, hm₂]
  have hr₄ : k₄.ram = k₃.ram := by rw [← hk₄]; rfl
  clear hk₄
  refine runs_bind (kAllocMapPage_spec H₄ userHeapBase (by decide) userHeapPage) ?_
  rintro b k₅ ⟨F₅, hR₅, ⟨rfl, H₅, -⟩ | ⟨rfl, H₅, hM⟩⟩
  · refine (processMemoryUndo_spec H₅).mono ?_
    rintro q k₆ ⟨rfl, F₆, H₆⟩
    exact ⟨(F₄.trans F₅.left).trans F₆, Or.inl ⟨rfl, H₆⟩⟩
  · have hfresh : ownedAt k₄.ram d (userHeapBase / 2 ^ 22) (userHeapBase / 2 ^ 12 % 2 ^ 10) =
        none := by
      rw [ownedAt, hr₄, hnone]
      rfl
    rw [or_eq_none hfresh] at H₅
    have hm₆ : (k₅.setMem p (Function.update (k₅.mem p) procHeapCurrent
        (userHeapBase + pageSize))).mem p = Function.update (k₄.mem p) procHeapCurrent
        (userHeapBase + pageSize) := by
      simp [Kernel.setMem, hR₅.mem]
    refine runs_modify_bind (runs_pure ⟨?_, Or.inr ⟨hp, d, hd, H₅.setMem _ _, ?_, ?_,
      fun i hi => ?_⟩⟩)
    · exact (F₄.trans F₅.left).trans (Frame.setMem hpT _)
    · rw [hm₆, hm₄]
      refine NewObject.of_words (f := k₁.mem p) (by simp) fun o ho => ?_
      simp only [List.mem_cons, not_or] at ho
      rw [Function.update_of_ne ho.2.2.1, Function.update_of_ne ho.2.2.2.1,
        Function.update_of_ne ho.2.2.1, Function.update_of_ne ho.2.1, Function.update_of_ne ho.1]
    · rw [hm₆, hm₄]
      simp
    · change tableOf k₅.ram d i = none
      rw [tableOf, hM.pde i hi, hr₄]
      exact hnone i

/-- **`v86_process_memory_create`**: an object with the first megabyte mapped. -/
theorem v86ProcessMemoryCreate_spec (H : Holds k O T) :
    Runs v86ProcessMemoryCreate k fun p k' => Frame T k k' ∧
      (p = 0 ∧ Holds k' O T ∨ p ≠ 0 ∧ ∃ d, d ≠ 0 ∧ Holds k' O (T + {.block p} + {.dir d}) ∧
        NewObject processTypeV86 d (k'.mem p)) := by
  refine runs_bind (kHeapAlloc_spec H procMemSize) ?_
  rintro p k₁ ⟨F₁, ⟨rfl, H₁⟩ | ⟨hp, H₁⟩⟩
  · rw [if_pos rfl]
    exact runs_pure ⟨F₁, Or.inl ⟨rfl, H₁⟩⟩
  rw [if_neg hp]
  have hpT := (nodup_add_singleton.mp H₁.nodup).2
  refine runs_modify_bind ?_
  generalize hk₂ : k₁.setMem p _ = k₂
  have H₂ : Holds k₂ O (T + {.block p}) := by rw [← hk₂]; exact H₁.setMem _ _
  have F₂ : Frame T k k₂ := by rw [← hk₂]; exact F₁.trans (Frame.setMem hpT _)
  have hm₂ : k₂.mem p = processObject processTypeV86 (k₁.mem p) := by
    rw [← hk₂]
    exact Function.update_self _ _ _
  clear hk₂
  refine runs_bind (kCreatePageDirectory_spec H₂) ?_
  rintro res k₃ (⟨rfl, rfl⟩ | ⟨d, rfl, hd, H₃, F₃, hR₃, hnone⟩)
  · refine runs_bind (kHeapFree_spec H₂) ?_
    rintro - k₃ ⟨F₃, H₃⟩
    exact runs_pure ⟨F₂.trans F₃, Or.inl ⟨rfl, H₃⟩⟩
  refine runs_modify_bind ?_
  generalize hk₄ : k₃.setMem p _ = k₄
  have H₄ : Holds k₄ O (T + {.block p} + {.dir d}) := by rw [← hk₄]; exact H₃.setMem _ _
  have F₄ : Frame T k k₄ := by
    rw [← hk₄]
    exact (F₂.trans F₃.left).trans (Frame.setMem hpT _)
  have hm₄ : k₄.mem p = Function.update (processObject processTypeV86 (k₁.mem p)) procPageDir d := by
    rw [← hk₄]
    simp [Kernel.setMem, hR₃.mem, hm₂]
  have hr₄ : k₄.ram = k₃.ram := by rw [← hk₄]; rfl
  clear hk₄
  refine runs_bind (kV86MapLowMemory_spec H₄ (by rw [hr₄]; exact hnone)) ?_
  rintro b k₅ ⟨F₅, hR₅, H₅, -⟩
  refine runs_ite (fun _ => ?_) fun _ => ?_
  · refine runs_pure ⟨F₄.trans F₅.left, Or.inr ⟨hp, d, hd, H₅, ?_⟩⟩
    rw [hR₅.mem, hm₄]
    refine NewObject.of_words (f := k₁.mem p) (Function.update_self _ _ _) fun o ho => ?_
    simp only [List.mem_cons, not_or] at ho
    rw [Function.update_of_ne ho.1]
  · refine (processMemoryUndo_spec H₅).mono ?_
    rintro q k₆ ⟨rfl, F₆, H₆⟩
    exact ⟨(F₄.trans F₅.left).trans F₆, Or.inl ⟨rfl, H₆⟩⟩

end Memory

/-! ### Complete processes -/

/-- Every queued task runs on a descriptor that is held. -/
def TasksOwned (T : Items) : Prop := ∀ v, Item.task v ∈ T → Item.gdt (v / 8) ∈ T

/-- The object `p` has everything a process needs to run. -/
structure Ready (k : Kernel) (p : ℕ) : Prop where
  plain : SelectorsPlain (k.mem p)
  dir : k.mem p procPageDir ≠ 0
  tss : k.mem p procTssBase ≠ 0
  sel : k.mem p procTssSelector ≠ 0
  sel_lt : k.mem p procTssSelector < 2 ^ 16
  desc : descriptorBase (k.gdt (k.mem p procTssSelector / 8)) = k.mem p procTssBase
  kind : k.mem p procType = processTypeProtected32 ∧
      k.mem (k.mem p procTssBase) tssOwnerProcess = p ∧ k.mem p procSlotIndex ≠ noIndex ∧
      k.mem p procLdtSelector ≠ 0 ∨
    k.mem p procType = processTypeV86 ∧ k.mem (k.mem p procTssBase) tssOwnerProcess = 0 ∧
      k.mem p procSlotIndex = noIndex ∧ k.mem p procLdtSelector = 0

/-- The object `p` is a process that `process_create` has finished. -/
structure Complete (k : Kernel) (p : ℕ) : Prop extends Ready k p where
  entry : k.mem p procTableIndex ≠ noIndex

/-- The items of a process, with its place in the scheduler. -/
def queuedItems (p : ℕ) (w : ℕ → ℕ) : Items := procItems p w + {.task (w procTssSelector)}

theorem block_mem_procItems (p : ℕ) (w : ℕ → ℕ) : Item.block p ∈ procItems p w := by
  simp [procItems]

theorem mem_itemIf {v none : ℕ} (h : v ≠ none) (x : Item) : x ∈ itemIf v none x := by
  rw [itemIf_of_ne h]
  exact Multiset.mem_singleton_self x

theorem tss_mem_procItems {p : ℕ} {w : ℕ → ℕ} (h : w procTssBase ≠ 0) :
    Item.block (w procTssBase) ∈ procItems p w := by
  simp only [procItems, Multiset.mem_add]
  exact Or.inl (Or.inl (Or.inr (mem_itemIf h _)))

theorem gdt_mem_procItems {p : ℕ} {w : ℕ → ℕ} (h : w procTssSelector ≠ 0) :
    Item.gdt (w procTssSelector / 8) ∈ procItems p w := by
  simp only [procItems, Multiset.mem_add]
  exact Or.inl (Or.inr (mem_itemIf h _))

theorem ldt_mem_procItems {p : ℕ} {w : ℕ → ℕ} (h : w procLdtSelector ≠ 0) :
    Item.gdt (w procLdtSelector / 8) ∈ procItems p w := by
  simp only [procItems, Multiset.mem_add]
  exact Or.inl (Or.inl (Or.inl (Or.inl (Or.inr (mem_itemIf h _)))))

theorem ldtBase_mem_procItems {p : ℕ} {w : ℕ → ℕ} (h : w procLdtBase ≠ 0) :
    Item.block (w procLdtBase) ∈ procItems p w := by
  simp only [procItems, Multiset.mem_add]
  exact Or.inl (Or.inl (Or.inl (Or.inl (Or.inl (Or.inl (Or.inr (mem_itemIf h _)))))))

theorem slot_mem_procItems {p : ℕ} {w : ℕ → ℕ} (h : w procSlotIndex ≠ noIndex) :
    Item.slot (w procSlotIndex) ∈ procItems p w := by
  simp only [procItems, Multiset.mem_add]
  exact Or.inl (Or.inl (Or.inl (Or.inl (Or.inl (Or.inl (Or.inl (Or.inr (mem_itemIf h _))))))))

theorem dir_mem_procItems {p : ℕ} {w : ℕ → ℕ} (h : w procPageDir ≠ 0) :
    Item.dir (w procPageDir) ∈ procItems p w := by
  simp only [procItems, Multiset.mem_add]
  exact Or.inl (Or.inl (Or.inl (Or.inl (Or.inl (Or.inl (Or.inl (Or.inl (Or.inr
    (mem_itemIf h _)))))))))

theorem entry_mem_procItems {p : ℕ} {w : ℕ → ℕ} (h : w procTableIndex ≠ noIndex) :
    Item.entry (w procTableIndex) p ∈ procItems p w := by
  simp only [procItems, Multiset.mem_add]
  exact Or.inr (mem_itemIf h _)

/-- What a process is depends on its object but for the heap mark, on the owner
word of its segment and on its descriptor. -/
theorem Complete.congr {k k' : Kernel} {p : ℕ} (C : Complete k p)
    (hp : ∀ o, o ≠ procHeapCurrent → k'.mem p o = k.mem p o)
    (ht : k'.mem (k.mem p procTssBase) tssOwnerProcess =
      k.mem (k.mem p procTssBase) tssOwnerProcess)
    (hg : descriptorBase (k'.gdt (k.mem p procTssSelector / 8)) =
      descriptorBase (k.gdt (k.mem p procTssSelector / 8))) : Complete k' p := by
  have hsel := hp procTssSelector (by decide)
  have htss := hp procTssBase (by decide)
  have hldt := hp procLdtSelector (by decide)
  refine ⟨⟨⟨?_, ?_⟩, ?_, ?_, ?_, ?_, ?_, ?_⟩, ?_⟩
  · rw [hsel]; exact C.plain.1
  · rw [hldt]; exact C.plain.2
  · rw [hp procPageDir (by decide)]; exact C.dir
  · rw [htss]; exact C.tss
  · rw [hsel]; exact C.sel
  · rw [hsel]; exact C.sel_lt
  · rw [hsel, htss, hg]; exact C.desc
  · rw [hp procType (by decide), htss, ht, hp procSlotIndex (by decide), hldt]
    exact C.kind
  · rw [hp procTableIndex (by decide)]; exact C.entry

/-- A process whose items are framed stays complete. -/
theorem Complete.frame {k k' : Kernel} {T : Items} {p : ℕ} (C : Complete k p) (F : Frame T k k')
    (hT : ∀ x ∈ procItems p (k.mem p), x ∈ T) : Complete k' p :=
  C.congr (fun o _ => by rw [F.mem p (hT _ (block_mem_procItems _ _))])
    (by rw [F.mem _ (hT _ (tss_mem_procItems C.tss))])
    (by rw [F.gdt _ (Or.inr (hT _ (gdt_mem_procItems C.sel)))])

section Create

variable {k k' : Kernel} {O : ℕ → Prop} {T : Items} {p : ℕ}

/-! ### The end of both constructors -/

theorem procItems_entry {w : ℕ → ℕ} {i : ℕ} (hw : w procTableIndex = noIndex) (hi : i ≠ noIndex) :
    procItems p (Function.update w procTableIndex i) = procItems p w + {.entry i p} := by
  simp only [procItems, Function.update_self, hw, itemIf_self, itemIf_of_ne hi, add_zero,
    Function.update_of_ne (by decide : procPageDir ≠ procTableIndex),
    Function.update_of_ne (by decide : procSlotIndex ≠ procTableIndex),
    Function.update_of_ne (by decide : procLdtBase ≠ procTableIndex),
    Function.update_of_ne (by decide : procLdtBitmap ≠ procTableIndex),
    Function.update_of_ne (by decide : procLdtSelector ≠ procTableIndex),
    Function.update_of_ne (by decide : procKstackTop ≠ procTableIndex),
    Function.update_of_ne (by decide : procTssBase ≠ procTableIndex),
    Function.update_of_ne (by decide : procTssSelector ≠ procTableIndex)]

theorem processCreateUndo_spec (H : Holds k O (T + procItems p (k.mem p)))
    (hsel : SelectorsPlain (k.mem p)) (hlt : k.mem p procTssSelector < 2 ^ 16)
    (hnot : Item.task (k.mem p procTssSelector) ∉ T) :
    Runs (processCreateUndo p) k fun q k' => q = 0 ∧ Frame T k k' ∧ Holds k' O T := by
  refine runs_bind (processDestroy_spec (Q := 0) (by rw [add_zero]; exact H) hsel hlt
    (Or.inr ⟨rfl, hnot⟩)) ?_
  rintro - k₁ ⟨F₁, H₁⟩
  exact runs_pure ⟨rfl, F₁, H₁⟩

/-- **The end of both constructors**: the process is registered and queued, or
everything is given back. -/
theorem processPublish_spec (H : Holds k O (T + procItems p (k.mem p)))
    (hidx : k.mem p procTableIndex = noIndex) (hsel : SelectorsPlain (k.mem p))
    (hlt : k.mem p procTssSelector < 2 ^ 16) (hnot : Item.task (k.mem p procTssSelector) ∉ T) :
    Runs (processPublish p) k fun q k' => Frame T k k' ∧
      (q = 0 ∧ Holds k' O T ∨ q = p ∧ Holds k' O (T + queuedItems p (k'.mem p)) ∧
        k'.gdt = k.gdt ∧ k'.ram = k.ram ∧ ∃ i < processMaxCount,
          k'.mem = Function.update k.mem p (Function.update (k.mem p) procTableIndex i)) := by
  obtain ⟨rest, hrest⟩ := Multiset.exists_cons_of_mem (block_mem_procItems p (k.mem p))
  have hitems : T + procItems p (k.mem p) = T + rest + {.block p} := by
    rw [hrest, ← Multiset.singleton_add]
    abel
  have H₀ := H
  rw [hitems] at H₀
  refine runs_bind (processRegister_spec H₀ hidx) ?_
  rintro eax k₁ (⟨rfl, rfl⟩ | ⟨rfl, i, hi, H₁, F₁, hm₁, hg₁, hr₁⟩)
  · rw [if_pos rfl]
    refine (processCreateUndo_spec H hsel hlt hnot).mono ?_
    rintro q k₂ ⟨rfl, F₂, H₂⟩
    exact ⟨F₂, Or.inl ⟨rfl, H₂⟩⟩
  rw [if_neg one_ne_zero]
  have hin : i ≠ noIndex := by
    simp only [processMaxCount] at hi
    simp only [noIndex]
    omega
  have hp₁ : k₁.mem p = Function.update (k.mem p) procTableIndex i := by
    rw [hm₁, Function.update_self]
  have hsel₁ : k₁.mem p procTssSelector = k.mem p procTssSelector := by
    rw [hp₁, Function.update_of_ne (by decide)]
  have hldt₁ : k₁.mem p procLdtSelector = k.mem p procLdtSelector := by
    rw [hp₁, Function.update_of_ne (by decide)]
  have H₁' : Holds k₁ O (T + procItems p (k₁.mem p)) := by
    rw [hp₁, procItems_entry hidx hin, ← add_assoc, hitems]
    exact H₁
  have hnot₁ : Item.task (k.mem p procTssSelector) ∉ T + procItems p (k₁.mem p) := by
    rw [Multiset.mem_add, not_or]
    exact ⟨hnot, task_not_mem_procItems _ _ _⟩
  refine runs_bind (kSchedulerAddProcess_spec H₁' hsel₁ hlt hnot₁) ?_
  rintro eax k₂ (⟨rfl, rfl⟩ | ⟨rfl, H₂, F₂, hm₂, hg₂, hr₂⟩)
  · rw [if_pos rfl]
    refine (processCreateUndo_spec H₁' ⟨by rw [hsel₁]; exact hsel.1, by rw [hldt₁]; exact hsel.2⟩
      (by rw [hsel₁]; exact hlt) (by rw [hsel₁]; exact hnot)).mono ?_
    rintro q k₂ ⟨rfl, F₂, H₂⟩
    exact ⟨F₁.left.trans F₂, Or.inl ⟨rfl, H₂⟩⟩
  · rw [if_neg one_ne_zero]
    refine runs_pure ⟨F₁.left.trans F₂.left, Or.inr ⟨rfl, ?_, hg₂.trans hg₁, hr₂.trans hr₁, i, hi,
      hm₂.trans hm₁⟩⟩
    rw [queuedItems, hm₂, ← add_assoc, hsel₁]
    exact H₂

/-- A new descriptor is not the descriptor of a queued task. -/
theorem task_not_mem_of_gdt {X : Items} {i : ℕ} (hT : TasksOwned T) (H : Holds k O (T + X))
    (hi : Item.gdt i ∈ X) : Item.task (i * 8) ∉ T := by
  intro h
  have hg := hT _ h
  rw [Nat.mul_div_cancel i (by decide)] at hg
  exact Multiset.disjoint_left.mp (Multiset.nodup_add.mp H.nodup).2.2 hg hi

theorem Holds.gdt_range (H : Holds k O T) {i : ℕ} (hi : Item.gdt i ∈ T) :
    i ≠ 0 ∧ i * 8 < 2 ^ 16 := by
  obtain ⟨h1, h2⟩ := H.gdt.range i hi
  simp only [gdtFirstDynamic, gdtEntryCount] at h1 h2
  omega

theorem Holds.task_zero (H : Holds k O T) {X : Items} (hX : ∀ x ∈ X, x ∈ T) : Item.task 0 ∉ X :=
  fun h => (H.task.range 0 (hX _ h)).1 rfl

/-- A process that is ready to run is not queued yet. -/
theorem Ready.not_queued (hR : Ready k p) (hT : TasksOwned T)
    (H : Holds k O (T + procItems p (k.mem p))) : Item.task (k.mem p procTssSelector) ∉ T := by
  rw [← Nat.div_mul_cancel (Nat.dvd_of_mod_eq_zero hR.plain.1)]
  exact task_not_mem_of_gdt hT H (gdt_mem_procItems hR.sel)

/-- A process that is ready to run is registered and queued, or given back. -/
theorem processPublish_ready (H : Holds k O (T + procItems p (k.mem p))) (hT : TasksOwned T)
    (hidx : k.mem p procTableIndex = noIndex) (hR : Ready k p) (htp : k.mem p procTssBase ≠ p) :
    Runs (processPublish p) k fun q k' => Frame T k k' ∧
      (q = 0 ∧ Holds k' O T ∨ q = p ∧ Holds k' O (T + queuedItems p (k'.mem p)) ∧ Complete k' p ∧
        k'.ram = k.ram ∧ (∀ o, o ≠ procTableIndex → k'.mem p o = k.mem p o) ∧
        ∀ q, q ≠ p → k'.mem q = k.mem q) := by
  refine (processPublish_spec H hidx hR.plain hR.sel_lt (hR.not_queued hT H)).mono ?_
  rintro q k' ⟨F, ⟨rfl, H'⟩ | ⟨hqp, H', hg, hr, i, hi, hm⟩⟩
  · exact ⟨F, Or.inl ⟨rfl, H'⟩⟩
  have hw : ∀ o, o ≠ procTableIndex → k'.mem p o = k.mem p o := fun o ho => by
    rw [hm, Function.update_self, Function.update_of_ne ho]
  have hq : ∀ q, q ≠ p → k'.mem q = k.mem q := fun q hq => by rw [hm, Function.update_of_ne hq]
  refine ⟨F, Or.inr ⟨hqp, H', ⟨⟨?_, ?_, ?_, ?_, ?_, ?_, ?_⟩, ?_⟩, hr, hw, hq⟩⟩
  · exact ⟨by rw [hw _ (by decide)]; exact hR.plain.1, by rw [hw _ (by decide)]; exact hR.plain.2⟩
  · rw [hw _ (by decide)]; exact hR.dir
  · rw [hw _ (by decide)]; exact hR.tss
  · rw [hw _ (by decide)]; exact hR.sel
  · rw [hw _ (by decide)]; exact hR.sel_lt
  · rw [hw _ (by decide), hw _ (by decide), hg]; exact hR.desc
  · rw [hw procType (by decide), hw procTssBase (by decide), hw procSlotIndex (by decide),
      hw procLdtSelector (by decide), hq _ htp]
    exact hR.kind
  · rw [hm, Function.update_self, Function.update_self]
    simp only [processMaxCount] at hi
    simp only [noIndex]
    omega

/-! ### The items of an object as it grows -/

theorem procItems_new {type d : ℕ} {w : ℕ → ℕ} (hw : NewObject type d w) (hd : d ≠ 0) :
    procItems p w = {.block p} + {.dir d} := by
  simp only [procItems, hw.dir, hw.slot, hw.entry, hw.rest procLdtBase (by decide),
    hw.rest procLdtBitmap (by decide), hw.rest procLdtSelector (by decide),
    hw.rest procTssBase (by decide), hw.rest procTssSelector (by decide),
    hw.rest procKstackTop (by decide), itemIf_self, itemIf_of_ne hd, add_zero]

theorem procItems_slot {w w' : ℕ → ℕ} {slot : ℕ} (hslot : slot ≠ noIndex)
    (hz : w procSlotIndex = noIndex) (h : w' procSlotIndex = slot)
    (hrest : ∀ o, o ∉ [procSlotIndex, procSlotBase] → w' o = w o) :
    procItems p w' = procItems p w + {.slot slot} := by
  simp only [procItems, h, hz, hrest procPageDir (by decide), hrest procLdtBase (by decide),
    hrest procLdtBitmap (by decide), hrest procLdtSelector (by decide),
    hrest procKstackTop (by decide), hrest procTssBase (by decide),
    hrest procTssSelector (by decide), hrest procTableIndex (by decide), itemIf_self,
    itemIf_of_ne hslot, add_zero]
  abel

theorem procItems_ldt {w w' : ℕ → ℕ} {ldt bitmap i : ℕ} (hldt : ldt ≠ 0) (hbitmap : bitmap ≠ 0)
    (hi : i ≠ 0) (hz : ∀ o ∈ [procLdtBase, procLdtBitmap, procLdtSelector], w o = 0)
    (h₁ : w' procLdtBase = ldt) (h₂ : w' procLdtBitmap = bitmap) (h₃ : w' procLdtSelector = i * 8)
    (hrest : ∀ o, o ∉ ldtFields → w' o = w o) :
    procItems p w' = procItems p w + {.block ldt} + {.block bitmap} + {.gdt i} := by
  have hi8 : i * 8 ≠ 0 := by omega
  simp only [procItems, h₁, h₂, h₃, hz procLdtBase (by decide), hz procLdtBitmap (by decide),
    hz procLdtSelector (by decide), hrest procPageDir (by decide), hrest procSlotIndex (by decide),
    hrest procKstackTop (by decide), hrest procTssBase (by decide),
    hrest procTssSelector (by decide), hrest procTableIndex (by decide), itemIf_self,
    itemIf_of_ne hldt, itemIf_of_ne hbitmap, itemIf_of_ne hi8, Nat.mul_div_cancel i (by decide : 0 < 8),
    add_zero]
  abel

theorem procItems_tss {w w' : ℕ → ℕ} {tss stack i : ℕ} (htss : tss ≠ 0) (hi : i ≠ 0)
    (hstack : sub32 (stack + pageSize) pageSize = stack)
    (hz : ∀ o ∈ [procTssBase, procKstackTop, procTssSelector], w o = 0)
    (h : w' = Function.update (Function.update (Function.update w procTssBase tss) procKstackTop
      (stack + pageSize)) procTssSelector (i * 8)) :
    procItems p w' = procItems p w + {.block tss} + {.block stack} + {.gdt i} := by
  have hi8 : i * 8 ≠ 0 := by omega
  have hs : stack + pageSize ≠ 0 := by simp [pageSize]
  have h₁ : w' procTssBase = tss := by simp [h]
  have h₂ : w' procKstackTop = stack + pageSize := by simp [h]
  have h₃ : w' procTssSelector = i * 8 := by simp [h]
  have hrest : ∀ o, o ∉ [procTssBase, procKstackTop, procTssSelector] → w' o = w o := by
    intro o ho
    simp only [List.mem_cons, not_or] at ho
    rw [h, Function.update_of_ne ho.2.2.1, Function.update_of_ne ho.2.1, Function.update_of_ne ho.1]
  simp only [procItems, h₁, h₂, h₃, hz procTssBase (by decide), hz procKstackTop (by decide),
    hz procTssSelector (by decide), hrest procPageDir (by decide), hrest procSlotIndex (by decide),
    hrest procLdtBase (by decide), hrest procLdtBitmap (by decide),
    hrest procLdtSelector (by decide), hrest procTableIndex (by decide), itemIf_self,
    itemIf_of_ne htss, itemIf_of_ne hs, itemIf_of_ne hi8, hstack,
    Nat.mul_div_cancel i (by decide : 0 < 8), add_zero]
  abel

/-! ### VM86 processes -/

/-- The segment of a new VM86 object. -/
theorem v86ProcessCreateTss_stage {d : ℕ} (H : Holds k O (T + procItems p (k.mem p)))
    (hnew : NewObject processTypeV86 d (k.mem p)) (hd : d ≠ 0) :
    Runs (v86ProcessCreateTss p) k fun b k' => Frame T k k' ∧
      Holds k' O (T + procItems p (k'.mem p)) ∧ k'.mem p procTableIndex = noIndex ∧
        (b = false ∧ k'.mem p = k.mem p ∨ b = true ∧ Ready k' p ∧ k'.mem p procTssBase ≠ p ∧
          k'.mem p procType = processTypeV86) := by
  have hitems : T + procItems p (k.mem p) = T + {.dir d} + {.block p} := by
    rw [procItems_new hnew hd]
    abel
  have H₁ := H
  rw [hitems] at H₁
  refine (v86ProcessCreateTss_spec H₁ (hnew.rest _ (by decide)) (hnew.rest _ (by decide))).mono ?_
  rintro b k' ⟨F, ⟨rfl, H₂, hm⟩ | ⟨rfl, tss, stack, i, H₂, hb, hown⟩⟩
  · refine ⟨F.left, ?_, by rw [hm]; exact hnew.entry, Or.inl ⟨rfl, hm⟩⟩
    rw [hm, hitems]
    exact H₂
  obtain ⟨hi0, hi16⟩ := H₂.gdt_range (i := i) (by simp)
  have htss : tss ≠ 0 := H₂.block_ne_zero (by simp)
  have htp : tss ≠ p := by
    rintro rfl
    have hnd := (Multiset.nodup_add.mp (Multiset.nodup_add.mp H₂.nodup).1).1
    exact (nodup_add_singleton.mp hnd).2 (by simp)
  have hitems₂ : T + procItems p (k'.mem p) =
      T + {.dir d} + {.block p} + {.block tss} + {.block stack} + {.gdt i} := by
    rw [procItems_tss htss hi0 (H₂.stack_top (by simp)).2 (fun o ho => hnew.rest o (by
      simp only [List.mem_cons, List.not_mem_nil, or_false] at ho ⊢
      tauto)) hb.object, ← add_assoc, ← add_assoc, ← add_assoc, hitems]
  have hw : ∀ o, o ∉ [procTssBase, procKstackTop, procTssSelector] → k'.mem p o = k.mem p o :=
    fun o ho => hb.object_of_notMem ho
  have hsel : k'.mem p procTssSelector = i * 8 := by simp [hb.object]
  have hbase : k'.mem p procTssBase = tss := by simp [hb.object]
  have hready : Ready k' p := by
    refine ⟨⟨by rw [hsel]; omega, ?_⟩, ?_, ?_, ?_, ?_, ?_, Or.inr ⟨?_, ?_, ?_, ?_⟩⟩
    · rw [hw _ (by decide), hnew.rest _ (by decide)]
    · rw [hw _ (by decide), hnew.dir]
      exact hd
    · rw [hbase]
      exact htss
    · rw [hsel]
      omega
    · rw [hsel]
      exact hi16
    · rw [hsel, hbase, Nat.mul_div_cancel i (by decide), hb.desc]
      exact descriptorBase_buildSystemDescriptor (H₂.block_lt (by simp)) (by decide)
    · rw [hw _ (by decide)]
      exact hnew.type
    · rw [hbase, hown]
    · rw [hw _ (by decide)]
      exact hnew.slot
    · rw [hw _ (by decide), hnew.rest _ (by decide)]
  rw [← hitems₂] at H₂
  refine ⟨F.left, H₂, ?_, Or.inr ⟨rfl, hready, by rw [hbase]; exact htp, ?_⟩⟩
  · rw [hw _ (by decide)]
    exact hnew.entry
  · rw [hw _ (by decide)]
    exact hnew.type

/-- **`v86_process_create`**: a complete process, or nothing. -/
theorem v86ProcessCreate_spec (H : Holds k O T) (hT : TasksOwned T) :
    Runs v86ProcessCreate k fun p k' => Frame T k k' ∧
      (p = 0 ∧ Holds k' O T ∨ p ≠ 0 ∧ Holds k' O (T + queuedItems p (k'.mem p)) ∧ Complete k' p ∧
        k'.mem p procType = processTypeV86) := by
  refine runs_bind (v86ProcessMemoryCreate_spec H) ?_
  rintro p k₁ ⟨F₁, ⟨rfl, H₁⟩ | ⟨hp, d, hd, H₁, hnew⟩⟩
  · rw [if_pos rfl]
    exact runs_pure ⟨F₁, Or.inl ⟨rfl, H₁⟩⟩
  rw [if_neg hp]
  have hitems₁ : T + procItems p (k₁.mem p) = T + {.block p} + {.dir d} := by
    rw [procItems_new hnew hd, ← add_assoc]
  rw [← hitems₁] at H₁
  refine runs_bind (v86ProcessCreateTss_stage H₁ hnew hd) ?_
  rintro b k₂ ⟨F₂, H₂, hidx, ⟨rfl, hm₂⟩ | ⟨rfl, hready, htp, htype⟩⟩
  · have hz : k₂.mem p procTssSelector = 0 := by rw [hm₂]; exact hnew.rest _ (by decide)
    have hz' : k₂.mem p procLdtSelector = 0 := by rw [hm₂]; exact hnew.rest _ (by decide)
    refine (processCreateUndo_spec H₂ ⟨by rw [hz], by rw [hz']⟩ (by rw [hz]; decide)
      (by rw [hz]; exact H.task_zero fun _ => id)).mono ?_
    rintro q k₃ ⟨rfl, F₃, H₃⟩
    exact ⟨(F₁.trans F₂).trans F₃, Or.inl ⟨rfl, H₃⟩⟩
  · refine (processPublish_ready H₂ hT hidx hready htp).mono ?_
    rintro q k₃ ⟨F₃, ⟨rfl, H₃⟩ | ⟨rfl, H₃, hC, -, hw₃, -⟩⟩
    · exact ⟨(F₁.trans F₂).trans F₃, Or.inl ⟨rfl, H₃⟩⟩
    · exact ⟨(F₁.trans F₂).trans F₃, Or.inr ⟨hp, H₃, hC, (hw₃ _ (by decide)).trans htype⟩⟩

end Create

end VirtualKernel
