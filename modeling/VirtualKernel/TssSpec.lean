/-
`process_create_tss` and `v86_process_create_tss`: a task state segment with
its kernel stack and its descriptor, or nothing.

`createTss_spec` is about the part that both share.  What they do differently
is where the owner of the segment is stored: a protected-mode process is named
at `TSS_OWNER_PROCESS`, where `exception_terminate_current` looks, a VM86
process behind its I/O bitmap.
-/
import VirtualKernel.LdtSpec

namespace VirtualKernel

open Lib

/-! ### Descriptors of segments -/

private theorem testBit_topByte (j : ℕ) :
    (0xFF000000 : ℕ).testBit j = (decide (24 ≤ j) && decide (j < 32)) := by
  have h : (0xFF000000 : ℕ) = (2 ^ 8 - 1) <<< 24 := by decide
  rw [h, Nat.testBit_shiftLeft, Nat.testBit_two_pow_sub_one]
  by_cases hj : 24 ≤ j <;> simp [hj]
  omega

/-- The base can be read back from the words of a descriptor, whatever is
between its bytes. -/
theorem descriptorBase_words {base mid limit : ℕ} (hb : base < 2 ^ 32)
    (hmid : ∀ j, j < 8 ∨ 24 ≤ j → mid.testBit j = false) :
    descriptorBase (base % 2 ^ 16 * 2 ^ 16 + limit % 2 ^ 16,
      base / 2 ^ 16 % 2 ^ 8 ||| mid ||| (base &&& 0xFF000000)) = base := by
  have hlow : (base % 2 ^ 16 * 2 ^ 16 + limit % 2 ^ 16) / 2 ^ 16 % 2 ^ 16 = base % 2 ^ 16 := by
    omega
  refine Nat.eq_of_testBit_eq fun j => ?_
  rw [descriptorBase, hlow]
  simp only [Nat.testBit_or, Nat.testBit_mul_two_pow, Nat.testBit_mod_two_pow,
    Nat.testBit_div_two_pow, Nat.testBit_and, testBit_topByte]
  by_cases h16 : j < 16
  · have h1 : ¬16 ≤ j := by omega
    have h2 : ¬24 ≤ j := by omega
    simp [h16, h1, h2]
  · by_cases h24 : j < 24
    · have h1 : 16 ≤ j := by omega
      have h2 : ¬24 ≤ j := by omega
      have h3 : j - 16 < 8 := by omega
      have h4 : ¬24 ≤ j - 16 := by omega
      simp [h16, h1, h2, h3, h4, hmid (j - 16) (Or.inl h3), Nat.sub_add_cancel h1]
    · have h1 : 16 ≤ j := by omega
      have h2 : 24 ≤ j := by omega
      have h3 : ¬j - 16 < 8 := by omega
      have h4 : ¬j < 8 := by omega
      by_cases h32 : j < 32
      · have h5 : j - 24 < 8 := by omega
        simp [h16, h1, h2, h3, h4, h5, h32, hmid j (Or.inr h2), Nat.sub_add_cancel h2]
      · have h5 : ¬j - 24 < 8 := by omega
        have hbig : base.testBit j = false := Nat.testBit_lt_two_pow
          (lt_of_lt_of_le hb (Nat.pow_le_pow_right (by decide) (by omega)))
        simp [h16, h3, h5, hbig]

/-- The base can be read back from a system descriptor. -/
theorem descriptorBase_buildSystemDescriptor {base limit access : ℕ} (hb : base < 2 ^ 32)
    (ha : access < 2 ^ 8) :
    descriptorBase (buildSystemDescriptor base limit access) = base := by
  rw [buildSystemDescriptor, Nat.lor_assoc (base / 2 ^ 16 % 2 ^ 8)]
  refine descriptorBase_words hb fun j hj => ?_
  rw [Nat.testBit_or, Nat.testBit_mul_two_pow, Nat.testBit_mul_two_pow, Nat.testBit_mod_two_pow]
  rcases hj with hj | hj
  · simp [show ¬8 ≤ j by omega, show ¬16 ≤ j by omega]
  · have hacc : access.testBit (j - 8) = false := Nat.testBit_lt_two_pow
      (lt_of_lt_of_le ha (Nat.pow_le_pow_right (by decide) (by omega)))
    simp [hacc, show ¬j - 16 < 4 by omega]

/-- The busy mark does not change the base. -/
theorem descriptorBase_setBusy (busy : Bool) (desc : ℕ × ℕ) :
    descriptorBase (setBusy busy desc) = descriptorBase desc := by
  have h9 := Nat.testBit_eq_decide_div_mod_eq (x := desc.2) (i := 9)
  unfold setBusy
  split_ifs with h1 h2
  · rfl
  · have hz : desc.2 / 2 ^ 9 % 2 = 0 := by
      rw [h9, h2] at h1
      simp only [decide_eq_true_eq] at h1
      omega
    rw [descriptorBase, descriptorBase]
    dsimp only
    rw [show (desc.2 + 2 ^ 9) % 2 ^ 8 = desc.2 % 2 ^ 8 by omega,
      show (desc.2 + 2 ^ 9) / 2 ^ 24 = desc.2 / 2 ^ 24 by omega]
  · have hz : desc.2 / 2 ^ 9 % 2 = 1 := by
      rw [h9] at h1
      simp only [Bool.not_eq_true] at h2
      rw [h2] at h1
      simpa using h1
    rw [descriptorBase, descriptorBase]
    dsimp only
    rw [show (desc.2 - 2 ^ 9) % 2 ^ 8 = desc.2 % 2 ^ 8 by omega,
      show (desc.2 - 2 ^ 9) / 2 ^ 24 = desc.2 / 2 ^ 24 by omega]

/-! ### Filling a segment -/

/-- Only the block `tss` and the memory of the drivers differ. -/
structure TssOnly (tss : ℕ) (k k' : Kernel) : Prop where
  eq : k' = { k.setMem tss (k'.mem tss) with drivers := k'.drivers }
  storage : k'.drivers.storageInitialized = k.drivers.storageInitialized

section Tss

variable {k k' : Kernel} {O : ℕ → Prop} {T : Items} {p tss : ℕ}

namespace TssOnly

theorem refl (tss : ℕ) (k : Kernel) : TssOnly tss k k :=
  ⟨by simp [Kernel.setMem], rfl⟩

theorem trans {k'' : Kernel} (h : TssOnly tss k k') (h' : TssOnly tss k' k'') :
    TssOnly tss k k'' := by
  refine ⟨?_, h'.storage.trans h.storage⟩
  rw [h'.eq, h.eq]
  simp [Kernel.setMem]

theorem mem_of_ne (h : TssOnly tss k k') {q : ℕ} (hq : q ≠ tss) : k'.mem q = k.mem q := by
  rw [h.eq]
  exact Function.update_of_ne hq _ _

theorem holds (h : TssOnly tss k k') (H : Holds k O T) : Holds k' O T := by
  rw [h.eq]
  exact H.congr_state rfl rfl rfl rfl rfl rfl rfl rfl rfl

theorem frame (h : TssOnly tss k k') (hT : Item.block tss ∉ T) : Frame T k k' := by
  have hs := h.storage
  rw [h.eq] at hs ⊢
  exact { Frame.setMem hT _ with storage := hs }

end TssOnly

/-- The stack fields that belong to the drivers. -/
abbrev stackFields : List ℕ := [tssEsp1, tssSs1, tssEsp2, tssSs2]

theorem prepareStack_spec {window esp espField ssField selector : ℕ} (hs : espField ∈ stackFields)
    (hs' : ssField ∈ stackFields) :
    Runs (prepareStack tss window esp espField ssField selector) k fun _ k' => TssOnly tss k k' ∧
      ∀ o ∉ stackFields, k'.mem tss o = k.mem tss o := by
  refine runs_modify_bind (runs_modify ⟨⟨?_, rfl⟩, fun o ho => ?_⟩)
  · simp [Kernel.setMem]
  · have h1 : o ≠ espField := fun h => ho (h ▸ hs)
    have h2 : o ≠ ssField := fun h => ho (h ▸ hs')
    simp [Kernel.setMem, setLow, Function.update_of_ne h1, Function.update_of_ne h2]

theorem keyboardPrepareProcess_spec (k : Kernel) (p tss : ℕ) :
    Runs (keyboardPrepareProcess p tss) k fun _ k' => TssOnly tss k k' ∧
      ∀ o ∉ stackFields, k'.mem tss o = k.mem tss o := by
  refine runs_get_bind (runs_ite (fun _ => ?_) fun _ => ?_)
  · exact runs_pure ⟨.refl _ _, fun _ _ => rfl⟩
  · exact prepareStack_spec (by decide) (by decide)

theorem graphicsPrepareProcess_spec (k : Kernel) (p tss : ℕ) :
    Runs (graphicsPrepareProcess p tss) k fun _ k' => TssOnly tss k k' ∧
      ∀ o ∉ stackFields, k'.mem tss o = k.mem tss o := by
  refine runs_get_bind (runs_ite (fun _ => runs_ite (fun _ => ?_) fun _ => ?_)
    fun _ => runs_ite (fun _ => ?_) fun _ => ?_)
  · exact runs_pure ⟨.refl _ _, fun _ _ => rfl⟩
  · exact prepareStack_spec (by decide) (by decide)
  · exact runs_pure ⟨.refl _ _, fun _ _ => rfl⟩
  · exact prepareStack_spec (by decide) (by decide)

/-! ### The common part of both constructors -/

/-- The object `p` has a task state segment, which it names in its fields. -/
structure TssBuilt (p tss stack i limit : ℕ) (k k' : Kernel) : Prop where
  object : k'.mem p = Function.update (Function.update (Function.update (k.mem p) procTssBase tss)
    procKstackTop (stack + pageSize)) procTssSelector (i * 8)
  desc : k'.gdt i = buildSystemDescriptor tss limit 0x89

theorem TssBuilt.object_of_notMem {tss stack i limit o : ℕ} (hb : TssBuilt p tss stack i limit k k')
    (ho : o ∉ [procTssBase, procKstackTop, procTssSelector]) : k'.mem p o = k.mem p o := by
  simp only [List.mem_cons, not_or] at ho
  rw [hb.object, Function.update_of_ne ho.2.2.1, Function.update_of_ne ho.2.1,
    Function.update_of_ne ho.1]

/-- The top of a kernel stack, and back. -/
theorem Holds.stack_top (H : Holds k O T) {a : ℕ} (hs : Item.block a ∈ T) :
    add32 a pageSize = a + pageSize ∧ sub32 (a + pageSize) pageSize = a := by
  obtain ⟨-, h⟩ := H.block_range hs
  simp only [kheapBase, kheapMaxSize] at h
  refine ⟨add32_of_lt (by simp only [pageSize]; omega), ?_⟩
  rw [sub32_of_le (by omega) (by simp only [pageSize]; omega)]
  omega

/-- **The common part of the two constructors**: a segment, a a and a
descriptor, or nothing and an unchanged object.  `E cs f` is what `fields`
establishes of the words `f` of the segment from the code selector `cs` of the
object. -/
theorem createTss_spec {objectSize limit : ℕ} {owner : ℕ → (ℕ → ℕ) → ℕ → ℕ}
    {fields : ℕ → ℕ → KM Unit} {E : ℕ → (ℕ → ℕ) → Prop}
    (hfields : ∀ k tss, tss ≠ p → Runs (fields p tss) k fun _ k' => TssOnly tss k k' ∧
      k'.mem tss tssOwnerProcess = k.mem tss tssOwnerProcess ∧ E (k.mem p procUserCs) (k'.mem tss))
    (H : Holds k O (T + {.block p})) (hz₁ : k.mem p procTssBase = 0)
    (hz₂ : k.mem p procKstackTop = 0) :
    Runs (createTss p objectSize limit owner fields) k fun b k' => Frame T k k' ∧
      (b = false ∧ Holds k' O (T + {.block p}) ∧ k'.mem p = k.mem p ∨
        b = true ∧ ∃ tss stack i, Holds k' O (T + {.block p} + {.block tss} + {.block stack} +
          {.gdt i}) ∧ TssBuilt p tss stack i limit k k' ∧
          (∃ z, (∀ o < objectSize, z o = 0) ∧
            k'.mem tss tssOwnerProcess = owner p z tssOwnerProcess) ∧
          E (k.mem p procUserCs) (k'.mem tss)) := by
  have hp : p ≠ 0 := H.block_ne_zero (mem_add_singleton.mpr (Or.inr rfl))
  have hpT := (nodup_add_singleton.mp H.nodup).2
  rw [createTss, if_neg hp]
  refine runs_bind (kHeapAlloc_spec H objectSize) ?_
  rintro tss k₁ ⟨F₁, ⟨rfl, H₁⟩ | ⟨htss, H₁⟩⟩
  · rw [if_pos rfl]
    exact runs_pure ⟨F₁.left, Or.inl ⟨rfl, H₁, F₁.mem p (by simp)⟩⟩
  rw [if_neg htss]
  have htp : tss ≠ p := by
    rintro rfl
    exact (nodup_add_singleton.mp H₁.nodup).2 (by simp)
  have htT : Item.block tss ∉ T := fun h => (nodup_add_singleton.mp H₁.nodup).2 (by simp [h])
  have hm₁ : k₁.mem p = k.mem p := F₁.mem p (by simp)
  refine runs_modify_bind (runs_modify_bind (runs_modify_bind ?_))
  -- the cleared object with its owner
  set z : ℕ → ℕ := fun o => if o < objectSize then 0 else k₁.mem tss o with hz
  generalize hk₂ : Kernel.setMem _ tss _ = k₂
  have hk₂' : k₂ = (k₁.setMem p (Function.update (k₁.mem p) procTssBase tss)).setMem tss
      (owner p z) := by
    rw [← hk₂]
    simp [Kernel.setMem, hz, Function.update_of_ne htp]
  clear hk₂
  have H₂ : Holds k₂ O (T + {.block p} + {.block tss}) := by
    rw [hk₂']
    exact (H₁.setMem _ _).setMem _ _
  have F₂ : Frame T k k₂ := by
    rw [hk₂']
    exact (F₁.left.trans (Frame.setMem hpT _)).trans (Frame.setMem htT _)
  have hm₂ : k₂.mem p = Function.update (k.mem p) procTssBase tss := by
    rw [hk₂']
    simp [Kernel.setMem, Function.update_of_ne htp.symm, hm₁]
  have ht₂ : k₂.mem tss = owner p z := by
    rw [hk₂']
    exact Function.update_self _ _ _
  clear hk₂'
  refine runs_bind (kHeapAlloc_spec H₂ pageSize) ?_
  rintro stack k₃ ⟨F₃, ⟨rfl, H₃⟩ | ⟨hstack, H₃⟩⟩
  · -- no stack: the segment is freed and its field cleared
    rw [if_pos rfl]
    refine runs_bind (kHeapFree_spec H₃) ?_
    rintro - k₄ ⟨F₄, H₄⟩
    refine runs_modify_bind (runs_pure ⟨?_, Or.inl ⟨rfl, H₄.setMem _ _, ?_⟩⟩)
    · exact ((F₂.trans F₃.left.left).trans F₄.left).trans (Frame.setMem hpT _)
    · have hm₄ : k₄.mem p = Function.update (k.mem p) procTssBase tss := by
        rw [F₄.mem p (by simp), F₃.mem p (by simp), hm₂]
      simp only [Kernel.setMem, Function.update_self, hm₄, Function.update_idem]
      rw [← hz₁, Function.update_eq_self]
  rw [if_neg hstack]
  obtain ⟨hadd, -⟩ := H₃.stack_top (a := stack) (by simp)
  have hm₃ : k₃.mem p = Function.update (k.mem p) procTssBase tss := by
    rw [F₃.mem p (by simp), hm₂]
  have ht₃ : k₃.mem tss = owner p z := by rw [F₃.mem tss (by simp), ht₂]
  refine runs_modify_bind (runs_modify_bind ?_)
  rw [hadd]
  generalize hk₄ : Kernel.setMem _ tss _ = k₄
  have hk₄' : k₄ = (k₃.setMem p (Function.update (k₃.mem p) procKstackTop (stack + pageSize))).setMem
      tss (setLow (Function.update (owner p z) tssEsp0 (stack + pageSize)) tssSs0 kernelDs) := by
    rw [← hk₄]
    simp [Kernel.setMem, Function.update_of_ne htp, ht₃]
  clear hk₄
  have H₄ : Holds k₄ O (T + {.block p} + {.block tss} + {.block stack}) := by
    rw [hk₄']
    exact (H₃.setMem _ _).setMem _ _
  have F₄ : Frame T k k₄ := by
    rw [hk₄']
    exact ((F₂.trans F₃.left.left).trans (Frame.setMem hpT _)).trans (Frame.setMem htT _)
  have hm₄ : k₄.mem p = Function.update (Function.update (k.mem p) procTssBase tss) procKstackTop
      (stack + pageSize) := by
    rw [hk₄']
    simp [Kernel.setMem, Function.update_of_ne htp.symm, hm₃]
  have ht₄ : k₄.mem tss tssOwnerProcess = owner p z tssOwnerProcess := by
    rw [hk₄']
    simp [Kernel.setMem, setLow]
  clear hk₄'
  refine runs_bind (hfields k₄ tss htp) ?_
  rintro - k₅ ⟨F₅, hown₅, hE₅⟩
  have H₅ := F₅.holds H₄
  have hm₅ : k₅.mem p = k₄.mem p := F₅.mem_of_ne htp.symm
  have G₅ : Frame T k k₅ := F₄.trans (F₅.frame htT)
  refine runs_bind (gdtCreateDescriptor_spec H₅ _) ?_
  rintro sel k₆ (⟨rfl, rfl⟩ | ⟨i, rfl, -, -, H₆, F₆, hm₆, hg₆⟩)
  · -- no descriptor: stack and segment are freed and their fields cleared
    refine runs_bind (kHeapFree_spec H₅) ?_
    rintro - k₆ ⟨F₆, H₆⟩
    refine runs_modify_bind ?_
    generalize hk₇ : k₆.setMem p _ = k₇
    have H₇ : Holds k₇ O (T + {.block p} + {.block tss}) := by
      rw [← hk₇]
      exact H₆.setMem _ _
    have F₇ : Frame T k k₇ := by
      rw [← hk₇]
      exact (G₅.trans F₆.left.left).trans (Frame.setMem hpT _)
    have hm₇ : k₇.mem p = Function.update (k.mem p) procTssBase tss := by
      rw [← hk₇]
      simp only [Kernel.setMem, Function.update_self]
      rw [F₆.mem p (by simp), hm₅, hm₄, Function.update_idem]
      rw [Function.update_eq_self_iff, Function.update_of_ne (by decide), hz₂]
    refine runs_bind (kHeapFree_spec H₇) ?_
    rintro - k₈ ⟨F₈, H₈⟩
    refine runs_modify_bind (runs_pure ⟨?_, Or.inl ⟨rfl, H₈.setMem _ _, ?_⟩⟩)
    · exact (F₇.trans F₈.left).trans (Frame.setMem hpT _)
    · have hm₈ : k₈.mem p = Function.update (k.mem p) procTssBase tss := by
        rw [F₈.mem p (by simp), hm₇]
      simp only [Kernel.setMem, Function.update_self, hm₈, Function.update_idem]
      rw [← hz₁, Function.update_eq_self]
  · refine runs_modify_bind (runs_pure ⟨?_, Or.inr ⟨rfl, tss, stack, i, H₆.setMem _ _, ⟨?_, hg₆⟩,
      ⟨z, fun o ho => if_pos ho, ?_⟩, ?_⟩⟩)
    · exact (G₅.trans F₆.left.left.left).trans (Frame.setMem hpT _)
    · simp [Kernel.setMem, hm₆, hm₅, hm₄]
    · rw [show (k₆.setMem p _).mem tss = k₆.mem tss from Function.update_of_ne htp _ _, hm₆, hown₅,
        ht₄]
    · rw [show (k₆.setMem p _).mem tss = k₆.mem tss from Function.update_of_ne htp _ _, hm₆]
      rw [hm₄] at hE₅
      simpa using hE₅

/-! ### The two constructors -/

/-- **`process_create_tss`**: the owner stands where the exception handler
looks for it, and the task starts at offset 0 of its code segment. -/
theorem processCreateTss_spec (H : Holds k O (T + {.block p})) (hz₁ : k.mem p procTssBase = 0)
    (hz₂ : k.mem p procKstackTop = 0) :
    Runs (processCreateTss p) k fun b k' => Frame T k k' ∧
      (b = false ∧ Holds k' O (T + {.block p}) ∧ k'.mem p = k.mem p ∨
        b = true ∧ ∃ tss stack i, Holds k' O (T + {.block p} + {.block tss} + {.block stack} +
          {.gdt i}) ∧ TssBuilt p tss stack i 0x67 k k' ∧ k'.mem tss tssOwnerProcess = p ∧
          k'.mem tss tssEip = 0 ∧ k'.mem tss tssCs % 2 ^ 16 = k.mem p procUserCs % 2 ^ 16) := by
  refine (createTss_spec (E := fun cs f => f tssEip = 0 ∧ f tssCs % 2 ^ 16 = cs % 2 ^ 16) ?_ H hz₁
    hz₂).mono ?_
  · intro k tss htp
    refine runs_bind (keyboardPrepareProcess_spec k p tss) ?_
    rintro - k₁ ⟨F₁, hw₁⟩
    refine runs_bind (graphicsPrepareProcess_spec k₁ p tss) ?_
    rintro - k₂ ⟨F₂, hw₂⟩
    have hp₂ : k₂.mem p = k.mem p := by
      rw [F₂.mem_of_ne htp.symm, F₁.mem_of_ne htp.symm]
    refine runs_modify ⟨(F₁.trans F₂).trans ⟨by simp [Kernel.setMem], rfl⟩, ?_, ?_, ?_⟩
    · simp only [Kernel.setMem, Function.update_self]
      rw [← hw₁ _ (by decide), ← hw₂ _ (by decide)]
      simp [tssFields, setLow, setHigh]
    · simp [Kernel.setMem, tssFields, setLow, setHigh]
    · simp only [Kernel.setMem, Function.update_self, tssFields, setLow, setHigh, hp₂]
      simp
  · rintro b k' ⟨F, h | ⟨rfl, tss, stack, i, H', hb, ⟨z, -, hown⟩, hE⟩⟩
    · exact ⟨F, Or.inl h⟩
    · refine ⟨F, Or.inr ⟨rfl, tss, stack, i, H', hb, ?_, hE⟩⟩
      rw [hown]
      exact Function.update_self _ _ _

/-- **`v86_process_create_tss`**: the word that the exception handler reads is
zero. -/
theorem v86ProcessCreateTss_spec (H : Holds k O (T + {.block p})) (hz₁ : k.mem p procTssBase = 0)
    (hz₂ : k.mem p procKstackTop = 0) :
    Runs (v86ProcessCreateTss p) k fun b k' => Frame T k k' ∧
      (b = false ∧ Holds k' O (T + {.block p}) ∧ k'.mem p = k.mem p ∨
        b = true ∧ ∃ tss stack i, Holds k' O (T + {.block p} + {.block tss} + {.block stack} +
          {.gdt i}) ∧ TssBuilt p tss stack i v86TssLimit k k' ∧
          k'.mem tss tssOwnerProcess = 0) := by
  refine (createTss_spec (E := fun _ _ => True) ?_ H hz₁ hz₂).mono ?_
  · intro k tss htp
    refine runs_modify ⟨⟨by simp [Kernel.setMem], rfl⟩, ?_, trivial⟩
    simp [Kernel.setMem, v86TssFields, setLow, setHigh]
  · rintro b k' ⟨F, h | ⟨rfl, tss, stack, i, H', hb, ⟨z, hz, hown⟩, -⟩⟩
    · exact ⟨F, Or.inl h⟩
    · refine ⟨F, Or.inr ⟨rfl, tss, stack, i, H', hb, ?_⟩⟩
      rw [hown]
      simp only [Function.update_of_ne (by decide : tssOwnerProcess ≠ v86IoBitmapTerminator),
        Function.update_of_ne (by decide : tssOwnerProcess ≠ v86TssOwnerProcess)]
      exact hz _ (by decide)

end Tss

end VirtualKernel
