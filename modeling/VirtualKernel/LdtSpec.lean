/-
`process_create_random_ldt`: a local descriptor table with three segments at
random entries, or nothing.

The entries of the three selectors differ because each allocation sets a bit
that the next ones see; so the code descriptor is still in its place when the
other two have been written (`ldt_code`).
-/
import VirtualKernel.Teardown

namespace VirtualKernel

open Lib

/-! ### The bitmap of a table -/

theorem bitOf_setBit_self (f : ℕ → ℕ) (i : ℕ) : bitOf (setBit f i) i = true := by
  rw [bitOf, setBit, Function.update_self, Nat.testBit_or, Nat.testBit_two_pow_self, Bool.or_true]

theorem bitOf_setBit_of_ne (f : ℕ → ℕ) {i j : ℕ} (h : j ≠ i) :
    bitOf (setBit f i) j = bitOf f j := by
  rw [bitOf, bitOf, setBit]
  by_cases hw : j / 32 * 4 = i / 32 * 4
  · rw [hw, Function.update_self, Nat.testBit_or, Nat.testBit_two_pow_of_ne (by omega),
      Bool.or_false]
  · rw [Function.update_of_ne hw]

theorem ldtAllocScan_found {f : ℕ → ℕ} {count : ℕ} (hc : 1 < count) : ∀ {ebx esi i : ℕ}, 1 ≤ esi →
    ldtAllocScan f count ebx esi = some i → 1 ≤ i ∧ i < count ∧ bitOf f i = false := by
  intro ebx
  induction ebx with
  | zero => intro esi i _ h; cases h
  | succ ebx ih =>
    intro esi i hesi h
    rw [ldtAllocScan] at h
    set e := if esi < count then esi else 1 with he
    have he1 : 1 ≤ e ∧ e < count := by
      rw [he]
      split_ifs <;> omega
    by_cases hb : bitOf f e = true
    · rw [if_pos hb] at h
      exact ih (by omega) h
    · rw [if_neg hb] at h
      obtain rfl := Option.some.inj h
      exact ⟨he1.1, he1.2, by simpa using hb⟩

section Ldt

variable {k k' : Kernel} {O : ℕ → Prop} {T : Items} {p : ℕ}

/-- **`ldt_alloc_selector`**: a selector for an entry that was free and is
marked now. -/
theorem ldtAllocSelector_spec (k : Kernel) (bitmap : ℕ) :
    Runs (ldtAllocSelector bitmap ldtEntryCount) k fun res k' => ∃ tsc,
      res = none ∧ k' = { k with tsc := tsc } ∨
      ∃ c, res = some (c * 8 ||| 7) ∧ 1 ≤ c ∧ c < ldtEntryCount ∧ bitOf (k.mem bitmap) c = false ∧
        k' = Kernel.setMem { k with tsc := tsc } bitmap (setBit (k.mem bitmap) c) := by
  refine runs_modifyGet ?_
  rw [if_neg (by decide)]
  dsimp only
  refine ⟨fun n => k.tsc (n + 1), ?_⟩
  cases hscan : ldtAllocScan (k.mem bitmap) ldtEntryCount ldtEntryCount
      (k.tsc 0 % 2 ^ 32 % (ldtEntryCount - 1) + 1) with
  | none => exact Or.inl ⟨rfl, rfl⟩
  | some c =>
    obtain ⟨h1, h2, h3⟩ := ldtAllocScan_found (by decide) (by omega) hscan
    exact Or.inr ⟨c, rfl, h1, h2, h3, rfl⟩

/-- The offset of an entry in the table, from its selector. -/
theorem ldt_offset : ∀ c < ldtEntryCount, (c * 8 ||| 7) &&& 0xFFF8 = c * 8 := by decide +kernel

/-- What the three segments leave in the object and in the table: the code
descriptor is at the entry of the code selector. -/
structure LdtWritten (base p ldt : ℕ) (k k' : Kernel) : Prop where
  object : ∀ o ∉ [procUserCs, procUserDs, procUserSs], k'.mem p o = k.mem p o
  code : ∃ c < ldtEntryCount, k'.mem p procUserCs = c * 8 ||| 7 ∧
    k'.mem ldt (c * 8) = (segmentDescriptor base (userCodeSize - 1) 0xFA).1 ∧
    k'.mem ldt (c * 8 + 4) = (segmentDescriptor base (userCodeSize - 1) 0xFA).2

/-- The three writes of descriptors, at three different entries. -/
theorem processWriteSegments_spec {ldt base c e g : ℕ} (hp : p ≠ ldt) (hc : c < ldtEntryCount)
    (he : e < ldtEntryCount) (hg : g < ldtEntryCount) (hec : e ≠ c) (hgc : g ≠ c)
    (hcs : k.mem p procUserCs = c * 8 ||| 7) (hds : k.mem p procUserDs = e * 8 ||| 7)
    (hss : k.mem p procUserSs = g * 8 ||| 7) (hbase : base < 2 ^ 32) :
    Runs (processWriteSegments p ldt base) k fun eax k' => eax = 1 ∧
      (∃ f, k' = k.setMem ldt f ∧ f (c * 8) = (segmentDescriptor base (userCodeSize - 1) 0xFA).1 ∧
        f (c * 8 + 4) = (segmentDescriptor base (userCodeSize - 1) 0xFA).2) := by
  have hbase' : add32 base userCodeOffset = base := add32_of_lt hbase
  refine runs_modifyGet_bind (runs_modify_bind (runs_modifyGet_bind (runs_modify_bind
    (runs_modifyGet_bind (runs_modify_bind (runs_pure ⟨rfl, ?_⟩))))))
  simp only [Kernel.setMem, Function.update_self, Function.update_of_ne hp, hcs, hds, hss,
    ldt_offset c hc, ldt_offset e he, ldt_offset g hg, hbase', Function.update_idem]
  refine ⟨_, rfl, ?_, ?_⟩
  · rw [Function.update_of_ne (by omega), Function.update_of_ne (by omega),
      Function.update_of_ne (by omega), Function.update_of_ne (by omega),
      Function.update_of_ne (by omega), Function.update_self]
  · rw [Function.update_of_ne (by omega), Function.update_of_ne (by omega),
      Function.update_of_ne (by omega), Function.update_of_ne (by omega), Function.update_self]

/-- The way back: the descriptor and both blocks are released. -/
theorem processLdtFreeGdt_spec {ldt bitmap i : ℕ}
    (H : Holds k O (T + {.block ldt} + {.block bitmap} + {.gdt i})) :
    Runs (processLdtFreeGdt (i * 8) bitmap ldt) k fun eax k' => eax = 0 ∧ Frame T k k' ∧
      Holds k' O T := by
  refine runs_bind (gdtFreeSelector_spec H) ?_
  rintro - k₁ ⟨F₁, H₁, -⟩
  refine runs_bind (kHeapFree_spec H₁) ?_
  rintro - k₂ ⟨F₂, H₂⟩
  refine runs_bind (kHeapFree_spec H₂) ?_
  rintro - k₃ ⟨F₃, H₃⟩
  exact runs_pure ⟨rfl, (F₁.left.left.trans F₂.left).trans F₃, H₃⟩

theorem Holds.setTsc (H : Holds k O T) (tsc : ℕ → ℕ) : Holds { k with tsc := tsc } O T :=
  H.congr_state rfl rfl rfl rfl rfl rfl rfl rfl rfl

theorem Frame.setTsc (T : Items) (k : Kernel) (tsc : ℕ → ℕ) : Frame T k { k with tsc := tsc } :=
  ⟨.refl _ _, fun _ _ => rfl, fun _ _ => rfl, fun _ _ _ => rfl, rfl, rfl, rfl, rfl, rfl⟩

/-- One selector, stored in the field `off` of the object. -/
theorem ldtSelector_step {ldt bitmap i off : ℕ} {fail next : KM ℕ} {R : ℕ → Kernel → Prop}
    (H : Holds k O (T + {.block p} + {.block ldt} + {.block bitmap} + {.gdt i}))
    (hfail : ∀ k', Holds k' O (T + {.block p} + {.block ldt} + {.block bitmap} + {.gdt i}) →
      Frame T k k' → k'.mem = k.mem → Runs fail k' R)
    (hnext : ∀ c k', c < ldtEntryCount → bitOf (k.mem bitmap) c = false →
      Holds k' O (T + {.block p} + {.block ldt} + {.block bitmap} + {.gdt i}) → Frame T k k' →
      k'.mem p = Function.update (k.mem p) off (c * 8 ||| 7) →
      k'.mem bitmap = setBit (k.mem bitmap) c → k'.gdt = k.gdt → Runs next k' R) :
    Runs (ldtAllocSelector bitmap ldtEntryCount >>= fun res =>
      match res with
      | none => fail
      | some sel => store p off sel >>= fun _ => next) k R := by
  have hnd := (Multiset.nodup_add.mp H.nodup).1
  obtain ⟨hnd, hb⟩ := nodup_add_singleton.mp hnd
  have hbp : bitmap ≠ p := by
    rintro rfl
    exact hb (by simp)
  have hbT : Item.block bitmap ∉ T := fun h => hb (by simp [h])
  have hpT : Item.block p ∉ T := (nodup_add_singleton.mp (Multiset.nodup_add.mp hnd).1).2
  refine runs_bind (ldtAllocSelector_spec k bitmap) ?_
  rintro res k₁ ⟨tsc, ⟨rfl, rfl⟩ | ⟨c, rfl, -, hc, hbit, rfl⟩⟩
  · exact hfail _ (H.setTsc tsc) (Frame.setTsc T k tsc) rfl
  · refine runs_modify_bind (hnext c _ hc hbit (((H.setTsc tsc).setMem _ _).setMem _ _)
      (((Frame.setTsc T k tsc).trans (Frame.setMem hbT _)).trans (Frame.setMem hpT _)) ?_ ?_ rfl)
    · simp [Kernel.setMem, Function.update_of_ne hbp.symm]
    · simp [Kernel.setMem, Function.update_of_ne hbp]

/-- **The three selectors** of a process, or everything released. -/
theorem processAllocLdtSelectors_spec {ldt bitmap i base : ℕ}
    (H : Holds k O (T + {.block p} + {.block ldt} + {.block bitmap} + {.gdt i}))
    (hbase : base < 2 ^ 32) :
    Runs (processAllocLdtSelectors p (i * 8) bitmap ldt base) k fun eax k' => Frame T k k' ∧
      (eax = 0 ∧ Holds k' O (T + {.block p}) ∧
          (∀ o ∉ [procUserCs, procUserDs, procUserSs], k'.mem p o = k.mem p o) ∨
        eax = 1 ∧ Holds k' O (T + {.block p} + {.block ldt} + {.block bitmap} + {.gdt i}) ∧
          LdtWritten base p ldt k k' ∧ k'.gdt = k.gdt) := by
  have hpl : p ≠ ldt := by
    rintro rfl
    have hnd := (Multiset.nodup_add.mp (Multiset.nodup_add.mp H.nodup).1).1
    exact (nodup_add_singleton.mp hnd).2 (by simp)
  -- the way back from any of the three
  have hback : ∀ k', Holds k' O (T + {.block p} + {.block ldt} + {.block bitmap} + {.gdt i}) →
      Frame T k k' → (∀ o ∉ [procUserCs, procUserDs, procUserSs], k'.mem p o = k.mem p o) →
      Runs (processLdtFreeGdt (i * 8) bitmap ldt) k' fun eax k' => Frame T k k' ∧
        (eax = 0 ∧ Holds k' O (T + {.block p}) ∧
            (∀ o ∉ [procUserCs, procUserDs, procUserSs], k'.mem p o = k.mem p o) ∨
          eax = 1 ∧ Holds k' O (T + {.block p} + {.block ldt} + {.block bitmap} + {.gdt i}) ∧
            LdtWritten base p ldt k k' ∧ k'.gdt = k.gdt) := by
    intro k₁ H₁ F₁ hw₁
    refine (processLdtFreeGdt_spec H₁).mono ?_
    rintro eax k₂ ⟨rfl, F₂, H₂⟩
    refine ⟨F₁.trans F₂.left, Or.inl ⟨rfl, H₂, fun o ho => ?_⟩⟩
    rw [F₂.mem p (by simp), hw₁ o ho]
  refine ldtSelector_step H (fun k' H' F' hm => hback k' H' F' fun o _ => by rw [hm]) ?_
  intro c k₁ hc _ H₁ F₁ hp₁ hb₁ hg₁
  refine ldtSelector_step H₁ (fun k' H' F' hm => hback k' H' (F₁.trans F') fun o ho => ?_) ?_
  · simp only [List.mem_cons, not_or] at ho
    rw [hm, hp₁, Function.update_of_ne ho.1]
  intro e k₂ he hbe H₂ F₂ hp₂ hb₂ hg₂
  have hec : e ≠ c := by
    rintro rfl
    rw [hb₁, bitOf_setBit_self] at hbe
    cases hbe
  refine ldtSelector_step H₂ (fun k' H' F' hm => hback k' H' ((F₁.trans F₂).trans F')
    fun o ho => ?_) ?_
  · simp only [List.mem_cons, not_or] at ho
    rw [hm, hp₂, hp₁, Function.update_of_ne ho.2.1, Function.update_of_ne ho.1]
  intro g k₃ hg hbg H₃ F₃ hp₃ hb₃ hg₃
  have hgc : g ≠ c := by
    rintro rfl
    rw [hb₂, bitOf_setBit_of_ne _ hec.symm, hb₁, bitOf_setBit_self] at hbg
    cases hbg
  have hcs : k₃.mem p procUserCs = c * 8 ||| 7 := by simp [hp₃, hp₂, hp₁]
  have hds : k₃.mem p procUserDs = e * 8 ||| 7 := by simp [hp₃, hp₂]
  have hss : k₃.mem p procUserSs = g * 8 ||| 7 := by simp [hp₃]
  refine (processWriteSegments_spec hpl hc he hg hec hgc hcs hds hss hbase).mono ?_
  rintro eax k₄ ⟨rfl, f, rfl, hf1, hf2⟩
  have hlT : Item.block ldt ∉ T := by
    have hnd := (Multiset.nodup_add.mp (Multiset.nodup_add.mp H.nodup).1).1
    exact fun h => (nodup_add_singleton.mp hnd).2 (by simp [h])
  have hmem : (k₃.setMem ldt f).mem p = k₃.mem p := Function.update_of_ne hpl _ _
  refine ⟨((F₁.trans F₂).trans F₃).trans (Frame.setMem hlT f), Or.inr ⟨rfl, H₃.setMem _ _,
    ⟨fun o ho => ?_, c, hc, ?_, ?_, ?_⟩, hg₃.trans (hg₂.trans hg₁)⟩⟩
  · simp only [List.mem_cons, not_or] at ho
    rw [hmem, hp₃, hp₂, hp₁, Function.update_of_ne ho.2.2.1, Function.update_of_ne ho.2.1,
      Function.update_of_ne ho.1]
  · rw [hmem, hcs]
  · exact (congrFun (Function.update_self _ _ _) _).trans hf1
  · exact (congrFun (Function.update_self _ _ _) _).trans hf2

/-- The fields of the object that belong to the local descriptor table. -/
abbrev ldtFields : List ℕ :=
  [procLdtBase, procLdtBitmap, procLdtSelector, procUserCs, procUserDs, procUserSs]

/-- The object `p` has a local descriptor table, which it names in its
fields. -/
structure LdtBuilt (base p ldt bitmap i : ℕ) (k k' : Kernel) : Prop where
  ldtField : k'.mem p procLdtBase = ldt
  bitmapField : k'.mem p procLdtBitmap = bitmap
  selectorField : k'.mem p procLdtSelector = i * 8
  object : ∀ o ∉ ldtFields, k'.mem p o = k.mem p o
  code : ∃ c < ldtEntryCount, k'.mem p procUserCs = c * 8 ||| 7 ∧
    k'.mem ldt (c * 8) = (segmentDescriptor base (userCodeSize - 1) 0xFA).1 ∧
    k'.mem ldt (c * 8 + 4) = (segmentDescriptor base (userCodeSize - 1) 0xFA).2

/-- **`process_create_random_ldt`**: a table, or nothing; the fields may then
keep stale pointers. -/
theorem processCreateRandomLdt_spec {base : ℕ} (H : Holds k O (T + {.block p}))
    (hbase : base < 2 ^ 32) :
    Runs (processCreateRandomLdt p base) k fun eax k' => Frame T k k' ∧
      (eax = 0 ∧ Holds k' O (T + {.block p}) ∧ (∀ o ∉ ldtFields, k'.mem p o = k.mem p o) ∨
        eax = 1 ∧ ∃ ldt bitmap i, Holds k' O (T + {.block p} + {.block ldt} + {.block bitmap} +
          {.gdt i}) ∧ LdtBuilt base p ldt bitmap i k k') := by
  have hp : p ≠ 0 := H.block_ne_zero (mem_add_singleton.mpr (Or.inr rfl))
  have hpT := (nodup_add_singleton.mp H.nodup).2
  rw [processCreateRandomLdt, if_neg hp]
  refine runs_bind (kHeapAlloc_spec H ldtSize) ?_
  rintro ldt k₁ ⟨F₁, ⟨rfl, H₁⟩ | ⟨hldt, H₁⟩⟩
  · rw [if_pos rfl]
    exact runs_pure ⟨F₁.left, Or.inl ⟨rfl, H₁, fun o _ => by rw [F₁.mem p (by simp)]⟩⟩
  rw [if_neg hldt]
  have hlp : ldt ≠ p := by
    rintro rfl
    exact (nodup_add_singleton.mp H₁.nodup).2 (by simp)
  have hlT : Item.block ldt ∉ T := fun h => (nodup_add_singleton.mp H₁.nodup).2 (by simp [h])
  have hm₁ : k₁.mem p = k.mem p := F₁.mem p (by simp)
  refine runs_modify_bind (runs_modify_bind ?_)
  set k₂ := (k₁.setMem p (Function.update (k₁.mem p) procLdtBase ldt)).setMem ldt fun o =>
    if o < ldtSize then 0 else
      (k₁.setMem p (Function.update (k₁.mem p) procLdtBase ldt)).mem ldt o with hk₂
  have H₂ : Holds k₂ O (T + {.block p} + {.block ldt}) := (H₁.setMem _ _).setMem _ _
  have F₂ : Frame T k k₂ := (F₁.left.trans (Frame.setMem hpT _)).trans (Frame.setMem hlT _)
  have hm₂ : k₂.mem p = Function.update (k.mem p) procLdtBase ldt := by
    simp [hk₂, Kernel.setMem, Function.update_of_ne hlp.symm, hm₁]
  clear_value k₂
  refine runs_bind (kHeapAlloc_spec H₂ ldtBitmapSize) ?_
  rintro bitmap k₃ ⟨F₃, ⟨rfl, H₃⟩ | ⟨hbitmap, H₃⟩⟩
  · rw [if_pos rfl]
    refine runs_bind (kHeapFree_spec H₃) ?_
    rintro - k₄ ⟨F₄, H₄⟩
    refine runs_pure ⟨(F₂.trans F₃.left.left).trans F₄.left, Or.inl ⟨rfl, H₄, fun o ho => ?_⟩⟩
    simp only [List.mem_cons, not_or] at ho
    rw [F₄.mem p (by simp), F₃.mem p (by simp), hm₂, Function.update_of_ne ho.1]
  rw [if_neg hbitmap]
  have hbp : bitmap ≠ p := by
    rintro rfl
    exact (nodup_add_singleton.mp H₃.nodup).2 (by simp)
  have hbT : Item.block bitmap ∉ T := fun h => (nodup_add_singleton.mp H₃.nodup).2 (by simp [h])
  have hm₃ : k₃.mem p = k₂.mem p := F₃.mem p (by simp)
  refine runs_modify_bind (runs_modify_bind (runs_modify_bind ?_))
  generalize hk₄ : ((((k₃.setMem p (Function.update (k₃.mem p) procLdtBitmap bitmap)).setMem bitmap
    _).setMem bitmap _)) = k₄
  have H₄ : Holds k₄ O (T + {.block p} + {.block ldt} + {.block bitmap}) := by
    rw [← hk₄]
    exact ((H₃.setMem _ _).setMem _ _).setMem _ _
  have F₄ : Frame T k k₄ := by
    rw [← hk₄]
    exact ((((F₂.trans F₃.left.left).trans (Frame.setMem hpT _)).trans
      (Frame.setMem hbT _))).trans (Frame.setMem hbT _)
  have hm₄ : k₄.mem p = Function.update (Function.update (k.mem p) procLdtBase ldt) procLdtBitmap
      bitmap := by
    rw [← hk₄]
    simp [Kernel.setMem, Function.update_of_ne hbp.symm, hm₃, hm₂]
  refine runs_bind (gdtCreateDescriptor_spec H₄ _) ?_
  rintro sel k₅ (⟨rfl, rfl⟩ | ⟨i, rfl, -, -, H₅, F₅, hm₅, hg₅⟩)
  · refine runs_bind (kHeapFree_spec H₄) ?_
    rintro - k₅ ⟨F₅, H₅⟩
    refine runs_bind (kHeapFree_spec H₅) ?_
    rintro - k₆ ⟨F₆, H₆⟩
    refine runs_pure ⟨(F₄.trans F₅.left.left).trans F₆.left, Or.inl ⟨rfl, H₆, fun o ho => ?_⟩⟩
    simp only [List.mem_cons, not_or] at ho
    rw [F₆.mem p (by simp), F₅.mem p (by simp), hm₄, Function.update_of_ne ho.2.1,
      Function.update_of_ne ho.1]
  · refine runs_modify_bind ?_
    generalize hk₆ : k₅.setMem p (Function.update (k₅.mem p) procLdtSelector (i * 8)) = k₆
    have H₆ : Holds k₆ O (T + {.block p} + {.block ldt} + {.block bitmap} + {.gdt i}) := by
      rw [← hk₆]
      exact H₅.setMem _ _
    have F₆ : Frame T k k₆ := by
      rw [← hk₆]
      exact (F₄.trans F₅.left.left.left).trans (Frame.setMem hpT _)
    have hm₆ : k₆.mem p = Function.update (Function.update (Function.update (k.mem p) procLdtBase
        ldt) procLdtBitmap bitmap) procLdtSelector (i * 8) := by
      rw [← hk₆]
      simp [Kernel.setMem, hm₅, hm₄]
    refine (processAllocLdtSelectors_spec H₆ hbase).mono ?_
    rintro eax k₇ ⟨F₇, ⟨rfl, H₇, hw₇⟩ | ⟨rfl, H₇, hw₇, -⟩⟩
    · refine ⟨F₆.trans F₇, Or.inl ⟨rfl, H₇, fun o ho => ?_⟩⟩
      simp only [List.mem_cons, not_or, List.not_mem_nil, not_false_eq_true, and_true] at ho
      rw [hw₇ o (by simp [ho]), hm₆, Function.update_of_ne ho.2.2.1, Function.update_of_ne ho.2.1,
        Function.update_of_ne ho.1]
    · refine ⟨F₆.trans F₇, Or.inr ⟨rfl, ldt, bitmap, i, H₇, ?_, ?_, ?_, fun o ho => ?_, hw₇.code⟩⟩
      · rw [hw₇.object _ (by decide), hm₆]
        simp
      · rw [hw₇.object _ (by decide), hm₆]
        simp
      · rw [hw₇.object _ (by decide), hm₆]
        simp
      · simp only [List.mem_cons, not_or, List.not_mem_nil, not_false_eq_true, and_true] at ho
        rw [hw₇.object o (by simp [ho]), hm₆, Function.update_of_ne ho.2.2.1,
          Function.update_of_ne ho.2.1, Function.update_of_ne ho.1]

end Ldt

end VirtualKernel
