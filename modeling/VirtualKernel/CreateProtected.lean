/-
`process_create` for protected-mode processes.

A new process has, besides the items of a complete process, an entry address
that `process_prepare_test_task` can resolve and user tables only for its heap
and its gateway page (`Fresh`).  `processCreate_spec` covers both types.
-/
import VirtualKernel.CreateSpec
import Mathlib.Data.List.Find

namespace VirtualKernel

open Lib

/-- The linear base of a slot. -/
def slotBase (slot : ℕ) : ℕ := processSlotSize * slot + processAreaBase

theorem slotBase_lt {slot : ℕ} (h : slot < processMaxCount) : slotBase slot < 2 ^ 30 := by
  simp only [processMaxCount] at h
  simp only [slotBase, processSlotSize, processAreaBase]
  omega

/-- The object `p` after `process_create_random_ldt`. -/
structure LdtStage (slot d ldt bitmap i : ℕ) (k : Kernel) (p : ℕ) : Prop where
  dir : k.mem p procPageDir = d
  type : k.mem p procType = processTypeProtected32
  slotField : k.mem p procSlotIndex = slot
  base : k.mem p procSlotBase = slotBase slot
  entry : k.mem p procTableIndex = noIndex
  ldtField : k.mem p procLdtBase = ldt
  bitmapField : k.mem p procLdtBitmap = bitmap
  selectorField : k.mem p procLdtSelector = i * 8
  rest : ∀ o ∈ [procTssBase, procKstackTop, procTssSelector], k.mem p o = 0
  code : ∃ c < ldtEntryCount, k.mem p procUserCs = c * 8 ||| 7 ∧
    k.mem ldt (c * 8) = (segmentDescriptor (slotBase slot) (userCodeSize - 1) 0xFA).1 ∧
    k.mem ldt (c * 8 + 4) = (segmentDescriptor (slotBase slot) (userCodeSize - 1) 0xFA).2

/-- A process that has just been created in `slot`. -/
structure Fresh (slot : ℕ) (k : Kernel) (p : ℕ) : Prop where
  slot_lt : slot < processMaxCount
  slotField : k.mem p procSlotIndex = slot
  base : k.mem p procSlotBase = slotBase slot
  entry : entryAddress k p = some (slotBase slot)
  tables : ∀ i, i ≠ userHeapBase / 2 ^ 22 → i ≠ userSyscallGatewayPage / 2 ^ 22 →
    tableOf k.ram (k.mem p procPageDir) i = none

/-! ### The entry address -/

theorem selector_bits {c : ℕ} (hc : c < ldtEntryCount) :
    (c * 8 ||| 7).testBit 2 = true ∧ (c * 8 ||| 7) < 2 ^ 16 := by
  simp only [ldtEntryCount] at hc
  exact ⟨by rw [Nat.testBit_or, show Nat.testBit 7 2 = true by decide, Bool.or_true], Nat.or_lt_two_pow (by omega) (by decide)⟩

/-- The code descriptor of a slot: at its base, present and executable. -/
theorem codeDescriptor : ∀ slot < processMaxCount,
    descriptorBase (segmentDescriptor (slotBase slot) (userCodeSize - 1) 0xFA) = slotBase slot ∧
      (segmentDescriptor (slotBase slot) (userCodeSize - 1) 0xFA).2.testBit 15 = true ∧
      (segmentDescriptor (slotBase slot) (userCodeSize - 1) 0xFA).2.testBit 11 = true := by
  decide +kernel

/-- The entry of a task that starts at offset 0 of its code segment. -/
theorem entryAddress_eq {k : Kernel} {p slot tss ldt c : ℕ} (hslot : slot < processMaxCount)
    (hc : c < ldtEntryCount) (htss : k.mem p procTssBase = tss) (ht0 : tss ≠ 0)
    (heip : k.mem tss tssEip = 0) (hcs : k.mem tss tssCs % 2 ^ 16 = c * 8 ||| 7)
    (hldt : k.mem p procLdtBase = ldt) (hl0 : ldt ≠ 0)
    (hlow : k.mem ldt (c * 8) = (segmentDescriptor (slotBase slot) (userCodeSize - 1) 0xFA).1)
    (hhigh : k.mem ldt (c * 8 + 4) =
      (segmentDescriptor (slotBase slot) (userCodeSize - 1) 0xFA).2) :
    entryAddress k p = some (slotBase slot) := by
  obtain ⟨hb, h15, h11⟩ := codeDescriptor slot hslot
  obtain ⟨h2, -⟩ := selector_bits hc
  have hlt := slotBase_lt hslot
  unfold entryAddress
  dsimp only
  rw [htss, hldt, heip, hcs, ldt_offset c hc, hlow, hhigh, Prod.mk.eta, hb, h2, h15, h11, add_zero]
  simp only [ldtEntryCount] at hc
  rw [if_neg, if_neg (by simp), if_neg]
  · simp only [userSpaceLimit]
    omega
  · simp only [ldtSize, userCodeSize, not_true_eq_false, false_or, not_or]
    exact ⟨ht0, by omega, by omega, hl0⟩

/-- The slot that is taken depends on the slots that are held. -/
theorem Holds.firstFreeSlot_eq {k k' : Kernel} {O O' : ℕ → Prop} {T T' : Items} (H : Holds k O T)
    (H' : Holds k' O' T') (hT : ∀ i, Item.slot i ∈ T' ↔ Item.slot i ∈ T) :
    firstFreeSlot k' = firstFreeSlot k := by
  refine List.find?_congr fun i hi => ?_
  have hi := List.mem_range.mp hi
  have h : k'.slotBitmap i = k.slotBitmap i := by
    rw [Bool.eq_iff_iff, H'.slot.bit i hi, H.slot.bit i hi, hT i]
  rw [h]

section Create

variable {k : Kernel} {O : ℕ → Prop} {T : Items} {p : ℕ}

theorem items_split {X : Items} {x : Item} (T : Items) (hx : x ∈ X) :
    ∃ rest, X = rest + {x} ∧ T + X = T + rest + {x} := by
  obtain ⟨rest, rfl⟩ := Multiset.exists_cons_of_mem hx
  rw [← Multiset.singleton_add]
  exact ⟨rest, by abel, by abel⟩

theorem Ready.onlyRam {k' : Kernel} (hR : Ready k p) (h : OnlyRam k k') : Ready k' p := by
  obtain ⟨h1, h2, h3, h4, h5, h6, h7⟩ := hR
  exact ⟨by rw [h.mem]; exact h1, by rw [h.mem]; exact h2, by rw [h.mem]; exact h3,
    by rw [h.mem]; exact h4, by rw [h.mem]; exact h5, by rw [h.mem, h.gdt]; exact h6,
    by rw [h.mem]; exact h7⟩

/-- `process_install_syscall_gateway` maps one new page. -/
theorem processInstallSyscallGateway_maps {d : ℕ} {Q : Bool → Kernel → Prop} (H : Holds k O T)
    (hp : p ≠ 0) (hd : d ≠ 0) (hdir : k.mem p procPageDir = d)
    (h : Runs (onRam (allocMapPage d userSyscallGatewayPage (pagePresentUser ||| pageOwned)
      (pageOfBytes (gatewayBytes k.gateway k.drivers)))) k Q) :
    Runs (processInstallSyscallGateway p) k Q := by
  refine runs_get_bind ?_
  dsimp only
  rw [hdir, if_neg (by tauto)]
  obtain ⟨b, k', hrun, hQ⟩ := h
  refine ⟨b, k', ?_, hQ⟩
  rw [← hrun]
  simp only [onRam, StateT.run, modifyGet, MonadStateOf.modifyGet, StateT.modifyGet,
    installGateway_eq H.ram H.windows]

/-- The gateway page of a process whose directory has no table for it yet. -/
theorem processInstallSyscallGateway_spec {d : ℕ} (H : Holds k O (T + {.dir d})) (hp : p ≠ 0)
    (hd : d ≠ 0) (hdir : k.mem p procPageDir = d)
    (hnone : tableOf k.ram d (userSyscallGatewayPage / 2 ^ 22) = none) :
    Runs (processInstallSyscallGateway p) k fun b k' => Frame T k k' ∧ OnlyRam k k' ∧
      Holds k' O (T + {.dir d}) ∧ (b = true → ∀ i, i ≠ userSyscallGatewayPage / 2 ^ 22 →
        tableOf k'.ram d i = tableOf k.ram d i) := by
  refine processInstallSyscallGateway_maps H hp hd hdir ?_
  refine (kAllocMapPage_spec H userSyscallGatewayPage (by decide) _).mono ?_
  rintro b k' ⟨F, hR, ⟨rfl, H', -, -⟩ | ⟨rfl, H', hM⟩⟩
  · exact ⟨F, hR, H', fun h => by cases h⟩
  · have hfree : ownedAt k.ram d (userSyscallGatewayPage / 2 ^ 22)
        (userSyscallGatewayPage / 2 ^ 12 % 2 ^ 10) = none := by
      rw [ownedAt, hnone]
      rfl
    rw [or_eq_none hfree] at H'
    refine ⟨F, hR, H', fun _ i hi => ?_⟩
    rw [tableOf, tableOf, hM.pde i hi]

/-- The process `p` has been given the segment `tss`: it is ready to run, and its
directory, its local descriptor table and its other words are as they were. -/
structure TssStage (O : ℕ → Prop) (T : Items) (d ldt tss p : ℕ) (k k' : Kernel) : Prop where
  items : Holds k' O (T + procItems p (k'.mem p))
  ready : Ready k' p
  tss_ne : tss ≠ p
  base : k'.mem p procTssBase = tss
  words : ∀ o, o ∉ [procTssBase, procKstackTop, procTssSelector] → k'.mem p o = k.mem p o
  eip : k'.mem tss tssEip = 0
  cs : k'.mem tss tssCs % 2 ^ 16 = k.mem p procUserCs % 2 ^ 16
  ldt : k'.mem ldt = k.mem ldt
  tables : ∀ i, tableOf k'.ram d i = tableOf k.ram d i

/-- The segment of a process that has its local descriptor table. -/
theorem processCreateTss_stage {slot d ldt bitmap i : ℕ}
    (H : Holds k O (T + procItems p (k.mem p))) (S : LdtStage slot d ldt bitmap i k p)
    (hslot : slot < processMaxCount) (hd : d ≠ 0) (hldt : ldt ≠ 0) (hlp : ldt ≠ p) (hi : i ≠ 0) :
    Runs (processCreateTss p) k fun b k' => Frame T k k' ∧
      (b = false ∧ Holds k' O (T + procItems p (k'.mem p)) ∧ k'.mem p = k.mem p ∨
        b = true ∧ ∃ tss, TssStage O T d ldt tss p k k') := by
  obtain ⟨rest, hrest, hsplit⟩ := items_split T (block_mem_procItems p (k.mem p))
  have hmem : ∀ x ∈ procItems p (k.mem p), x ≠ .block p → x ∈ T + rest := by
    intro x hx hne
    rw [hrest] at hx
    exact Multiset.mem_add.mpr (Or.inr ((mem_add_singleton.mp hx).resolve_right hne))
  have H₀ := H
  rw [hsplit] at H₀
  have hdir : Item.dir d ∈ T + rest := by
    refine hmem _ ?_ (by simp)
    rw [← S.dir]
    exact dir_mem_procItems (by rw [S.dir]; exact hd)
  have hldtT : Item.block ldt ∈ T + rest := by
    refine hmem _ ?_ (by simpa using hlp)
    rw [← S.ldtField]
    exact ldtBase_mem_procItems (by rw [S.ldtField]; exact hldt)
  refine (processCreateTss_spec H₀ (S.rest _ (by decide)) (S.rest _ (by decide))).mono ?_
  rintro b k₁ ⟨F₁, ⟨rfl, H₁, hm₁⟩ | ⟨rfl, tss, stack, g, H₁, hb, hown, heip, hcs⟩⟩
  · refine ⟨F₁.left, Or.inl ⟨rfl, ?_, hm₁⟩⟩
    rw [hm₁, hsplit]
    exact H₁
  -- the object and its items with the segment
  obtain ⟨hg0, hg16⟩ := H₁.gdt_range (i := g) (by simp)
  have htss : tss ≠ 0 := H₁.block_ne_zero (by simp)
  have htp : tss ≠ p := by
    rintro rfl
    have hnd := (Multiset.nodup_add.mp (Multiset.nodup_add.mp H₁.nodup).1).1
    exact (nodup_add_singleton.mp hnd).2 (by simp)
  have hw : ∀ o, o ∉ [procTssBase, procKstackTop, procTssSelector] → k₁.mem p o = k.mem p o :=
    fun o ho => hb.object_of_notMem ho
  have hsel : k₁.mem p procTssSelector = g * 8 := by simp [hb.object]
  have hbase : k₁.mem p procTssBase = tss := by simp [hb.object]
  have hitems : T + procItems p (k₁.mem p) =
      T + rest + {.block p} + {.block tss} + {.block stack} + {.gdt g} := by
    rw [procItems_tss htss hg0 (H₁.stack_top (by simp)).2 S.rest hb.object, ← add_assoc,
      ← add_assoc, ← add_assoc, hsplit]
  have hready : Ready k₁ p := by
    refine ⟨⟨by rw [hsel]; omega, ?_⟩, ?_, ?_, ?_, ?_, ?_, Or.inl ⟨?_, ?_, ?_, ?_⟩⟩
    · rw [hw _ (by decide), S.selectorField]
      omega
    · rw [hw _ (by decide), S.dir]
      exact hd
    · rw [hbase]
      exact htss
    · rw [hsel]
      omega
    · rw [hsel]
      exact hg16
    · rw [hsel, hbase, Nat.mul_div_cancel g (by decide), hb.desc]
      exact descriptorBase_buildSystemDescriptor (H₁.block_lt (by simp)) (by decide)
    · rw [hw _ (by decide), S.type]
    · rw [hbase, hown]
    · rw [hw _ (by decide), S.slotField]
      simp only [processMaxCount] at hslot
      simp only [noIndex]
      omega
    · rw [hw _ (by decide), S.selectorField]
      omega
  rw [← hitems] at H₁
  exact ⟨F₁.left, Or.inr ⟨rfl, tss, H₁, hready, htp, hbase, hw, heip, hcs, F₁.mem ldt hldtT,
    fun i => F₁.ram.tableOf_eq hdir i⟩⟩

/-- The segment, the gateway page and the tables of the system, for a process
that has its local descriptor table. -/
theorem processCreateTail_spec {slot d ldt bitmap i : ℕ}
    (H : Holds k O (T + procItems p (k.mem p))) (hT : TasksOwned T)
    (S : LdtStage slot d ldt bitmap i k p) (hslot : slot < processMaxCount) (hd : d ≠ 0)
    (hldt : ldt ≠ 0) (hlp : ldt ≠ p) (hi : i ≠ 0)
    (hnone : ∀ i, i ≠ userHeapBase / 2 ^ 22 → tableOf k.ram d i = none) :
    Runs (do
        if ← processCreateTss p then
          if ← processInstallSyscallGateway p then processPublish p else processCreateUndo p
        else processCreateUndo p) k fun q k' => Frame T k k' ∧
      (q = 0 ∧ Holds k' O T ∨ q = p ∧ Holds k' O (T + queuedItems p (k'.mem p)) ∧
        Complete k' p ∧ Fresh slot k' p ∧ k'.mem p procType = processTypeProtected32 ∧
        k'.mem p procHeapBase = k.mem p procHeapBase) := by
  have hsz : k.mem p procTssSelector = 0 := S.rest _ (by decide)
  have hp : p ≠ 0 := H.block_ne_zero (Multiset.mem_add.mpr (Or.inr (block_mem_procItems _ _)))
  refine runs_bind (processCreateTss_stage H S hslot hd hldt hlp hi) ?_
  rintro b k₁ ⟨F₁, ⟨rfl, H₁, hm₁⟩ | ⟨rfl, tss, Q⟩⟩
  · -- the object still has no segment
    refine (processCreateUndo_spec (O := O) (T := T) H₁ ?_ ?_ ?_).mono ?_
    · rw [hm₁]
      exact ⟨by rw [hsz], by rw [S.selectorField]; omega⟩
    · rw [hm₁, hsz]
      decide
    · rw [hm₁, hsz]
      exact H.task_zero fun x hx => Multiset.mem_add.mpr (Or.inl hx)
    · rintro q k₂ ⟨rfl, F₂, H₂⟩
      exact ⟨F₁.trans F₂, Or.inl ⟨rfl, H₂⟩⟩
  -- the gateway page
  have hdir₁ : k₁.mem p procPageDir = d := by rw [Q.words _ (by decide), S.dir]
  have hnone₁ : ∀ i, i ≠ userHeapBase / 2 ^ 22 → tableOf k₁.ram d i = none := fun i hi => by
    rw [Q.tables, hnone i hi]
  have H₁ := Q.items
  have hdirmem := dir_mem_procItems (p := p) Q.ready.dir
  rw [hdir₁] at hdirmem
  obtain ⟨rest₂, -, hsplit₂⟩ := items_split T hdirmem
  have H₁' := H₁
  rw [hsplit₂] at H₁'
  refine runs_bind (processInstallSyscallGateway_spec H₁' hp hd hdir₁ (hnone₁ _ (by decide))) ?_
  rintro b k₂ ⟨F₂, hR, H₂, htab⟩
  rw [← hsplit₂, ← hR.mem] at H₂
  have hready₂ := Q.ready.onlyRam hR
  refine runs_ite (fun hbt => ?_) fun _ => ?_
  · refine (processPublish_ready H₂ hT (by rw [hR.mem, Q.words _ (by decide), S.entry]) hready₂
      (by rw [hR.mem, Q.base]; exact Q.tss_ne)).mono ?_
    rintro q k₃ ⟨F₃, ⟨rfl, H₃⟩ | ⟨rfl, H₃, hC, hr, hw₃, hq₃⟩⟩
    · exact ⟨(F₁.trans F₂.left).trans F₃, Or.inl ⟨rfl, H₃⟩⟩
    have hw' : ∀ o, o ∉ [procTableIndex, procTssBase, procKstackTop, procTssSelector] →
        k₃.mem q o = k.mem q o := fun o ho => by
      rw [List.mem_cons, not_or] at ho
      rw [hw₃ o ho.1, hR.mem, Q.words o ho.2]
    refine ⟨(F₁.trans F₂.left).trans F₃, Or.inr ⟨rfl, H₃, hC, ⟨hslot, ?_, ?_, ?_, ?_⟩, ?_,
      hw' _ (by decide)⟩⟩
    · rw [hw' _ (by decide), S.slotField]
    · rw [hw' _ (by decide), S.base]
    · obtain ⟨c, hc, hcs', hlow, hhigh⟩ := S.code
      have hldt₃ : k₃.mem ldt = k.mem ldt := by rw [hq₃ ldt hlp, hR.mem, Q.ldt]
      have htss₃ : k₃.mem tss = k₁.mem tss := by rw [hq₃ tss Q.tss_ne, hR.mem]
      have htss : tss ≠ 0 := by
        rw [← Q.base]
        exact Q.ready.tss
      refine entryAddress_eq hslot hc ?_ htss ?_ ?_ ?_ hldt ?_ ?_
      · rw [hw₃ _ (by decide), hR.mem, Q.base]
      · rw [htss₃, Q.eip]
      · rw [htss₃, Q.cs, hcs', Nat.mod_eq_of_lt (selector_bits hc).2]
      · rw [hw' _ (by decide), S.ldtField]
      · rw [hldt₃, hlow]
      · rw [hldt₃, hhigh]
    · intro j hj1 hj2
      rw [hw' _ (by decide), S.dir, hr, htab hbt j hj2, hnone₁ j hj1]
    · rw [hw' _ (by decide), S.type]
  · refine (processCreateUndo_spec H₂ hready₂.plain hready₂.sel_lt
      (hready₂.not_queued hT H₂)).mono ?_
    rintro q k₃ ⟨rfl, F₃, H₃⟩
    exact ⟨(F₁.trans F₂.left).trans F₃, Or.inl ⟨rfl, H₃⟩⟩

/-- The local descriptor table of a new object in its slot. -/
theorem processCreateRandomLdt_stage {slot d : ℕ} {w : ℕ → ℕ}
    (hnew : NewObject processTypeProtected32 d w) (hslot : slot < processMaxCount) (hd : d ≠ 0)
    (hm : k.mem p = Function.update (Function.update w procSlotIndex slot) procSlotBase
      (slotBase slot))
    (H : Holds k O (T + {.dir d} + {.slot slot} + {.block p})) :
    Runs (processCreateRandomLdt p (slotBase slot)) k fun eax k' =>
      Frame (T + {.dir d} + {.slot slot}) k k' ∧
        (eax = 0 ∧ Holds k' O (T + {.dir d} + {.slot slot} + {.block p}) ∧
            k'.mem p procPageDir = d ∨
          eax = 1 ∧ ∃ ldt bitmap i, Holds k' O (T + procItems p (k'.mem p)) ∧
            LdtStage slot d ldt bitmap i k' p ∧ ldt ≠ 0 ∧ ldt ≠ p ∧ i ≠ 0 ∧
            k'.mem p procHeapBase = k.mem p procHeapBase) := by
  refine (processCreateRandomLdt_spec H
    (show slotBase slot < 2 ^ 32 by have := slotBase_lt hslot; omega)).mono ?_
  rintro eax k₄ ⟨F₄, ⟨rfl, H₄, hw₄⟩ | ⟨rfl, ldt, bitmap, i, H₄, hL⟩⟩
  · refine ⟨F₄, Or.inl ⟨rfl, H₄, ?_⟩⟩
    rw [hw₄ _ (by decide), hm, Function.update_of_ne (by decide), Function.update_of_ne (by decide),
      hnew.dir]
  have hsn : slot ≠ noIndex := by
    simp only [processMaxCount] at hslot
    simp only [noIndex]
    omega
  have hw : ∀ o, o ∉ [procSlotBase, procSlotIndex] → o ∉ ldtFields → k₄.mem p o = w o := by
    intro o ho ho'
    simp only [List.mem_cons, not_or] at ho
    rw [hL.object o ho', hm, Function.update_of_ne ho.1, Function.update_of_ne ho.2.1]
  have hldt : ldt ≠ 0 := H₄.block_ne_zero (by simp)
  have hbitmap : bitmap ≠ 0 := H₄.block_ne_zero (by simp)
  have hi : i ≠ 0 := (H₄.gdt_range (i := i) (by simp)).1
  have hlp : ldt ≠ p := by
    rintro rfl
    have hnd := (Multiset.nodup_add.mp (Multiset.nodup_add.mp H₄.nodup).1).1
    exact (nodup_add_singleton.mp hnd).2 (by simp)
  have S : LdtStage slot d ldt bitmap i k₄ p := by
    refine ⟨?_, ?_, ?_, ?_, ?_, hL.ldtField, hL.bitmapField, hL.selectorField, ?_, hL.code⟩
    · rw [hw _ (by decide) (by decide), hnew.dir]
    · rw [hw _ (by decide) (by decide), hnew.type]
    · rw [hL.object _ (by decide), hm, Function.update_of_ne (by decide), Function.update_self]
    · rw [hL.object _ (by decide), hm, Function.update_self]
    · rw [hw _ (by decide) (by decide), hnew.entry]
    · intro o ho
      simp only [List.mem_cons, List.not_mem_nil, or_false] at ho
      rcases ho with rfl | rfl | rfl
      all_goals rw [hw _ (by decide) (by decide), hnew.rest _ (by decide)]
  have hitems : T + procItems p (k₄.mem p) = T + {.dir d} + {.slot slot} + {.block p} +
      {.block ldt} + {.block bitmap} + {.gdt i} := by
    rw [procItems_ldt hldt hbitmap hi (w := k.mem p) (fun o ho => ?_) hL.ldtField hL.bitmapField
        hL.selectorField hL.object,
      procItems_slot hsn hnew.slot (w := w) ?_ (fun o ho => ?_),
      procItems_new hnew hd]
    · abel
    · rw [hm, Function.update_of_ne (by decide), Function.update_self]
    · simp only [List.mem_cons, not_or] at ho
      rw [hm, Function.update_of_ne ho.2.1, Function.update_of_ne ho.1]
    · simp only [List.mem_cons, List.not_mem_nil, or_false] at ho
      rw [hm]
      rcases ho with rfl | rfl | rfl
      all_goals rw [Function.update_of_ne (by decide), Function.update_of_ne (by decide),
        hnew.rest _ (by decide)]
  rw [← hitems] at H₄
  exact ⟨F₄, Or.inr ⟨rfl, ldt, bitmap, i, H₄, S, hldt, hlp, hi, hL.object _ (by decide)⟩⟩

/-- **`process_create_protected32`**: a complete process in the first free slot,
or nothing. -/
theorem processCreateProtected32_spec (H : Holds k O T) (hT : TasksOwned T) :
    Runs processCreateProtected32 k fun p k' => Frame T k k' ∧
      (p = 0 ∧ Holds k' O T ∨ p ≠ 0 ∧ ∃ slot, firstFreeSlot k = some slot ∧
        Holds k' O (T + queuedItems p (k'.mem p)) ∧ Complete k' p ∧ Fresh slot k' p ∧
        k'.mem p procType = processTypeProtected32 ∧ k'.mem p procHeapBase = userHeapBase) := by
  refine runs_bind (processMemoryCreate_spec H) ?_
  rintro p k₁ ⟨F₁, ⟨rfl, H₁⟩ | ⟨hp, d, hd, H₁, hnew, hheap, hnone⟩⟩
  · rw [if_pos rfl]
    exact runs_pure ⟨F₁, Or.inl ⟨rfl, H₁⟩⟩
  rw [if_neg hp]
  have hpT : Item.block p ∉ T := by
    have hnd := (Multiset.nodup_add.mp H₁.nodup).1
    exact (nodup_add_singleton.mp hnd).2
  -- the type is stored once more
  have hsame : k₁.setMem p (Function.update (k₁.mem p) procType processTypeProtected32) = k₁ := by
    rw [← hnew.type, Function.update_eq_self, Kernel.setMem, Function.update_eq_self]
  refine runs_modify_bind ?_
  rw [hsame]
  refine runs_bind (processSlotAlloc_spec H₁) ?_
  rintro res k₂ (⟨rfl, rfl⟩ | ⟨slot, hfirst, hslot, rfl, H₂, F₂, hm₂⟩)
  · refine runs_bind (processMemoryDestroy_spec H₁ hnew.dir) ?_
    rintro - k₃ ⟨F₃, H₃⟩
    exact runs_pure ⟨F₁.trans F₃, Or.inl ⟨rfl, H₃⟩⟩
  have hfirst : firstFreeSlot k = some slot := by
    rw [← hfirst, H.firstFreeSlot_eq H₁ fun i => by simp]
  refine runs_modify_bind ?_
  generalize hk₃ : k₂.setMem p _ = k₃
  have hm₃ : k₃.mem p = Function.update (Function.update (k₁.mem p) procSlotIndex slot)
      procSlotBase (slotBase slot) := by
    rw [← hk₃]
    simp [Kernel.setMem, hm₂, slotBase]
  have H₃ : Holds k₃ O (T + {.dir d} + {.slot slot} + {.block p}) := by
    rw [← hk₃, show T + {.dir d} + {.slot slot} + {.block p} =
      T + {.block p} + {.dir d} + {.slot slot} by abel]
    exact H₂.setMem _ _
  have hnone₃ : ∀ i, i ≠ userHeapBase / 2 ^ 22 → tableOf k₃.ram d i = none := fun i hi => by
    rw [← hk₃]
    change tableOf k₂.ram d i = none
    rw [F₂.ram.tableOf_eq (d := d) (by simp [dirsOf]), hnone i hi]
  have F₃ : Frame T k k₃ := by
    rw [← hk₃]
    exact (F₁.trans F₂.left.left).trans (Frame.setMem hpT _)
  clear hk₃
  refine runs_bind (processCreateRandomLdt_stage hnew hslot hd hm₃ H₃) ?_
  rintro eax k₄ ⟨F₄, ⟨rfl, H₄, hdir₄⟩ | ⟨rfl, ldt, bitmap, i, H₄, S, hldt, hlp, hi, hheap₄⟩⟩
  · -- the slot and the address space go back
    rw [if_pos rfl]
    rw [show T + {.dir d} + {.slot slot} + {.block p} =
      T + {.block p} + {.dir d} + {.slot slot} by abel] at H₄
    refine runs_bind (processSlotFree_spec H₄) ?_
    rintro - k₅ ⟨F₅, H₅, hm₅⟩
    refine runs_bind (processMemoryDestroy_spec H₅ (by rw [hm₅, hdir₄])) ?_
    rintro - k₆ ⟨F₆, H₆⟩
    exact runs_pure ⟨((F₃.trans F₄.left.left).trans F₅.left.left).trans F₆, Or.inl ⟨rfl, H₆⟩⟩
  rw [if_neg one_ne_zero]
  refine (processCreateTail_spec H₄ hT S hslot hd hldt hlp hi fun j hj => ?_).mono ?_
  · rw [F₄.ram.tableOf_eq (d := d) (by simp [dirsOf]), hnone₃ j hj]
  · rintro q k₅ ⟨F₅, ⟨rfl, H₅⟩ | ⟨rfl, H₅, hC, hF, htype, hheap₅⟩⟩
    · exact ⟨(F₃.trans F₄.left.left).trans F₅, Or.inl ⟨rfl, H₅⟩⟩
    · refine ⟨(F₃.trans F₄.left.left).trans F₅, Or.inr ⟨hp, slot, hfirst, H₅, hC, hF, htype, ?_⟩⟩
      rw [hheap₅, hheap₄, hm₃, Function.update_of_ne (by decide), Function.update_of_ne (by decide),
        hheap]

/-- **`process_create`**: a complete process that is queued, or nothing. -/
theorem processCreate_spec (H : Holds k O T) (hT : TasksOwned T) (type : ℕ) :
    Runs (processCreate type) k fun p k' => Frame T k k' ∧
      (p = 0 ∧ Holds k' O T ∨
        p ≠ 0 ∧ Holds k' O (T + queuedItems p (k'.mem p)) ∧ Complete k' p) := by
  rw [processCreate]
  refine runs_ite (fun _ => ?_) fun _ => runs_ite (fun _ => ?_) fun _ => ?_
  · refine (processCreateProtected32_spec H hT).mono ?_
    rintro p k' ⟨F, h | ⟨hp, slot, -, H', hC, -, -⟩⟩
    · exact ⟨F, Or.inl h⟩
    · exact ⟨F, Or.inr ⟨hp, H', hC⟩⟩
  · refine (v86ProcessCreate_spec H hT).mono ?_
    rintro p k' ⟨F, h | ⟨hp, H', hC, -⟩⟩
    · exact ⟨F, Or.inl h⟩
    · exact ⟨F, Or.inr ⟨hp, H', hC⟩⟩
  · exact runs_pure ⟨.refl _ _, Or.inl ⟨rfl, H⟩⟩

end Create

end VirtualKernel
