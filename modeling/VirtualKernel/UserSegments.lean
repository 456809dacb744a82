/-
The segments of user mode.

A protected process runs with three selectors of its local descriptor table.
They name three different entries, of privilege 3, for the code, the data and the
stack of its slot, and they do so in every state that the system reaches: nobody
rewrites the table of a live process.

* **`created_segments`** — what `process_create` leaves in the table;
* **`reach_segments`** — every live protected process has these segments;
* **`segments_confined`** — what the processor makes of them: each process is
  confined to its slot, and no address is in the segments of two processes.
-/
import VirtualKernel.Objects
import VirtualKernel.Leaks
import VirtualKernel.Descriptors

namespace VirtualKernel

open Lib

/-- The object words `f` and the table `l` have the code, data and stack segments
of the slot at `base` in the entries `c`, `e` and `g`. -/
structure Segments (base c e g : ℕ) (f l : ℕ → ℕ) : Prop where
  code_lt : c < ldtEntryCount
  data_lt : e < ldtEntryCount
  stack_lt : g < ldtEntryCount
  data_ne : e ≠ c
  stack_ne : g ≠ c ∧ g ≠ e
  cs : f procUserCs = c * 8 ||| 7
  ds : f procUserDs = e * 8 ||| 7
  ss : f procUserSs = g * 8 ||| 7
  code : (l (c * 8), l (c * 8 + 4)) =
    segmentDescriptor (add32 base userCodeOffset) (userCodeSize - 1) 0xFA
  data : (l (e * 8), l (e * 8 + 4)) =
    segmentDescriptor (add32 base userDataOffset) (userDataSize - 1) 0xF2
  stack : (l (g * 8), l (g * 8 + 4)) =
    segmentDescriptor (add32 base userStackOffset) (userStackSize - 1) 0xF2

/-- The process `p` has the segments of its slot. -/
def HasSegments (k : Kernel) (p : ℕ) : Prop := k.mem p procLdtBase ≠ 0 ∧
  ∃ c e g, Segments (k.mem p procSlotBase) c e g (k.mem p) (k.mem (k.mem p procLdtBase))

/-- The words of the object that the segments depend on. -/
abbrev segmentFields : List ℕ := [procSlotBase, procLdtBase, procUserCs, procUserDs, procUserSs]

theorem Segments.congr {base c e g : ℕ} {f f' l : ℕ → ℕ} (h : Segments base c e g f l)
    (hf : ∀ o ∈ segmentFields, f' o = f o) : Segments base c e g f' l where
  code_lt := h.code_lt
  data_lt := h.data_lt
  stack_lt := h.stack_lt
  data_ne := h.data_ne
  stack_ne := h.stack_ne
  cs := (hf _ (by decide)).trans h.cs
  ds := (hf _ (by decide)).trans h.ds
  ss := (hf _ (by decide)).trans h.ss
  code := h.code
  data := h.data
  stack := h.stack

/-- The segments stay when the object and the table do. -/
theorem HasSegments.congr {k k' : Kernel} {p : ℕ} (h : HasSegments k p)
    (hf : ∀ o ∈ segmentFields, k'.mem p o = k.mem p o)
    (hl : k'.mem (k.mem p procLdtBase) = k.mem (k.mem p procLdtBase)) : HasSegments k' p := by
  obtain ⟨hne, c, e, g, hS⟩ := h
  have hbase := hf procLdtBase (by decide)
  have hslot := hf procSlotBase (by decide)
  refine ⟨by rw [hbase]; exact hne, c, e, g, ?_⟩
  rw [hbase, hslot, hl]
  exact hS.congr hf

/-! ### Writing the segments -/

section Write

variable {k : Kernel} {p ldt bitmap base : ℕ}

/-- The three writes of descriptors, at three different entries. -/
theorem processWriteSegments_segments {c e g : ℕ} (hp : p ≠ ldt) (hc : c < ldtEntryCount)
    (he : e < ldtEntryCount) (hg : g < ldtEntryCount) (hec : e ≠ c) (hgc : g ≠ c) (hge : g ≠ e)
    (hcs : k.mem p procUserCs = c * 8 ||| 7) (hds : k.mem p procUserDs = e * 8 ||| 7)
    (hss : k.mem p procUserSs = g * 8 ||| 7) :
    Ensures (processWriteSegments p ldt base) k fun _ k' =>
      k'.mem p = k.mem p ∧ Segments base c e g (k'.mem p) (k'.mem ldt) := by
  refine ensures_modifyGet_bind (ensures_modify_bind (ensures_modifyGet_bind (ensures_modify_bind
    (ensures_modifyGet_bind (ensures_modify_bind (ensures_pure ?_))))))
  simp only [Kernel.setMem, Function.update_self, Function.update_of_ne hp, hcs, hds, hss,
    ldt_offset c hc, ldt_offset e he, ldt_offset g hg, Function.update_idem, true_and]
  have h1 : e * 8 ≠ c * 8 := by omega
  have h2 : g * 8 ≠ c * 8 := by omega
  have h3 : g * 8 ≠ e * 8 := by omega
  refine ⟨hc, he, hg, hec, ⟨hgc, hge⟩, hcs, hds, hss, ?_, ?_, ?_⟩
  · rw [Function.update_of_ne (by omega), Function.update_of_ne (by omega),
      Function.update_of_ne (by omega), Function.update_of_ne (by omega),
      Function.update_of_ne (by omega), Function.update_self, Function.update_of_ne (by omega),
      Function.update_of_ne (by omega), Function.update_of_ne (by omega),
      Function.update_of_ne (by omega), Function.update_self]
  · rw [Function.update_of_ne (by omega), Function.update_of_ne (by omega),
      Function.update_of_ne (by omega), Function.update_self, Function.update_of_ne (by omega),
      Function.update_of_ne (by omega), Function.update_self]
  · rw [Function.update_of_ne (by omega), Function.update_self, Function.update_self]

/-- The way back returns 0. -/
theorem processLdtFreeGdt_zero (sel : ℕ) :
    Ensures (processLdtFreeGdt sel bitmap ldt) k fun eax _ => eax = 0 :=
  ensures_last fun _ _ => ensures_last fun _ _ => ensures_last fun _ _ => ensures_pure rfl

/-- One selector, stored in the field `off` of the object. -/
theorem ldtSelector_ensures {off : ℕ} {fail next : KM ℕ} {R : ℕ → Kernel → Prop} (hbp : bitmap ≠ p)
    (hfail : ∀ k', Ensures fail k' R)
    (hnext : ∀ c k', c < ldtEntryCount → bitOf (k.mem bitmap) c = false →
      k'.mem p = Function.update (k.mem p) off (c * 8 ||| 7) →
      k'.mem bitmap = setBit (k.mem bitmap) c → Ensures next k' R) :
    Ensures (ldtAllocSelector bitmap ldtEntryCount >>= fun res =>
      match res with
      | none => fail
      | some sel => store p off sel >>= fun _ => next) k R := by
  refine ensures_bind (fun _ _ => (ldtAllocSelector_spec k bitmap).of_run) ?_
  rintro res k₁ ⟨tsc, ⟨rfl, rfl⟩ | ⟨c, rfl, -, hc, hbit, rfl⟩⟩
  · exact hfail _
  · refine ensures_modify_bind (hnext c _ hc hbit ?_ ?_)
    · simp [Kernel.setMem, Function.update_of_ne hbp.symm]
    · simp [Kernel.setMem, Function.update_of_ne hbp]

/-- The three selectors and the three segments. -/
theorem processAllocLdtSelectors_segments (sel : ℕ) (hpl : p ≠ ldt) (hbp : bitmap ≠ p) :
    Ensures (processAllocLdtSelectors p sel bitmap ldt base) k fun eax k' => eax ≠ 0 →
      (∀ o ∉ [procUserCs, procUserDs, procUserSs], k'.mem p o = k.mem p o) ∧
      ∃ c e g, Segments base c e g (k'.mem p) (k'.mem ldt) := by
  have hback : ∀ {R : Kernel → Prop} (k' : Kernel), Ensures (processLdtFreeGdt sel bitmap ldt) k'
      fun eax k'' => eax ≠ 0 → R k'' := fun _ =>
    (processLdtFreeGdt_zero sel).mono fun _ _ h hne => absurd h hne
  refine ldtSelector_ensures hbp hback ?_
  intro c k₁ hc _ hp₁ hb₁
  refine ldtSelector_ensures hbp hback ?_
  intro e k₂ he hbe hp₂ hb₂
  have hec : e ≠ c := by
    rintro rfl
    rw [hb₁, bitOf_setBit_self] at hbe
    cases hbe
  refine ldtSelector_ensures hbp hback ?_
  intro g k₃ hg hbg hp₃ hb₃
  have hgc : g ≠ c := by
    rintro rfl
    rw [hb₂, bitOf_setBit_of_ne _ hec.symm, hb₁, bitOf_setBit_self] at hbg
    cases hbg
  have hge : g ≠ e := by
    rintro rfl
    rw [hb₂, bitOf_setBit_self] at hbg
    cases hbg
  refine (processWriteSegments_segments hpl hc he hg hec hgc hge (by simp [hp₃, hp₂, hp₁])
    (by simp [hp₃, hp₂]) (by simp [hp₃])).mono ?_
  rintro eax k₄ ⟨hm, hS⟩ -
  refine ⟨fun o ho => ?_, c, e, g, hS⟩
  simp only [List.mem_cons, not_or] at ho
  rw [hm, hp₃, hp₂, hp₁, Function.update_of_ne ho.2.2.1, Function.update_of_ne ho.2.1,
    Function.update_of_ne ho.1]

end Write

section Create

variable {k : Kernel} {O : ℕ → Prop} {T : Items} {p : ℕ}

/-- `process_create_random_ldt` gives the object its segments. -/
theorem processCreateRandomLdt_segments {base : ℕ} (H : Holds k O (T + {.block p})) :
    Ensures (processCreateRandomLdt p base) k fun eax k' => eax ≠ 0 →
      k'.mem p procLdtBase ≠ 0 ∧
      ∃ c e g, Segments base c e g (k'.mem p) (k'.mem (k'.mem p procLdtBase)) := by
  have hp : p ≠ 0 := H.block_ne_zero (mem_add_singleton.mpr (Or.inr rfl))
  have hzero : ∀ {R : Kernel → Prop} (k' : Kernel), Ensures (pure 0 : KM ℕ) k'
      fun eax k'' => eax ≠ 0 → R k'' := fun _ => ensures_pure fun h => absurd rfl h
  rw [processCreateRandomLdt, if_neg hp]
  refine ensures_bind (fun _ _ => (kHeapAlloc_spec H ldtSize).of_run) ?_
  rintro ldt k₁ ⟨-, ⟨rfl, -⟩ | ⟨hldt, H₁⟩⟩
  · rw [if_pos rfl]
    exact hzero k₁
  rw [if_neg hldt]
  -- the three blocks are apart, so that no later write reaches the LDT base of the process
  have hlp : p ≠ ldt := by
    rintro rfl
    exact (nodup_add_singleton.mp H₁.nodup).2 (by simp)
  refine ensures_modify_bind (ensures_modify_bind ?_)
  set k₂ := (k₁.setMem p (Function.update (k₁.mem p) procLdtBase ldt)).setMem ldt fun o =>
    if o < ldtSize then 0 else
      (k₁.setMem p (Function.update (k₁.mem p) procLdtBase ldt)).mem ldt o with hk₂
  have H₂ : Holds k₂ O (T + {.block p} + {.block ldt}) := (H₁.setMem _ _).setMem _ _
  have hm₂ : k₂.mem p procLdtBase = ldt := by
    simp [hk₂, Kernel.setMem, Function.update_of_ne hlp]
  clear_value k₂
  refine ensures_bind (fun _ _ => (kHeapAlloc_spec H₂ ldtBitmapSize).of_run) ?_
  rintro bitmap k₃ ⟨F₃, ⟨rfl, H₃⟩ | ⟨hbitmap, H₃⟩⟩
  · rw [if_pos rfl]
    exact ensures_last fun _ _ => hzero _
  rw [if_neg hbitmap]
  have hbp : bitmap ≠ p := by
    rintro rfl
    exact (nodup_add_singleton.mp H₃.nodup).2 (by simp)
  have hm₃ : k₃.mem p = k₂.mem p := F₃.mem p (by simp)
  refine ensures_modify_bind (ensures_modify_bind (ensures_modify_bind ?_))
  generalize hk₄ : ((((k₃.setMem p (Function.update (k₃.mem p) procLdtBitmap bitmap)).setMem bitmap
    _).setMem bitmap _)) = k₄
  have H₄ : Holds k₄ O (T + {.block p} + {.block ldt} + {.block bitmap}) := by
    rw [← hk₄]
    exact ((H₃.setMem _ _).setMem _ _).setMem _ _
  have hm₄ : k₄.mem p procLdtBase = ldt := by
    rw [← hk₄]
    simp [Kernel.setMem, Function.update_of_ne hbp.symm, hm₃, hm₂]
  refine ensures_bind (fun _ _ => (gdtCreateDescriptor_spec H₄ _).of_run) ?_
  rintro sel k₅ (⟨rfl, rfl⟩ | ⟨i, rfl, -, -, -, -, hm₅, -⟩)
  · exact ensures_last fun _ _ => ensures_last fun _ _ => hzero _
  refine ensures_modify_bind ((processAllocLdtSelectors_segments _ hlp hbp).mono ?_)
  rintro eax k₆ h hne
  obtain ⟨hw, hS⟩ := h hne
  have hbase : k₆.mem p procLdtBase = ldt := by
    rw [hw _ (by decide)]
    simp [Kernel.setMem, hm₅, hm₄]
  rw [hbase]
  exact ⟨hldt, hS⟩

/-- `process_create_destroy_process` returns 0. -/
theorem processCreateUndo_zero (p : ℕ) (k : Kernel) :
    Ensures (processCreateUndo p) k fun q _ => q = 0 := ensures_last fun _ _ => ensures_pure rfl

/-- The rest of the constructor leaves the segments alone. -/
theorem processCreateTail_segments {slot d ldt bitmap i : ℕ}
    (H : Holds k O (T + procItems p (k.mem p))) (hT : TasksOwned T)
    (S : LdtStage slot d ldt bitmap i k p) (hslot : slot < processMaxCount) (hd : d ≠ 0)
    (hldt : ldt ≠ 0) (hlp : ldt ≠ p) (hi : i ≠ 0)
    (hnone : ∀ i, i ≠ userHeapBase / 2 ^ 22 → tableOf k.ram d i = none)
    (hS : HasSegments k p) :
    Ensures (do
        if ← processCreateTss p then
          if ← processInstallSyscallGateway p then processPublish p else processCreateUndo p
        else processCreateUndo p) k fun q k' => q ≠ 0 → HasSegments k' q := by
  have hback : ∀ k' : Kernel, Ensures (processCreateUndo p) k' fun q k'' => q ≠ 0 →
      HasSegments k'' q := fun k' =>
    (processCreateUndo_zero p k').mono fun _ _ h hne => absurd h hne
  have hp : p ≠ 0 := H.block_ne_zero (Multiset.mem_add.mpr (Or.inr (block_mem_procItems _ _)))
  refine ensures_bind (fun _ _ => (processCreateTss_stage H S hslot hd hldt hlp hi).of_run) ?_
  rintro b k₁ ⟨-, ⟨rfl, -⟩ | ⟨rfl, tss, Q⟩⟩
  · exact hback _
  have hdir₁ : k₁.mem p procPageDir = d := by rw [Q.words _ (by decide), S.dir]
  have H₁ := Q.items
  have hdirmem := dir_mem_procItems (p := p) Q.ready.dir
  rw [hdir₁] at hdirmem
  obtain ⟨rest₂, -, hsplit₂⟩ := items_split T hdirmem
  rw [hsplit₂] at H₁
  have hnone₁ : tableOf k₁.ram d (userSyscallGatewayPage / 2 ^ 22) = none := by
    rw [Q.tables, hnone _ (by decide)]
  refine ensures_bind (fun _ _ => (processInstallSyscallGateway_spec H₁ hp hd hdir₁ hnone₁).of_run) ?_
  rintro b k₂ ⟨-, hR, H₂, -⟩
  rw [← hsplit₂, ← hR.mem] at H₂
  have hready₂ := Q.ready.onlyRam hR
  refine ensures_ite (fun _ => ?_) fun _ => hback _
  refine Ensures.mono (fun _ _ => (processPublish_ready H₂ hT
    (by rw [hR.mem, Q.words _ (by decide), S.entry]) hready₂
    (by rw [hR.mem, Q.base]; exact Q.tss_ne)).of_run) ?_
  rintro q k₃ ⟨-, ⟨rfl, -⟩ | ⟨rfl, -, -, -, hw₃, hq₃⟩⟩ hq
  · exact absurd rfl hq
  -- the object and the table are those of the first part
  have hother : ∀ o ∈ segmentFields, o ≠ procTableIndex ∧
      o ∉ [procTssBase, procKstackTop, procTssSelector] := by decide
  refine hS.congr (fun o ho => ?_) ?_
  · rw [hw₃ o (hother o ho).1, hR.mem, Q.words o (hother o ho).2]
  · rw [S.ldtField, hq₃ ldt hlp, hR.mem, Q.ldt]

/-- **A new protected process has the segments of its slot.** -/
theorem processCreateProtected32_segments (H : Holds k O T) (hT : TasksOwned T) :
    Ensures processCreateProtected32 k fun p k' => p ≠ 0 → HasSegments k' p := by
  have hzero : ∀ k' : Kernel, Ensures (pure 0 : KM ℕ) k' fun p k'' => p ≠ 0 → HasSegments k'' p :=
    fun _ => ensures_pure fun h => absurd rfl h
  refine ensures_bind (fun _ _ => (processMemoryCreate_spec H).of_run) ?_
  rintro p k₁ ⟨-, ⟨rfl, -⟩ | ⟨hp, d, hd, H₁, hnew, -, hnone⟩⟩
  · rw [if_pos rfl]
    exact hzero _
  rw [if_neg hp]
  have hsame : k₁.setMem p (Function.update (k₁.mem p) procType processTypeProtected32) = k₁ := by
    rw [← hnew.type, Function.update_eq_self, Kernel.setMem, Function.update_eq_self]
  refine ensures_modify_bind ?_
  rw [hsame]
  refine ensures_bind (fun _ _ => (processSlotAlloc_spec H₁).of_run) ?_
  rintro res k₂ (⟨rfl, rfl⟩ | ⟨slot, -, hslot, rfl, H₂, F₂, hm₂⟩)
  · exact ensures_last fun _ _ => hzero _
  refine ensures_modify_bind ?_
  generalize hk₃ : k₂.setMem p _ = k₃
  have hm₃ : k₃.mem p = Function.update (Function.update (k₁.mem p) procSlotIndex slot)
      procSlotBase (slotBase slot) := by
    rw [← hk₃]
    simp [Kernel.setMem, hm₂, slotBase]
  have H₃ : Holds k₃ O (T + {.dir d} + {.slot slot} + {.block p}) := by
    rw [← hk₃, show T + {.dir d} + {.slot slot} + {.block p} =
      T + {.block p} + {.dir d} + {.slot slot} by abel]
    exact H₂.setMem _ _
  have hnone₃ : ∀ i, i ≠ userHeapBase / 2 ^ 22 → tableOf k₃.ram d i = none := fun i hi => by
    rw [← hk₃]
    change tableOf k₂.ram d i = none
    rw [F₂.ram.tableOf_eq (d := d) (by simp [dirsOf]), hnone i hi]
  clear hk₃
  refine ensures_bind (Ensures.and (fun _ _ => (processCreateRandomLdt_stage hnew hslot hd hm₃
    H₃).of_run) (processCreateRandomLdt_segments H₃)) ?_
  rintro eax k₄ ⟨⟨F₄, ⟨rfl, -⟩ | ⟨rfl, ldt, bitmap, i, H₄, S, hldt, hlp, hi, -⟩⟩, hS⟩
  · rw [if_pos rfl]
    exact ensures_last fun _ _ => ensures_last fun _ _ => hzero _
  rw [if_neg one_ne_zero]
  obtain ⟨hne, c, e, g, hS⟩ := hS one_ne_zero
  refine processCreateTail_segments H₄ hT S hslot hd hldt hlp hi (fun j hj => ?_)
    ⟨hne, c, e, g, by rw [S.base]; exact hS⟩
  rw [F₄.ram.tableOf_eq (d := d) (by simp [dirsOf]), hnone₃ j hj]

end Create

/-! ### The segments along runs -/

section Keeps

/-- A routine of physical memory writes no block of the kernel heap. -/
theorem World.call_onRam_mem {α : Type} {w w' : World} {f : Ram → α × Ram}
    {held pages : α → List ℕ} (h : w.call (onRam f) held pages = some w') : w'.k.mem = w.k.mem := by
  obtain ⟨x, hrun, rfl⟩ := Option.map_eq_some_iff.mp h
  obtain rfl := Option.some.inj hrun
  rfl

/-- Loading an image writes no block of the kernel heap. -/
theorem mem_processPrepareTestTask (esi source size : ℕ) (image : ℕ → ℕ) :
    Keeps Kernel.mem (processPrepareTestTask esi source size image) := by
  have hram : ∀ {α : Type} (f : Ram → α × Ram), Keeps Kernel.mem (onRam f) := fun f =>
    keeps_modifyGet fun _ => rfl
  refine keeps_bind keeps_get fun k => keeps_ite (keeps_pure _) ?_
  cases entryAddress k esi with
  | none => exact keeps_pure _
  | some edx =>
    refine keeps_ite (keeps_pure _) (keeps_bind (hram _) fun b => keeps_ite ?_ (keeps_pure _))
    exact keeps_bind (hram _) fun b => keeps_ite (keeps_pure _) (keeps_pure _)

/-- Nor does mapping the registers of a controller. -/
theorem mem_storageMapMmioWindow (physical : ℕ) :
    Keeps Kernel.mem (storageMapMmioWindow physical) := by
  refine keeps_bind keeps_get fun k => keeps_ite (keeps_pure _) (keeps_ite (keeps_pure _) ?_)
  refine keeps_bind (keeps_modifyGet fun _ => rfl) fun b => keeps_ite ?_ (keeps_pure _)
  exact keeps_bind (keeps_modify fun _ => rfl) fun _ => keeps_pure _

/-- Growing a heap writes the object of its process only. -/
theorem processHeapGrow_mem (p : ℕ) (k : Kernel) :
    Ensures (processHeapGrow p) k fun _ k' => ∀ q, q ≠ p → k'.mem q = k.mem q := by
  have hsame : ∀ (a : ℕ) (k' : Kernel), k'.mem = k.mem → Ensures (pure a : KM ℕ) k'
      fun _ k'' => ∀ q, q ≠ p → k''.mem q = k.mem q := fun a k' h => ensures_pure fun q _ => by rw [h]
  refine ensures_get_bind (ensures_ite (fun _ => hsame _ _ rfl) fun _ => ?_)
  refine ensures_modifyGet_bind (ensures_ite (fun _ => ?_) fun _ => hsame _ _ rfl)
  refine ensures_modify_bind (ensures_pure fun q hq => ?_)
  exact Function.update_of_ne hq _ _

end Keeps

namespace Inv

variable {w w' : World} {O : ℕ → Prop} {B : Items} {P : Multiset ℕ} {q : ℕ}

theorem procItems_nodup (H : Inv w O B P) (hq : q ∈ P) : (procItems q (w.k.mem q)).Nodup := by
  obtain ⟨P', -, -, hsplit⟩ := H.split hq
  have hnd := H.holds.nodup
  rw [hsplit] at hnd
  refine Multiset.nodup_of_le ?_ (Multiset.nodup_add.mp hnd).2.1
  unfold liveItems
  split_ifs
  · exact le_rfl
  · exact Multiset.le_add_right _ _

/-- The table of a process is a block of its own. -/
theorem ldt_ne (H : Inv w O B P) (hq : q ∈ P) (hldt : w.k.mem q procLdtBase ≠ 0) :
    w.k.mem q procLdtBase ≠ q := by
  intro h
  have hnd := H.procItems_nodup hq
  have htwo : ({Item.block q} + {Item.block q} : Items) ≤ procItems q (w.k.mem q) := by
    rw [procItems, itemIf_of_ne hldt, h]
    refine Multiset.le_iff_exists_add.mpr ⟨itemIf (w.k.mem q procPageDir) 0 (.dir (w.k.mem q procPageDir)) +
      itemIf (w.k.mem q procSlotIndex) noIndex (.slot (w.k.mem q procSlotIndex)) +
      itemIf (w.k.mem q procLdtBitmap) 0 (.block (w.k.mem q procLdtBitmap)) +
      itemIf (w.k.mem q procLdtSelector) 0 (.gdt (w.k.mem q procLdtSelector / 8)) +
      itemIf (w.k.mem q procKstackTop) 0 (.block (sub32 (w.k.mem q procKstackTop) pageSize)) +
      itemIf (w.k.mem q procTssBase) 0 (.block (w.k.mem q procTssBase)) +
      itemIf (w.k.mem q procTssSelector) 0 (.gdt (w.k.mem q procTssSelector / 8)) +
      itemIf (w.k.mem q procTableIndex) noIndex (.entry (w.k.mem q procTableIndex) q), by abel⟩
  exact absurd (Multiset.nodup_of_le htwo hnd) (by simp)

/-- The table of a process is no task segment. -/
theorem ldt_ne_segment (H : Inv w O B P) (hq : q ∈ P) (hldt : w.k.mem q procLdtBase ≠ 0) {v : ℕ}
    (hv : IsTask w.k P v) : w.k.mem q procLdtBase ≠ descriptorBase (w.k.gdt (v / 8)) := by
  have hmem := ldtBase_mem_procItems (p := q) hldt
  rcases hv with rfl | ⟨p, hp, rfl⟩
  · intro h
    have hdis := (Multiset.nodup_add.mp H.holds.nodup).2.2
    have htss := H.task.tss
    rw [← h] at htss
    exact Multiset.disjoint_left.mp hdis (Multiset.mem_add.mpr (Or.inl htss))
      (Multiset.mem_bind.mpr ⟨q, hq, procItems_subset_liveItems hmem⟩)
  · have hC := H.complete p hp
    rw [hC.desc]
    intro h
    have htss := tss_mem_procItems (p := p) hC.tss
    rw [← h] at htss
    obtain rfl := H.eq_of_mem hq hp hmem htss
    -- the two blocks of one process
    have hnd := H.procItems_nodup hq
    simp only [procItems, itemIf_of_ne hldt, itemIf_of_ne hC.tss] at hnd
    have hdis := (Multiset.nodup_add.mp (Multiset.nodup_add.mp (Multiset.nodup_add.mp hnd).1).1).2.2
    refine Multiset.disjoint_left.mp hdis ?_ (Multiset.mem_singleton.mpr (congrArg Item.block h))
    simp

/-- **A step leaves the table of a live process alone.** -/
theorem step_ldt (H : Inv w O B P) {op : Op} (ha : op.Allowed w) (hc : Careful w op)
    (he : op.exec w = some w') (hq : Live w.k q) (hq' : Live w'.k q)
    (hldt : w.k.mem q procLdtBase ≠ 0) :
    w'.k.mem (w.k.mem q procLdtBase) = w.k.mem (w.k.mem q procLdtBase) := by
  have hqP := H.live_iff.mp hq
  have hitem := procItems_subset_liveItems (k := w.k) (ldtBase_mem_procItems (p := q) hldt)
  have hin : ∀ {Q : Multiset ℕ}, q ∈ Q →
      Item.block (w.k.mem q procLdtBase) ∈ Q.bind (liveItems w.k) := fun hQ =>
    Multiset.mem_bind.mpr ⟨q, hQ, hitem⟩
  cases op with
  | create type => exact (H.create_frame he).mem _ (Multiset.mem_add.mpr (Or.inr (hin hqP)))
  | destroy p =>
    obtain ⟨P', hP, F⟩ := H.destroy_frame ha.1 ha.2 (hc p rfl) he
    obtain ⟨P'', hP', H'⟩ := H.destroy ha.1 ha.2 (hc p rfl) he
    rw [hP] at hP'
    obtain rfl := (Multiset.cons_inj_right p).mp hP'
    exact F.mem _ (Multiset.mem_add.mpr (Or.inr (hin (H'.live_iff.mp hq'))))
  | heapAlloc size => exact (H.heapAlloc_frame he).mem _ (Multiset.mem_add.mpr (Or.inr (hin hqP)))
  | heapFree ptr => exact (H.heapFree_frame ha he).mem _ (hin hqP)
  | tick image =>
    obtain ⟨P', H', hre, -⟩ := H.tick he
    obtain ⟨k₁, P₁, hr, H₁, -, hre₁, hm₁, -⟩ := H.reapTerminated
    obtain ⟨_, k₁', hr', -, hreap⟩ := H.reap_frame
    obtain rfl : k₁ = k₁' := congrArg Prod.snd (Option.some.inj (hr.symm.trans hr'))
    obtain ⟨k₂, hs, H₂, S, -⟩ := H₁.switchNext image
    have hrun : (timerTick image).run w.k = some ((), k₂) := run_bind_eq_some.mpr ⟨(), k₁, hr, hs⟩
    obtain ⟨⟨⟨⟩, k'⟩, hrun', rfl⟩ := Option.map_eq_some_iff.mp he
    obtain rfl : k₂ = k' := congrArg Prod.snd (Option.some.inj (hrun.symm.trans hrun'))
    have hqP₁ : q ∈ P₁ := H₂.live_iff.mp hq'
    have hldt₁ : k₁.mem q procLdtBase = w.k.mem q procLdtBase := by rw [hm₁ q hqP₁]
    have hne := H₁.ldt_ne_segment hqP₁ (by rw [hldt₁]; exact hldt) H₁.isTask_tr
    rw [hldt₁] at hne
    exact (funext fun o => S.mem _ o (Or.inl hne)).trans
      (hreap P₁ (hre₁.imp (fun h => ⟨h.1, h.2.2⟩) id) q hqP₁ _ hitem)
  | fault image =>
    obtain ⟨p, hp, hrunning, htype⟩ := ha
    obtain ⟨k₁, P₁, hr, H₁, hz, hre₁, hpP, hrun₁, hm₁, -⟩ := H.reap_running hp hrunning
    obtain ⟨_, k₁', hr', -, hreap⟩ := H.reap_frame
    obtain rfl : k₁ = k₁' := congrArg Prod.snd (Option.some.inj (hr.symm.trans hr'))
    obtain ⟨k₂, ht, H₂, -, -, -, -, S⟩ := H₁.terminate image hpP hz hrun₁ (by
      change k₁.mem p procType = _
      rw [hm₁ p hpP]
      exact htype)
    have hrun : (exceptionTerminateCurrent image).run w.k = some (true, k₂) :=
      run_bind_eq_some.mpr ⟨(), k₁, hr, ht⟩
    obtain ⟨⟨a, k'⟩, hrun', rfl⟩ := Option.map_eq_some_iff.mp he
    obtain rfl : k₂ = k' := congrArg Prod.snd (Option.some.inj (hrun.symm.trans hrun'))
    have hqP₁ : q ∈ P₁ := H₂.live_iff.mp hq'
    have hldt₁ : k₁.mem q procLdtBase = w.k.mem q procLdtBase := by rw [hm₁ q hqP₁]
    have hne := H₁.ldt_ne_segment hqP₁ (by rw [hldt₁]; exact hldt) H₁.isTask_tr
    rw [hldt₁] at hne
    exact (funext fun o => S.mem _ o (Or.inl hne)).trans (hreap P₁ hre₁ q hqP₁ _ hitem)
  | heapGrow p =>
    obtain ⟨⟨a, k'⟩, hrun, rfl⟩ := Option.map_eq_some_iff.mp he
    refine processHeapGrow_mem p w.k a k' hrun _ fun h => ?_
    -- the object of `p` is no table
    have hblock : Item.block (w.k.mem q procLdtBase) ∈ procItems p (w.k.mem p) := by
      rw [h]
      exact block_mem_procItems _ _
    obtain rfl := H.eq_of_mem hqP (H.live_iff.mp ha) (ldtBase_mem_procItems hldt) hblock
    exact H.ldt_ne hqP hldt h
  | prepare p source size image =>
    obtain ⟨⟨a, k'⟩, hrun, rfl⟩ := Option.map_eq_some_iff.mp he
    exact congrFun (mem_processPrepareTestTask p source size image w.k a k' hrun) _
  | storageMap physical =>
    obtain ⟨⟨a, k'⟩, hrun, rfl⟩ := Option.map_eq_some_iff.mp he
    exact congrFun (mem_storageMapMmioWindow physical w.k a k' hrun) _
  | driverWork mem =>
    obtain rfl := Option.some.inj he
    rfl
  | _ =>
    rw [Op.exec] at he
    exact congrFun (World.call_onRam_mem he) _

end Inv

/-- `process_create` gives every protected process its segments. -/
theorem Inv.created_segments {w : World} {O : ℕ → Prop} {B : Items} {P : Multiset ℕ}
    (H : Inv w O B P) {type p : ℕ} {k' : Kernel}
    (hrun : (processCreate type).run w.k = some (p, k')) (hp : p ≠ 0)
    (htype : k'.mem p procType = processTypeProtected32) : HasSegments k' p := by
  rw [processCreate] at hrun
  split_ifs at hrun with h1 h2
  · exact processCreateProtected32_segments H.holds H.tasksOwned p k' hrun hp
  · obtain ⟨-, ⟨rfl, -⟩ | ⟨-, -, -, hv86⟩⟩ := (v86ProcessCreate_spec H.holds H.tasksOwned).of_run hrun
    · exact absurd rfl hp
    · rw [hv86] at htype
      exact absurd htype (by decide)
  · obtain ⟨rfl, -⟩ := Prod.mk.inj (Option.some.inj hrun)
    exact absurd rfl hp

/-- **Every live protected process has the segments of its slot**, after boot and
any calls and interrupts. -/
theorem reach_segments {w₀ w : World} (h₀ : Booted w₀) (h : Reach Careful w₀ w) {p : ℕ}
    (hp : Live w.k p) (htype : w.k.mem p procType = processTypeProtected32) : HasSegments w.k p := by
  obtain ⟨O, B, H⟩ := booted_inv h₀
  have key : (∃ O B P, Inv w O B P) ∧ ∀ p, Live w.k p →
      w.k.mem p procType = processTypeProtected32 → HasSegments w.k p := by
    refine h.invariant (I := fun w => (∃ O B P, Inv w O B P) ∧ ∀ p, Live w.k p →
      w.k.mem p procType = processTypeProtected32 → HasSegments w.k p)
      ⟨⟨O, B, 0, H⟩, fun p hp => absurd (H.live_iff.mp hp) (Multiset.notMem_zero p)⟩ ?_
    rintro w w' op ⟨⟨O, B, P, H⟩, hS⟩ ha hc he
    obtain ⟨O', P', H'⟩ := H.step ha hc he
    refine ⟨⟨O', B, P', H'⟩, fun q hq htype => ?_⟩
    rcases H.step_objects ha hc he hq with ⟨hlive, hobj⟩ | ⟨-, type, -, hrun⟩
    · have hold := hS q hlive (by rw [← hobj _ (by decide)]; exact htype)
      have hfields : ∀ o ∈ segmentFields, o ≠ procHeapCurrent := by decide
      exact hold.congr (fun o ho => hobj o (hfields o ho)) (H.step_ldt ha hc he hlive hq hold.1)
    · exact H.created_segments hrun hq.1 htype
  exact key.2 p hp htype

/-! ### What the processor makes of them -/

/-- The entry that a selector names. -/
def ldtEntry (l : ℕ → ℕ) (sel : ℕ) : ℕ × ℕ := (l (sel &&& 0xFFF8), l ((sel &&& 0xFFF8) + 4))

/-- The linear addresses of a segment. -/
def InSegment (desc : ℕ × ℕ) (a : ℕ) : Prop :=
  (entryFields (entryByte desc)).base ≤ a ∧
    a ≤ (entryFields (entryByte desc)).base + (entryFields (entryByte desc)).effectiveLimit

/-- The entry after the processor has loaded it, which sets the accessed bit. -/
def setAccessed (desc : ℕ × ℕ) : ℕ × ℕ := (desc.1, desc.2 ||| 2 ^ 8)

theorem setAccessed_segmentDescriptor (base limit access : ℕ) :
    setAccessed (segmentDescriptor base limit access) = segmentDescriptor base limit (access ||| 1) := by
  have hbit : (access ||| 1) * 2 ^ 8 = access * 2 ^ 8 ||| 2 ^ 8 := by
    rw [← Nat.shiftLeft_eq, Nat.shiftLeft_or_distrib, Nat.shiftLeft_eq, Nat.shiftLeft_eq, Nat.one_mul]
  simp only [setAccessed, segmentDescriptor, hbit, Prod.mk.injEq, true_and]
  ac_rfl

/-- The selector is of the local table and of privilege 3, and names the `size`
bytes from `base` on, with the access byte that the kernel has written.  The kernel does
not write the accessed bit, and it makes no difference once the processor has. -/
structure UserSegment (l : ℕ → ℕ) (sel base size access : ℕ) : Prop where
  user : sel % 8 = 7
  accessed : (entryFields (entryByte (setAccessed (ldtEntry l sel)))).access = access ||| 1
  rangeAccessed : ∀ a, InSegment (setAccessed (ldtEntry l sel)) a ↔ base ≤ a ∧ a < base + size
  access : (entryFields (entryByte (ldtEntry l sel))).access = access
  range : ∀ a, InSegment (ldtEntry l sel) a ↔ base ≤ a ∧ a < base + size

/-- A descriptor that the kernel writes covers whole pages from its base on. -/
theorem segmentDescriptor_range {base size access : ℕ} (hb : base < 2 ^ 32) (hs : 1 ≤ size)
    (hs32 : size ≤ 2 ^ 32) (hpage : size % 2 ^ 12 = 0) (ha : access < 2 ^ 8) :
    (entryFields (entryByte (segmentDescriptor base (size - 1) access))).access = access ∧
      ∀ a, InSegment (segmentDescriptor base (size - 1) access) a ↔ base ≤ a ∧ a < base + size := by
  have hdec := segmentDescriptor_decodes hb (show size - 1 < 2 ^ 32 by omega) ha
  rw [(le_orLowBits (size - 1)).2 (by omega)] at hdec
  refine ⟨hdec.access_eq, fun a => ?_⟩
  rw [InSegment, hdec.base_eq, hdec.limit_eq]
  omega

theorem userSegment_of_entry {l : ℕ → ℕ} {c base size access : ℕ} (hc : c < ldtEntryCount)
    (hb : base < 2 ^ 32) (hs : 1 ≤ size) (hs32 : size ≤ 2 ^ 32) (hpage : size % 2 ^ 12 = 0)
    (ha : access < 2 ^ 8)
    (hl : (l (c * 8), l (c * 8 + 4)) = segmentDescriptor base (size - 1) access) :
    UserSegment l (c * 8 ||| 7) base size access := by
  have hentry : ldtEntry l (c * 8 ||| 7) = segmentDescriptor base (size - 1) access := by
    rw [ldtEntry, ldt_offset c hc, hl]
  have hone : access ||| 1 < 2 ^ 8 := Nat.or_lt_two_pow ha (by decide)
  have huser : (c * 8 ||| 7) % 8 = 7 := by
    have h7 : 7 < 2 ^ 3 := by decide
    rw [Nat.or_comm, show c * 8 = c * 2 ^ 3 from rfl, or_mul_two_pow h7]
    omega
  obtain ⟨hacc, hrange⟩ := segmentDescriptor_range hb hs hs32 hpage ha
  obtain ⟨hacc', hrange'⟩ := segmentDescriptor_range hb hs hs32 hpage hone
  refine ⟨huser, ?_, ?_, ?_, ?_⟩
  · rw [hentry, setAccessed_segmentDescriptor, hacc']
  · rw [hentry, setAccessed_segmentDescriptor]
    exact hrange'
  · rw [hentry, hacc]
  · rw [hentry]
    exact hrange

/-- The three selectors of a process. -/
def userSelectors (k : Kernel) (p : ℕ) : List ℕ :=
  [k.mem p procUserCs, k.mem p procUserDs, k.mem p procUserSs]

/-- The local descriptor table of a process. -/
def ldtOf (k : Kernel) (p : ℕ) : ℕ → ℕ := k.mem (k.mem p procLdtBase)

/-- The segments of a process, in its slot. -/
structure Confined (k : Kernel) (p : ℕ) : Prop where
  code : UserSegment (ldtOf k p) (k.mem p procUserCs) (k.mem p procSlotBase) userCodeSize 0xFA
  data : UserSegment (ldtOf k p) (k.mem p procUserDs) (k.mem p procSlotBase + userDataOffset)
    userDataSize 0xF2
  stack : UserSegment (ldtOf k p) (k.mem p procUserSs) (k.mem p procSlotBase + userStackOffset)
    userStackSize 0xF2

/-- The three segments lie in the slot. -/
theorem Confined.in_slot {k : Kernel} {p : ℕ} (h : Confined k p) {sel : ℕ}
    (hs : sel ∈ userSelectors k p) {a : ℕ} (ha : InSegment (ldtEntry (ldtOf k p) sel) a) :
    k.mem p procSlotBase ≤ a ∧ a < k.mem p procSlotBase + processSlotSize := by
  have hsize : processSlotSize = 0x00A00000 := rfl
  simp only [userSelectors, List.mem_cons, List.not_mem_nil, or_false] at hs
  rcases hs with rfl | rfl | rfl
  · have := (h.code.range a).mp ha
    simp only [userCodeSize] at this
    omega
  · have := (h.data.range a).mp ha
    simp only [userDataOffset, userDataSize] at this
    omega
  · have := (h.stack.range a).mp ha
    simp only [userStackOffset, userStackSize] at this
    omega

/-- **Every protected process is confined to its slot.**  After boot and any calls
and interrupts, the three selectors of a live protected process are of its local
descriptor table and of privilege 3; the processor takes them for the code, the
data and the stack of the slot, with the rights of code and data; and no linear
address is in segments of two such processes. -/
theorem segments_confined {w₀ w : World} (h₀ : Booted w₀) (h : Reach Careful w₀ w) {p : ℕ}
    (hp : Live w.k p) (htype : w.k.mem p procType = processTypeProtected32) :
    Confined w.k p ∧ ∀ q, Live w.k q → w.k.mem q procType = processTypeProtected32 → q ≠ p →
      ∀ s ∈ userSelectors w.k p, ∀ t ∈ userSelectors w.k q, ∀ a,
        ¬(InSegment (ldtEntry (ldtOf w.k p) s) a ∧ InSegment (ldtEntry (ldtOf w.k q) t) a) := by
  have hconf : ∀ q, Live w.k q → w.k.mem q procType = processTypeProtected32 → Confined w.k q := by
    intro q hq hqt
    obtain ⟨-, c, e, g, hS⟩ := reach_segments h₀ h hq hqt
    obtain ⟨-, hlt, hbase⟩ := reach_placed h₀ h hq hqt
    have hb : w.k.mem q procSlotBase < 2 ^ 30 := by
      rw [hbase]
      exact slotBase_lt hlt
    have hadd : ∀ off < 2 ^ 30, add32 (w.k.mem q procSlotBase) off = w.k.mem q procSlotBase + off :=
      fun off hoff => add32_of_lt (by omega)
    have hcode := hS.code
    have hdata := hS.data
    have hstack := hS.stack
    rw [hadd _ (by decide)] at hcode hdata hstack
    refine ⟨?_, ?_, ?_⟩
    · rw [hS.cs]
      exact userSegment_of_entry hS.code_lt (by omega) (by decide) (by decide) (by decide)
        (by decide) hcode
    · rw [hS.ds]
      refine userSegment_of_entry hS.data_lt ?_ (by decide) (by decide) (by decide) (by decide) hdata
      simp only [userDataOffset]
      omega
    · rw [hS.ss]
      refine userSegment_of_entry hS.stack_lt ?_ (by decide) (by decide) (by decide) (by decide) hstack
      simp only [userStackOffset]
      omega
  refine ⟨hconf p hp htype, fun q hq hqt hne s hs t ht a ⟨ha, hb⟩ => ?_⟩
  obtain ⟨hp1, hp2⟩ := (hconf p hp htype).in_slot hs ha
  obtain ⟨hq1, hq2⟩ := (hconf q hq hqt).in_slot ht hb
  -- the slots of two processes are different
  obtain ⟨O, B, P, H⟩ := reach_inv h₀ h
  obtain ⟨-, hltp, hbasep⟩ := reach_placed h₀ h hp htype
  obtain ⟨-, hltq, hbaseq⟩ := reach_placed h₀ h hq hqt
  have hslot : w.k.mem p procSlotIndex ≠ w.k.mem q procSlotIndex := fun hsame => by
    refine hne (H.slot_inj (H.live_iff.mp hp) (H.live_iff.mp hq) ?_ hsame).symm
    simp only [processMaxCount] at hltp
    simp only [noIndex]
    omega
  rw [hbasep] at hp1 hp2
  rw [hbaseq] at hq1 hq2
  simp only [slotBase, processSlotSize, processAreaBase] at hp1 hp2 hq1 hq2
  omega

/-- The second of two processes. -/
theorem segments_confined_second : ∃ w₀ w p q, Booted w₀ ∧ Reach Careful w₀ w ∧ q ≠ p ∧
    Live w.k q ∧ Confined w.k p := by
  obtain ⟨w₀, w, w', B, P, p, h₀, -, -, hpop, -, htype⟩ := exists_created (n := 1) (by decide)
  have H := hpop.inv
  have hp : Live w'.k p := H.live_iff.mpr (Multiset.mem_cons_self p P)
  have hcard := hpop.card
  rw [Multiset.card_cons] at hcard
  obtain ⟨q, rfl⟩ := Multiset.card_eq_one.mp (Nat.succ.inj hcard)
  obtain ⟨P', hP, hnot, -⟩ := H.split (Multiset.mem_cons_self p {q})
  obtain rfl := (Multiset.cons_inj_right p).mp hP
  refine ⟨w₀, w', p, q, h₀, hpop.reach, fun h => hnot (Multiset.mem_singleton.mpr h.symm),
    H.live_iff.mpr (by simp), (segments_confined h₀ hpop.reach hp htype).1⟩

end VirtualKernel
