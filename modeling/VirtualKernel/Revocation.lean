/-
What the kernel does to the owner word of the graphics driver.

Apart from `graphics_release_process` no routine of the kernel writes the word:
the stacks that `process_create` clears in the windows of the drivers lie
elsewhere.  So a call of the kernel keeps the owner or revokes it
(`revokes_exec`), and `process_destroy` revokes it when the process is the owner
(`processDestroy_revokes`).
-/
import VirtualKernel.SystemTick
import VirtualKernel.Intel915

namespace VirtualKernel

open Lib

/-- The words of `struct intel915_shared`. -/
def SharedWord (a : ℕ) : Prop := i915Shared ≤ a ∧ a < i915Shared + 0x9C

/-- The shared state of the graphics driver is what it was, but for an owner
that may have been revoked. -/
structure Revokes (k k' : Kernel) : Prop where
  ready : k'.drivers.graphicsReady = k.drivers.graphicsReady
  shared : ∀ a, SharedWord a → a ≠ ownerTssSelector → k'.drivers.mem a = k.drivers.mem a
  owner : k'.drivers.mem ownerTssSelector = k.drivers.mem ownerTssSelector ∨
    k'.drivers.mem ownerTssSelector = 0

/-- Once revoked, the owner stays revoked. -/
instance : IsPreorder Kernel Revokes where
  refl _ := ⟨rfl, fun _ _ _ => rfl, Or.inl rfl⟩
  trans _ _ _ h h' := ⟨h'.ready.trans h.ready,
    fun a ha hne => (h'.shared a ha hne).trans (h.shared a ha hne),
    h'.owner.elim (fun heq => h.owner.imp heq.trans heq.trans) Or.inr⟩

/-- Nothing is revoked where the memory of the drivers is what it was. -/
theorem Revokes.of_drivers {k k' : Kernel} (h : k'.drivers = k.drivers) : Revokes k k' :=
  ⟨by rw [h], fun _ _ _ => by rw [h], Or.inl (by rw [h])⟩

variable {α : Type} {m : KM α}

/-- A routine that does not touch the drivers revokes nothing. -/
theorem revokes_of_keeps (h : Keeps Kernel.drivers m) : Within Revokes m :=
  fun k a k' hr => .of_drivers (h k a k' hr)

/-! ### Routines that leave the drivers alone -/

theorem drivers_load (p off : ℕ) : Keeps Kernel.drivers (load p off) := keeps_modifyGet fun _ => rfl

theorem drivers_store (p off v : ℕ) : Keeps Kernel.drivers (store p off v) := keeps_modify fun _ => rfl

theorem drivers_rewrite (p : ℕ) (g : Kernel → (ℕ → ℕ) → ℕ → ℕ) :
    Keeps Kernel.drivers (rewrite p g) := keeps_modify fun _ => rfl

/-- Objects lie in the heap of the kernel, not in the windows of the drivers. -/
theorem drivers_zeroFill (p n : ℕ) : Keeps Kernel.drivers (zeroFill p n) := drivers_rewrite _ _

theorem drivers_onRam {β : Type} (f : Ram → β × Ram) : Keeps Kernel.drivers (onRam f) :=
  keeps_modifyGet fun _ => rfl

theorem drivers_onSched {β : Type} (f : Sched → β × Sched) : Keeps Kernel.drivers (onSched f) :=
  keeps_modifyGet fun _ => rfl

theorem drivers_kHeapAlloc (size : ℕ) : Keeps Kernel.drivers (kHeapAlloc size) :=
  keeps_kHeapAlloc (fun _ _ _ => rfl) size

theorem drivers_kHeapFree (ptr : ℕ) : Keeps Kernel.drivers (kHeapFree ptr) :=
  keeps_kHeapFree (fun _ _ => rfl) ptr

theorem drivers_gdtFreeSelector (sel : ℕ) : Keeps Kernel.drivers (gdtFreeSelector sel) :=
  keeps_modify fun k => by dsimp only; split_ifs <;> rfl

/-- The descriptor table is not theirs either. -/
theorem drivers_gdtCreateDescriptor (desc : ℕ × ℕ) : Keeps Kernel.drivers (gdtCreateDescriptor desc) := by
  refine keeps_bind (keeps_modifyGet fun k => by split <;> rfl) fun sel => ?_
  cases sel with
  | none => exact keeps_pure _
  | some sel => exact keeps_bind (keeps_modify fun _ => rfl) fun _ => keeps_pure _

theorem drivers_ldtAllocSelector (bitmap count : ℕ) :
    Keeps Kernel.drivers (ldtAllocSelector bitmap count) := by
  refine keeps_modifyGet fun k => ?_
  split_ifs
  · rfl
  · dsimp only
    split <;> rfl

theorem drivers_processWriteSegments (esi ldt base : ℕ) :
    Keeps Kernel.drivers (processWriteSegments esi ldt base) := by
  refine keeps_bind (drivers_load _ _) fun _ => keeps_bind (drivers_rewrite _ _) fun _ => ?_
  refine keeps_bind (drivers_load _ _) fun _ => keeps_bind (drivers_rewrite _ _) fun _ => ?_
  refine keeps_bind (drivers_load _ _) fun _ => keeps_bind (drivers_rewrite _ _) fun _ => ?_
  exact keeps_pure _

theorem drivers_processLdtFreeGdt (sel bitmap ldt : ℕ) :
    Keeps Kernel.drivers (processLdtFreeGdt sel bitmap ldt) :=
  keeps_bind (drivers_gdtFreeSelector _) fun _ => keeps_bind (drivers_kHeapFree _) fun _ =>
    keeps_bind (drivers_kHeapFree _) fun _ => keeps_pure _

/-- Whichever of the three allocations fails. -/
theorem drivers_processAllocLdtSelectors (esi sel bitmap ldt base : ℕ) :
    Keeps Kernel.drivers (processAllocLdtSelectors esi sel bitmap ldt base) := by
  have hundo := drivers_processLdtFreeGdt sel bitmap ldt
  refine keeps_bind (drivers_ldtAllocSelector _ _) fun cs => ?_
  cases cs with
  | none => exact hundo
  | some cs =>
    refine keeps_bind (drivers_store _ _ _) fun _ => keeps_bind (drivers_ldtAllocSelector _ _) fun ds => ?_
    cases ds with
    | none => exact hundo
    | some ds =>
      refine keeps_bind (drivers_store _ _ _) fun _ => keeps_bind (drivers_ldtAllocSelector _ _) fun ss => ?_
      cases ss with
      | none => exact hundo
      | some ss => exact keeps_bind (drivers_store _ _ _) fun _ => drivers_processWriteSegments _ _ _

/-- The local table is created, or undone, without them. -/
theorem drivers_processCreateRandomLdt (esi base : ℕ) :
    Keeps Kernel.drivers (processCreateRandomLdt esi base) := by
  refine keeps_ite (keeps_pure _) (keeps_bind (drivers_kHeapAlloc _) fun ldt => ?_)
  refine keeps_ite (keeps_pure _) (keeps_bind (drivers_store _ _ _) fun _ => ?_)
  refine keeps_bind (drivers_zeroFill _ _) fun _ => keeps_bind (drivers_kHeapAlloc _) fun bitmap => ?_
  refine keeps_ite (keeps_bind (drivers_kHeapFree _) fun _ => keeps_pure _) ?_
  refine keeps_bind (drivers_store _ _ _) fun _ => keeps_bind (drivers_zeroFill _ _) fun _ => ?_
  refine keeps_bind (drivers_rewrite _ _) fun _ => keeps_bind (drivers_gdtCreateDescriptor _) fun sel => ?_
  cases sel with
  | none =>
    exact keeps_bind (drivers_kHeapFree _) fun _ => keeps_bind (drivers_kHeapFree _) fun _ => keeps_pure _
  | some sel =>
    exact keeps_bind (drivers_store _ _ _) fun _ => drivers_processAllocLdtSelectors _ _ _ _ _

theorem drivers_processMemoryUndo (esi dir : ℕ) : Keeps Kernel.drivers (processMemoryUndo esi dir) :=
  keeps_bind (drivers_onRam _) fun _ => keeps_bind (drivers_kHeapFree _) fun _ => keeps_pure _

/-- Page tables are pages of the pool. -/
theorem drivers_processMemoryDestroy (esi : ℕ) : Keeps Kernel.drivers (processMemoryDestroy esi) :=
  keeps_ite (keeps_pure _) (keeps_bind (drivers_load _ _) fun _ =>
    keeps_bind (drivers_onRam _) fun _ => drivers_kHeapFree _)

theorem drivers_processMemoryCreate : Keeps Kernel.drivers processMemoryCreate := by
  refine keeps_bind (drivers_kHeapAlloc _) fun esi => keeps_ite (keeps_pure _) ?_
  refine keeps_bind (drivers_rewrite _ _) fun _ => keeps_bind (drivers_onRam _) fun dir => ?_
  cases dir with
  | none => exact keeps_bind (drivers_kHeapFree _) fun _ => keeps_pure _
  | some dir =>
    refine keeps_bind (drivers_rewrite _ _) fun _ => keeps_bind (drivers_onRam _) fun _ => ?_
    exact keeps_ite (keeps_bind (drivers_store _ _ _) fun _ => keeps_pure _)
      (drivers_processMemoryUndo _ _)

theorem drivers_v86ProcessMemoryCreate : Keeps Kernel.drivers v86ProcessMemoryCreate := by
  refine keeps_bind (drivers_kHeapAlloc _) fun esi => keeps_ite (keeps_pure _) ?_
  refine keeps_bind (drivers_rewrite _ _) fun _ => keeps_bind (drivers_onRam _) fun dir => ?_
  cases dir with
  | none => exact keeps_bind (drivers_kHeapFree _) fun _ => keeps_pure _
  | some dir =>
    refine keeps_bind (drivers_store _ _ _) fun _ => keeps_bind (drivers_onRam _) fun _ => ?_
    exact keeps_ite (keeps_pure _) (drivers_processMemoryUndo _ _)

theorem drivers_processInstallSyscallGateway (esi : ℕ) :
    Keeps Kernel.drivers (processInstallSyscallGateway esi) :=
  keeps_bind keeps_get fun _ => keeps_ite (keeps_pure _) (drivers_onRam _)

theorem drivers_processSlotFree (i : ℕ) : Keeps Kernel.drivers (processSlotFree i) :=
  keeps_modify fun k => by split_ifs <;> rfl

theorem drivers_processRegister (esi : ℕ) : Keeps Kernel.drivers (processRegister esi) := by
  refine keeps_modifyGet fun k => ?_
  split_ifs
  · rfl
  · split <;> rfl

/-- The tables of processes and slots. -/
theorem drivers_processUnregister (esi : ℕ) : Keeps Kernel.drivers (processUnregister esi) :=
  keeps_modify fun k => by dsimp only; split_ifs <;> rfl

/-- Releasing a field leaves the drivers alone when the release itself does. -/
theorem drivers_releaseField {esi off none : ℕ} {release : ℕ → KM Unit}
    (h : ∀ eax, Keeps Kernel.drivers (release eax)) :
    Keeps Kernel.drivers (releaseField esi off none release) :=
  keeps_bind (drivers_load _ _) fun eax =>
    keeps_ite (keeps_pure _) (keeps_bind (h eax) fun _ => drivers_store _ _ _)

theorem drivers_processHeapGrow (esi : ℕ) : Keeps Kernel.drivers (processHeapGrow esi) := by
  refine keeps_bind keeps_get fun k => keeps_ite (keeps_pure _) ?_
  refine keeps_bind (drivers_onRam _) fun _ => keeps_ite ?_ (keeps_pure _)
  exact keeps_bind (drivers_store _ _ _) fun _ => keeps_pure _

/-- The image goes to pages of the process. -/
theorem drivers_processPrepareTestTask (esi source size : ℕ) (image : ℕ → ℕ) :
    Keeps Kernel.drivers (processPrepareTestTask esi source size image) := by
  refine keeps_bind keeps_get fun k => keeps_ite (keeps_pure _) ?_
  cases entryAddress k esi with
  | none => exact keeps_pure _
  | some edx =>
    refine keeps_ite (keeps_pure _) (keeps_bind (drivers_onRam _) fun _ => keeps_ite ?_ (keeps_pure _))
    exact keeps_bind (drivers_onRam _) fun _ => keeps_ite (keeps_pure _) (keeps_pure _)

theorem drivers_kSchedulerSwitchNext (image : ℕ → ℕ) :
    Keeps Kernel.drivers (kSchedulerSwitchNext image) :=
  keeps_modify fun k => by dsimp only; split_ifs <;> rfl

/-- A fault only marks the process; its destruction, with the revocation, comes with a later
tick. -/
theorem drivers_terminateCurrent (image : ℕ → ℕ) : Keeps Kernel.drivers (terminateCurrent image) := by
  refine keeps_modifyGet fun k => ?_
  dsimp only
  split_ifs
  · rfl
  · split <;> rfl

/-! ### The stacks of the drivers -/

/-- Clearing a window that does not hold the shared state. -/
theorem revokes_prepareStack {edi window esp espField ssField selector : ℕ}
    (h : i915Shared + 0x9C ≤ window ∨ window + 0x2000 ≤ i915Shared) :
    Within Revokes (prepareStack edi window esp espField ssField selector) := by
  have hout : ∀ a, SharedWord a → ¬(window ≤ a ∧ a < window + 0x2000) := fun a ha => by
    obtain ⟨h1, h2⟩ := ha
    omega
  refine within_bind (within_modify fun k => ⟨rfl, fun a ha _ => if_neg (hout a ha),
    Or.inl (if_neg (hout _ (by unfold SharedWord; decide)))⟩) fun _ => ?_
  exact revokes_of_keeps (drivers_rewrite _ _)

/-- The stack of the keyboard driver that is cleared for a process is no word of the shared
state. -/
theorem revokes_keyboardPrepareProcess (esi edi : ℕ) :
    Within Revokes (keyboardPrepareProcess esi edi) := by
  refine within_bind within_get fun k => within_ite (fun _ => within_pure _) fun h => ?_
  refine revokes_prepareStack (Or.inr ?_)
  simp only [keyboardStack, i915Shared, i915Base, processMaxCount] at h ⊢
  omega

/-- Nor is the stack of the graphics driver, which lies in the same window. -/
theorem revokes_graphicsPrepareProcess (esi edi : ℕ) :
    Within Revokes (graphicsPrepareProcess esi edi) := by
  refine within_bind within_get fun k => within_ite (fun _ => ?_) fun _ => ?_
  · refine within_ite (fun _ => within_pure _) fun _ => revokes_prepareStack (Or.inl ?_)
    simp only [azaliaStack, i915Shared, i915Base]
    omega
  · refine within_ite (fun _ => within_pure _) fun _ => revokes_prepareStack (Or.inl ?_)
    simp only [graphicsStack, i915Shared, i915Base]
    omega

/-! ### Creating and destroying processes -/

theorem drivers_processTssFree (esi tss : ℕ) : Keeps Kernel.drivers (processTssFree esi tss) :=
  keeps_bind (drivers_kHeapFree _) fun _ => keeps_bind (drivers_store _ _ _) fun _ => keeps_pure _

theorem drivers_processTssFreeStack (esi tss stack : ℕ) :
    Keeps Kernel.drivers (processTssFreeStack esi tss stack) :=
  keeps_bind (drivers_kHeapFree _) fun _ => keeps_bind (drivers_store _ _ _) fun _ =>
    drivers_processTssFree _ _

/-- Both kinds of TSS, on every path. -/
theorem revokes_createTss {esi objectSize limit : ℕ} {owner : ℕ → (ℕ → ℕ) → ℕ → ℕ}
    {fields : ℕ → ℕ → KM Unit} (h : ∀ esi tss, Within Revokes (fields esi tss)) :
    Within Revokes (createTss esi objectSize limit owner fields) := by
  have hk : ∀ {β : Type} {m : KM β}, Keeps Kernel.drivers m → Within Revokes m := revokes_of_keeps
  refine within_ite (fun _ => within_pure _) fun _ => ?_
  refine within_bind (hk (drivers_kHeapAlloc _)) fun tss => within_ite (fun _ => within_pure _) fun _ => ?_
  refine within_bind (hk (drivers_store _ _ _)) fun _ => within_bind (hk (drivers_zeroFill _ _)) fun _ => ?_
  refine within_bind (hk (drivers_rewrite _ _)) fun _ => within_bind (hk (drivers_kHeapAlloc _)) fun stack => ?_
  refine within_ite (fun _ => hk (drivers_processTssFree _ _)) fun _ => ?_
  refine within_bind (hk (drivers_store _ _ _)) fun _ => within_bind (hk (drivers_rewrite _ _)) fun _ => ?_
  refine within_bind (h _ _) fun _ => within_bind (hk (drivers_gdtCreateDescriptor _)) fun sel => ?_
  cases sel with
  | none => exact hk (drivers_processTssFreeStack _ _ _)
  | some sel => exact within_bind (hk (drivers_store _ _ _)) fun _ => within_pure _

theorem revokes_processCreateTss (esi : ℕ) : Within Revokes (processCreateTss esi) :=
  revokes_createTss fun _ _ => within_bind (revokes_keyboardPrepareProcess _ _) fun _ =>
    within_bind (revokes_graphicsPrepareProcess _ _) fun _ => revokes_of_keeps (drivers_rewrite _ _)

theorem revokes_v86ProcessCreateTss (esi : ℕ) : Within Revokes (v86ProcessCreateTss esi) :=
  revokes_createTss fun _ _ => revokes_of_keeps (drivers_rewrite _ _)

/-- The one routine that writes the owner word writes 0. -/
theorem revokes_graphicsReleaseProcess (esi : ℕ) : Within Revokes (graphicsReleaseProcess esi) := by
  refine within_modify fun k => ?_
  dsimp only
  split_ifs
  · exact refl_of Revokes k
  · exact ⟨rfl, fun a _ hne => Function.update_of_ne hne _ _,
      Or.inr (Function.update_self (0x71008000 : ℕ) 0 k.drivers.mem)⟩

/-- The part of `process_destroy` behind `graphics_release_process`. -/
def processTeardownFields (esi : ℕ) : KM Unit := do
  releaseField esi procTssSelector 0 gdtFreeSelector
  releaseField esi procTssBase 0 kHeapFree
  releaseField esi procKstackTop 0 fun eax => kHeapFree (sub32 eax pageSize)
  releaseField esi procLdtSelector 0 gdtFreeSelector
  releaseField esi procLdtBitmap 0 kHeapFree
  releaseField esi procLdtBase 0 kHeapFree
  releaseField esi procSlotIndex noIndex fun eax => do
    processSlotFree eax
    store esi procSlotBase 0
  releaseField esi procPageDir 0 fun eax => onRam fun r => ((), destroyPageDirectory eax r)
  kHeapFree esi

/-- The fields of the object are released one after another. -/
theorem drivers_processTeardownFields (esi : ℕ) : Keeps Kernel.drivers (processTeardownFields esi) := by
  refine keeps_bind (drivers_releaseField drivers_gdtFreeSelector) fun _ => ?_
  refine keeps_bind (drivers_releaseField drivers_kHeapFree) fun _ => ?_
  refine keeps_bind (drivers_releaseField fun _ => drivers_kHeapFree _) fun _ => ?_
  refine keeps_bind (drivers_releaseField drivers_gdtFreeSelector) fun _ => ?_
  refine keeps_bind (drivers_releaseField drivers_kHeapFree) fun _ => ?_
  refine keeps_bind (drivers_releaseField drivers_kHeapFree) fun _ => ?_
  refine keeps_bind (drivers_releaseField fun _ =>
    keeps_bind (drivers_processSlotFree _) fun _ => drivers_store _ _ _) fun _ => ?_
  exact keeps_bind (drivers_releaseField fun _ => drivers_onRam _) fun _ => drivers_kHeapFree _

theorem revokes_processTeardown (esi : ℕ) : Within Revokes (processTeardown esi) :=
  within_bind (revokes_of_keeps (drivers_processUnregister _)) fun _ =>
    within_bind (revokes_graphicsReleaseProcess _) fun _ =>
      revokes_of_keeps (drivers_processTeardownFields _)

/-- A destruction revokes at most. -/
theorem revokes_processDestroy (esi : ℕ) : Within Revokes (processDestroy esi) := by
  refine within_ite (fun _ => within_pure _) fun _ => ?_
  refine within_bind (revokes_of_keeps ?_) fun eax =>
    within_ite (fun _ => within_pure _) fun _ => revokes_processTeardown esi
  exact keeps_bind (drivers_load _ _) fun _ => drivers_onSched _

theorem revokes_processCreateUndo (esi : ℕ) : Within Revokes (processCreateUndo esi) :=
  within_bind (revokes_processDestroy _) fun _ => within_pure _

theorem revokes_processPublish (esi : ℕ) : Within Revokes (processPublish esi) := by
  refine within_bind (revokes_of_keeps (drivers_processRegister _)) fun _ =>
    within_ite (fun _ => revokes_processCreateUndo _) fun _ => ?_
  refine within_bind (revokes_of_keeps ?_) fun _ =>
    within_ite (fun _ => revokes_processCreateUndo _) fun _ => within_pure _
  exact keeps_bind (drivers_load _ _) fun _ => drivers_onSched _

theorem revokes_processCreateProtected32 : Within Revokes processCreateProtected32 := by
  have hk : ∀ {β : Type} {m : KM β}, Keeps Kernel.drivers m → Within Revokes m := revokes_of_keeps
  refine within_bind (hk drivers_processMemoryCreate) fun esi => within_ite (fun _ => within_pure _) fun _ => ?_
  refine within_bind (hk (drivers_store _ _ _)) fun _ => ?_
  refine within_bind (hk (keeps_modifyGet fun k => by split <;> rfl)) fun slot => ?_
  cases slot with
  | none => exact within_bind (hk (drivers_processMemoryDestroy _)) fun _ => within_pure _
  | some slot =>
    refine within_bind (hk (drivers_rewrite _ _)) fun _ => ?_
    refine within_bind (hk (drivers_processCreateRandomLdt _ _)) fun eax => within_ite (fun _ => ?_) fun _ => ?_
    · exact within_bind (hk (drivers_processSlotFree _)) fun _ =>
        within_bind (hk (drivers_processMemoryDestroy _)) fun _ => within_pure _
    refine within_bind (revokes_processCreateTss _) fun _ =>
      within_ite (fun _ => ?_) fun _ => revokes_processCreateUndo _
    exact within_bind (hk (drivers_processInstallSyscallGateway _)) fun _ =>
      within_ite (fun _ => revokes_processPublish _) fun _ => revokes_processCreateUndo _

theorem revokes_v86ProcessCreate : Within Revokes v86ProcessCreate := by
  refine within_bind (revokes_of_keeps drivers_v86ProcessMemoryCreate) fun esi =>
    within_ite (fun _ => within_pure _) fun _ => ?_
  exact within_bind (revokes_v86ProcessCreateTss _) fun _ =>
    within_ite (fun _ => revokes_processPublish _) fun _ => revokes_processCreateUndo _

/-- A creation revokes at most: a failed one destroys what it has made. -/
theorem revokes_processCreate (type : ℕ) : Within Revokes (processCreate type) :=
  within_ite (fun _ => revokes_processCreateProtected32) fun _ =>
    within_ite (fun _ => revokes_v86ProcessCreate) fun _ => within_pure _

theorem revokes_schedulerReapTerminated : Within Revokes schedulerReapTerminated := by
  refine within_bind within_get fun k => within_ite (fun _ => within_pure _) fun _ => ?_
  exact within_bind (within_modify fun _ => .of_drivers rfl) fun _ => revokes_processDestroy _

/-- The window of the storage driver is another one. -/
theorem revokes_storageMapMmioWindow (physical : ℕ) :
    Within Revokes (storageMapMmioWindow physical) := by
  refine within_bind within_get fun k => within_ite (fun _ => within_pure _) fun _ =>
    within_ite (fun _ => within_pure _) fun _ => ?_
  refine within_bind (revokes_of_keeps (drivers_onRam _)) fun _ => ?_
  exact within_ite (fun _ => within_bind (within_modify fun _ => ⟨rfl, fun _ _ _ => rfl, Or.inl rfl⟩)
    fun _ => within_pure _) fun _ => within_pure _

/-! ### The owner is revoked with its process -/

/-- `graphics_release_process` of the owner. -/
theorem graphicsReleaseProcess_owner {k : Kernel} {p : ℕ} (hr : k.drivers.graphicsReady = 1)
    (h0 : k.mem p procTssSelector ≠ 0)
    (ho : k.drivers.mem ownerTssSelector = k.mem p procTssSelector) :
    Ensures (graphicsReleaseProcess p) k fun _ k' => k'.drivers.mem ownerTssSelector = 0 := by
  refine ensures_modify ?_
  have hne : ¬(k.drivers.graphicsReady ≠ 1 ∨ k.mem p procTssSelector = 0 ∨
      k.mem p procTssSelector ≠ k.drivers.mem 0x71008000) := by
    rintro (h | h | h)
    · exact h hr
    · exact h0 h
    · exact h ho.symm
  dsimp only
  rw [if_neg hne]
  exact Function.update_self (0x71008000 : ℕ) 0 k.drivers.mem

/-- When the owner is torn down, the owner word is 0 afterwards. -/
theorem processTeardown_owner {k : Kernel} {p : ℕ} (hr : k.drivers.graphicsReady = 1)
    (h0 : k.mem p procTssSelector ≠ 0)
    (ho : k.drivers.mem ownerTssSelector = k.mem p procTssSelector) :
    Ensures (processTeardown p) k fun _ k' => k'.drivers.mem ownerTssSelector = 0 := by
  -- the process leaves the process table first
  refine ensures_bind (Q := fun _ k₁ => k₁.drivers = k.drivers ∧
    k₁.mem p procTssSelector = k.mem p procTssSelector) (ensures_modify ?_) ?_
  · dsimp only
    split_ifs
    · exact ⟨rfl, rfl⟩
    · exact ⟨rfl, by simp [Kernel.setMem]⟩
  rintro - k₁ ⟨hd, hm⟩
  rw [← hd, ← hm] at ho
  rw [← hd] at hr
  rw [← hm] at h0
  refine ensures_bind (graphicsReleaseProcess_owner hr h0 ho) fun _ k₂ h₂ => ?_
  intro a k₃ hrun
  rw [drivers_processTeardownFields p k₂ a k₃ hrun]
  exact h₂

/-- **`process_destroy` of the owner** revokes it, unless the process keeps its
place in the process table. -/
theorem processDestroy_owner {k : Kernel} {p : ℕ} (hr : k.drivers.graphicsReady = 1)
    (h0 : k.mem p procTssSelector ≠ 0)
    (ho : k.drivers.mem ownerTssSelector = k.mem p procTssSelector) :
    Ensures (processDestroy p) k fun _ k' =>
      k'.drivers.mem ownerTssSelector = 0 ∨ k'.processTable = k.processTable := by
  refine ensures_ite (fun _ => ensures_pure (Or.inr rfl)) fun _ => ?_
  refine ensures_bind (Q := fun _ k₁ => k₁.drivers = k.drivers ∧ k₁.mem = k.mem ∧
    k₁.processTable = k.processTable) ?_ ?_
  · exact ensures_modifyGet_bind (ensures_modifyGet ⟨rfl, rfl, rfl⟩)
  rintro eax k₁ ⟨hd, hm, ht⟩
  refine ensures_ite (fun _ => ensures_pure (Or.inr ht)) fun _ => ?_
  rw [← hd, ← hm] at ho
  rw [← hd] at hr
  rw [← hm] at h0
  exact (processTeardown_owner hr h0 ho).mono fun _ _ => Or.inl

/-- Reaping the owner. -/
theorem schedulerReapTerminated_owner {k : Kernel} (hr : k.drivers.graphicsReady = 1)
    (h0 : k.mem k.sched.reapProcess procTssSelector ≠ 0)
    (ho : k.drivers.mem ownerTssSelector = k.mem k.sched.reapProcess procTssSelector) :
    Ensures schedulerReapTerminated k fun _ k' =>
      k'.drivers.mem ownerTssSelector = 0 ∨ k'.processTable = k.processTable := by
  refine ensures_get_bind (ensures_ite (fun _ => ensures_pure (Or.inr rfl)) fun _ => ?_)
  exact ensures_modify_bind (processDestroy_owner
    (k := { k with sched := { k.sched with reapProcess := 0 } }) hr h0 ho)

/-! ### Steps of the system -/

/-- A call of the world runs its routine. -/
theorem World.call_run {w w' : World} {held pages : α → List ℕ}
    (h : w.call m held pages = some w') : ∃ a, m.run w.k = some (a, w'.k) := by
  obtain ⟨⟨a, k'⟩, hrun, rfl⟩ := Option.map_eq_some_iff.mp h
  exact ⟨a, hrun⟩

/-- **A step of the kernel** keeps the owner of the graphics driver or revokes
it. -/
theorem revokes_exec {w w' : World} {op : Op} (hop : ∀ mem, op ≠ .driverWork mem)
    (h : op.exec w = some w') : Revokes w.k w'.k := by
  have hcall : ∀ {β : Type} {m : KM β} {held pages : β → List ℕ}, Within Revokes m →
      w.call m held pages = some w' → Revokes w.k w'.k := fun hm h => by
    obtain ⟨a, hrun⟩ := World.call_run h
    exact hm _ _ _ hrun
  unfold Op.exec at h
  cases op with
  | create type => exact hcall (revokes_processCreate type) h
  | destroy p => exact hcall (revokes_processDestroy p) h
  | prepare p source size image =>
    exact hcall (revokes_of_keeps (drivers_processPrepareTestTask p source size image)) h
  | heapGrow p => exact hcall (revokes_of_keeps (drivers_processHeapGrow p)) h
  | heapAlloc size => exact hcall (revokes_of_keeps (drivers_kHeapAlloc size)) h
  | heapFree ptr => exact hcall (revokes_of_keeps (drivers_kHeapFree ptr)) h
  | tick image =>
    exact hcall (within_bind revokes_schedulerReapTerminated fun _ =>
      revokes_of_keeps (drivers_kSchedulerSwitchNext image)) h
  | fault image =>
    exact hcall (within_bind revokes_schedulerReapTerminated fun _ =>
      revokes_of_keeps (drivers_terminateCurrent image)) h
  | storageMap physical => exact hcall (revokes_storageMapMmioWindow physical) h
  | driverWork mem => exact absurd rfl (hop mem)
  | _ => exact hcall (revokes_of_keeps (drivers_onRam _)) h

end VirtualKernel
