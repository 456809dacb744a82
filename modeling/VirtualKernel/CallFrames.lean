/-
What single calls leave alone.

`Steady` is what no call touches: the fixed descriptors and the word of the process
that awaits reaping (`Inv.steady`).  The calls that only map pages leave the objects
alone as well (`Inv.mapping_same`).  There is a machine that boots (`exists_booted`).
-/
import VirtualKernel.BootSpec

namespace VirtualKernel

open Lib

/-! ### A machine to start from -/

/-- Physical memory as the bootstrap leaves it, otherwise zero. -/
def entryRam : Ram where
  used := fun _ => false
  pmmNextPage := mainRamStart / pageSize
  frame := fun a => if a = pageDirBase then bootDirectory else fun _ => 0
  pageTableNext := pageTablePoolBase
  pageTableFreeList := 0

/-- A machine at `kernel_high_entry`. -/
def entryKernel : Kernel where
  ram := entryRam
  heap := ⟨fun _ => ⟨0, 0, 0, 0⟩, 0, 0, 0⟩
  mem := fun _ _ => 0
  gdtBitmap := fun _ => false
  gdt := initGdt
  slotBitmap := fun _ => false
  processTable := fun _ => 0
  processActiveCount := 0
  sched := schedulerInit
  kernelTssBase := 0
  kernelTssSelector := 0
  drivers := ⟨0, 0, 0, 0, 0, 0, 0, 0, 0, 0, 0, fun _ => 0⟩
  gateway := ⟨fun _ => 0, 0, 0, 16, 32, 48⟩
  tsc := fun _ => 0
  tr := 0

theorem entryKernel_atEntry : AtEntry entryKernel :=
  ⟨by simp [entryKernel, entryRam], rfl, rfl, rfl, rfl, rfl⟩

set_option maxRecDepth 100000 in
theorem entryKernel_boots :
    ((kernelHighEntry ⟨true, true⟩).run entryKernel).map Prod.fst = some true := by
  decide +kernel

/-- Some machine boots. -/
theorem exists_booted : ∃ w, Booted w := by
  obtain ⟨⟨b, k⟩, hrun, hb⟩ := Option.map_eq_some_iff.mp entryKernel_boots
  dsimp only at hb
  subst hb
  exact ⟨_, .entry entryKernel_atEntry hrun⟩

/-! ### What calls leave alone -/

/-- The fixed descriptors and the process that awaits reaping are the same. -/
structure Steady (k k' : Kernel) : Prop where
  gdt : ∀ i < gdtFirstDynamic, k'.gdt i = k.gdt i
  reap : k'.sched.reapProcess = k.sched.reapProcess

theorem Frame.steady {T : Items} {k k' : Kernel} (F : Frame T k k') : Steady k k' :=
  ⟨fun i hi => F.gdt i (Or.inl hi), F.reap⟩

theorem SameObjects.steady {k k' : Kernel} (S : SameObjects k k') : Steady k k' :=
  ⟨fun i _ => by rw [S.gdt], by rw [S.sched]⟩

/-- A call that returns has the outcome its specification gives. -/
theorem World.call_runs {α : Type} {w w' : World} {m : KM α} {held pages : α → List ℕ}
    {Q : α → Kernel → Prop} (hm : Runs m w.k Q) (h : w.call m held pages = some w') :
    ∃ a, Q a w'.k := by
  obtain ⟨a, k', hrun, hq⟩ := hm
  rw [World.call, hrun] at h
  obtain rfl := Option.some.inj h
  exact ⟨a, hq⟩

/-- Calls, as opposed to interrupts. -/
def Op.IsCall : Op → Prop
  | .tick _ => False
  | .fault _ => False
  | _ => True

/-- The calls that change page tables and at most the heap mark of an object. -/
def Op.IsMapping : Op → Prop
  | .prepare _ _ _ _ => True
  | .heapGrow _ => True
  | .allocPage => True
  | .freePage _ => True
  | .mapUser _ _ _ _ => True
  | .unmap _ _ => True
  | .storageMap _ => True
  | .driverWork _ => True
  | _ => False

namespace Inv

variable {w w' : World} {O : ℕ → Prop} {B : Items} {P : Multiset ℕ}

/-- **Calls that only map pages** leave the objects alone. -/
theorem mapping_same (H : Inv w O B P) {op : Op} (ha : op.Allowed w) (hop : op.IsMapping)
    (h : op.exec w = some w') : SameObjects w.k w'.k := by
  cases op with
  | prepare p source size image =>
    rw [Op.exec] at h
    obtain ⟨_, -, S⟩ := World.call_runs (processPrepareTestTask_keeps H.holds
      (H.dir_mem (H.live_iff.mp ha)) source size image) h
    exact S
  | heapGrow p =>
    rw [Op.exec] at h
    obtain ⟨_, -, S⟩ := World.call_runs
      (processHeapGrow_keeps H.holds (H.dir_mem (H.live_iff.mp ha))) h
    exact S
  | allocPage =>
    rw [Op.exec] at h
    obtain ⟨_, S, -⟩ := World.call_runs (kPmmAllocPage_keeps H.holds) h
    exact S
  | freePage n =>
    obtain ⟨hO, hn⟩ := H.pages n ha
    rw [Op.exec] at h
    obtain ⟨_, S, -⟩ := World.call_runs (kPmmFreePage_keeps H.holds hO hn) h
    exact S
  | mapUser pd virt phys flags =>
    obtain ⟨hpd, hown⟩ := ha
    -- a page that the mapping owns, or a shared one
    by_cases hfl : flags.testBit 9 = true
    · obtain ⟨n, hn, rfl⟩ := hown hfl
      obtain ⟨hO, ha⟩ := H.pages n hn
      rw [Op.exec] at h
      obtain ⟨_, S, -⟩ := World.call_runs
        (kMapUserPage_owned H.holds (H.liveDir hpd) virt hfl hO ha) h
      exact S
    · rw [Op.exec] at h
      obtain ⟨_, -, S⟩ := World.call_runs
        (kMapUserPage_shared H.holds (H.liveDir hpd) virt phys (by simpa using hfl)) h
      exact S
  | unmap pd virt =>
    rw [Op.exec] at h
    obtain ⟨_, -, S⟩ := World.call_runs
      (kUnmapPage_keeps H.holds (ha.1.imp_left H.liveDir) ha.2) h
    exact S
  | storageMap physical =>
    rw [Op.exec] at h
    obtain ⟨_, -, S⟩ := World.call_runs
      (storageMapMmioWindow_keeps H.holds (H.storage ha) physical) h
    exact S
  | driverWork mem =>
    obtain rfl := Option.some.inj h
    exact ⟨fun _ _ _ => rfl, rfl, rfl, rfl, rfl, rfl⟩
  | _ => exact absurd hop id

/-- What `process_create` leaves alone. -/
theorem create_frame (H : Inv w O B P) {type : ℕ} (h : (Op.create type).exec w = some w') :
    Frame (B + heldItems w.held + P.bind (liveItems w.k)) w.k w'.k := by
  rw [Op.exec] at h
  obtain ⟨_, F, -⟩ := World.call_runs (processCreate_spec H.holds H.tasksOwned type) h
  exact F

/-- What `process_destroy` leaves alone. -/
theorem destroy_frame (H : Inv w O B P) {p : ℕ} (hp : Live w.k p) (hrun : ¬RunningTask w.k p)
    (hreap : p ≠ w.k.sched.reapProcess) (h : (Op.destroy p).exec w = some w') :
    ∃ P', P = p ::ₘ P' ∧ Frame (B + heldItems w.held + P'.bind (liveItems w.k)) w.k w'.k := by
  have hpP := H.live_iff.mp hp
  have hC := H.complete p hpP
  obtain ⟨P', rfl, -, hsplit⟩ := H.split hpP
  have hH := H.holds
  rw [hsplit, show liveItems w.k p = procItems p (w.k.mem p) + {.task (w.k.mem p procTssSelector)}
    from if_neg hreap, ← add_assoc] at hH
  rw [Op.exec] at h
  obtain ⟨_, F, -⟩ := World.call_runs (processDestroy_spec hH hC.plain hC.sel_lt
    (Or.inl ⟨rfl, H.tr_ne hpP hrun⟩)) h
  exact ⟨P', rfl, F⟩

/-- What `heap_alloc` leaves alone. -/
theorem heapAlloc_frame (H : Inv w O B P) {size : ℕ} (h : (Op.heapAlloc size).exec w = some w') :
    Frame (B + heldItems w.held + P.bind (liveItems w.k)) w.k w'.k := by
  rw [Op.exec] at h
  obtain ⟨_, F, -⟩ := World.call_runs (kHeapAlloc_spec H.holds size) h
  exact F

/-- What `heap_free` leaves alone. -/
theorem heapFree_frame (H : Inv w O B P) {ptr : ℕ} (hp : ptr = 0 ∨ ptr ∈ w.held)
    (h : (Op.heapFree ptr).exec w = some w') : Frame (P.bind (liveItems w.k)) w.k w'.k := by
  by_cases hin : ptr ∈ w.held
  · obtain ⟨L, hL⟩ := Multiset.exists_cons_of_mem
      (Multiset.mem_map_of_mem Item.block (by simpa using hin : ptr ∈ (w.held : Multiset ℕ)))
    have hH := H.holds
    rw [heldItems, hL, show B + (Item.block ptr ::ₘ L) + P.bind (liveItems w.k) =
      B + L + P.bind (liveItems w.k) + {.block ptr} by
        rw [← Multiset.singleton_add]
        abel] at hH
    rw [Op.exec] at h
    obtain ⟨_, F, -⟩ := World.call_runs (kHeapFree_spec hH) h
    exact F.mono fun x hx => Multiset.mem_add.mpr (Or.inr hx)
  · obtain rfl := hp.resolve_right hin
    have hrun : (kHeapFree 0).run w.k = some ((), w.k) :=
      kHeapFree_run (h := w.k.heap) (by rw [VirtualKernel.heapFree, if_pos rfl])
    rw [Op.exec, World.call, hrun] at h
    obtain rfl := Option.some.inj h
    exact .refl _ _

/-- **Calls are steady.** -/
theorem steady (H : Inv w O B P) {op : Op} (ha : op.Allowed w) (hc : Careful w op)
    (hcall : op.IsCall) (h : op.exec w = some w') : Steady w.k w'.k := by
  cases op with
  | create type => exact (H.create_frame h).steady
  | destroy p =>
    obtain ⟨_, -, F⟩ := H.destroy_frame ha.1 ha.2 (hc p rfl) h
    exact F.steady
  | heapAlloc size => exact (H.heapAlloc_frame h).steady
  | heapFree ptr => exact (H.heapFree_frame ha h).steady
  | tick image => exact absurd hcall id
  | fault image => exact absurd hcall id
  | _ => exact (H.mapping_same ha trivial h).steady

/-! ### What is a process's own -/

theorem slot_lt (H : Inv w O B P) {p : ℕ} (hp : p ∈ P) (hs : w.k.mem p procSlotIndex ≠ noIndex) :
    w.k.mem p procSlotIndex < processMaxCount :=
  H.holds.slot.range _ (H.mem_items hp (slot_mem_procItems hs))

theorem slot_inj (H : Inv w O B P) {p q : ℕ} (hp : p ∈ P) (hq : q ∈ P)
    (hs : w.k.mem p procSlotIndex ≠ noIndex)
    (h : w.k.mem p procSlotIndex = w.k.mem q procSlotIndex) : p = q := by
  refine H.eq_of_mem hp hq (slot_mem_procItems hs) ?_
  rw [h]
  exact slot_mem_procItems (h ▸ hs)

theorem dir_inj (H : Inv w O B P) {p q : ℕ} (hp : p ∈ P) (hq : q ∈ P)
    (h : w.k.mem p procPageDir = w.k.mem q procPageDir) : p = q := by
  refine H.eq_of_mem hp hq (dir_mem_procItems (H.complete p hp).dir) ?_
  rw [h]
  exact dir_mem_procItems (H.complete q hq).dir

end Inv

end VirtualKernel
