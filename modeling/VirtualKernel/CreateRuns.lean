/-
Runs of the system in which processes come to be.

A machine that has just booted has room for hundreds of processes
(`exists_booted_room`), and as long as there is room `process_create` adds one,
in the first free slot (`Inv.create_room`).  So there are runs that end with any
number of processes up to `MAX_PROCESSES`, in the slots from 0 on
(`exists_populated`), and runs in which a process of either type comes to run
(`exists_running`).
-/
import VirtualKernel.CreateProgress

namespace VirtualKernel

open Lib

/-! ### A machine with room -/

set_option maxRecDepth 100000 in
theorem entryKernel_room :
    ((kernelHighEntry ⟨true, true⟩).run entryKernel).map (fun x =>
      (x.1, decide (x.2.heap.committed ≤ kheapBase + 0x10000),
        decide (x.2.ram.pageTableNext ≤ pageTablePoolBase + 0x10000),
        (List.range 1000).all fun i => !x.2.ram.used (0x400 + i))) = some (true, true, true, true) := by
  decide +kernel

/-- **A machine that has just booted has room.** -/
theorem exists_booted_room : ∃ w B, Booted w ∧ w.held = [] ∧ w.pages = [] ∧ B.card = 3 ∧
    Inv w (fun n => ¬Allocatable n) B 0 ∧ Room 1000 1000 700 w.k := by
  obtain ⟨⟨b, k⟩, hrun, hb⟩ := Option.map_eq_some_iff.mp entryKernel_room
  simp only [Prod.mk.injEq, decide_eq_true_eq] at hb
  obtain ⟨rfl, hheap, hnext, hfree⟩ := hb
  obtain ⟨B, hB, H⟩ := kernelHighEntry_inv entryKernel_atEntry hrun
  refine ⟨⟨k, [], []⟩, B, .entry entryKernel_atEntry hrun, rfl, rfl, hB, H, ?_, ?_, ?_⟩
  · dsimp only
    simp only [pageSize, kheapMaxSize]
    omega
  · refine ⟨(Finset.range 1000).image (0x400 + ·), ?_, fun m hm => ?_⟩
    · rw [Finset.card_image_of_injective _ (fun i j h => by simpa using h), Finset.card_range]
    · obtain ⟨i, hi, rfl⟩ := Finset.mem_image.mp hm
      have hi := List.all_eq_true.mp hfree i (List.mem_range.mpr (Finset.mem_range.mp hi))
      simpa using hi
  · refine ⟨(Finset.range 700).image (pageTablePoolBase + 0x10000 + · * pageSize), ?_, fun m hm => ?_⟩
    · rw [Finset.card_image_of_injective, Finset.card_range]
      intro i j h
      simp only [pageSize] at h
      omega
    · obtain ⟨i, hi, rfl⟩ := Finset.mem_image.mp hm
      have hi := Finset.mem_range.mp hi
      have hpool : pageTablePoolBase = 0x30500000 := rfl
      have hend : pageTablePoolEnd = 0x30800000 := rfl
      simp only [pageSize]
      refine ⟨by omega, by omega, by omega, fun hu => ?_⟩
      have hlt := hu.1.2.1
      omega

/-! ### Processes and the room they take -/

namespace Inv

variable {w : World} {O : ℕ → Prop} {B : Items} {P : Multiset ℕ} {a b c : ℕ}

theorem card_liveItems_le (k : Kernel) (p : ℕ) : (liveItems k p).card ≤ 11 := by
  have h := card_procItems_le p (k.mem p)
  unfold liveItems queuedItems
  split_ifs
  · omega
  · rw [Multiset.card_add, Multiset.card_singleton]
    omega

theorem card_bind_le {f : ℕ → Items} {n : ℕ} (hf : ∀ p, (f p).card ≤ n) (P : Multiset ℕ) :
    (P.bind f).card ≤ P.card * n := by
  induction P using Multiset.induction with
  | empty => simp
  | cons p P ih =>
    have hp := hf p
    rw [Multiset.cons_bind, Multiset.card_add, Multiset.card_cons, Nat.succ_mul]
    omega

theorem mem_itemIf_iff {v none : ℕ} {x y : Item} : y ∈ itemIf v none x ↔ v ≠ none ∧ y = x := by
  unfold itemIf
  split_ifs with h <;> simp [h]

/-- The only slot among the items of a process is its own. -/
theorem slot_mem_liveItems {k : Kernel} {p i : ℕ} (h : Item.slot i ∈ liveItems k p) :
    i = k.mem p procSlotIndex := by
  have hproc : Item.slot i ∈ procItems p (k.mem p) := by
    unfold liveItems at h
    split_ifs at h
    · exact h
    · exact (Multiset.mem_add.mp h).resolve_right (by simp)
  simp only [procItems, Multiset.mem_add, mem_itemIf_iff, Multiset.mem_singleton, reduceCtorEq,
    and_false, or_false, false_or, Item.slot.injEq] at hproc
  exact hproc.2

/-- **While fewer than a hundred processes exist** the tables have entries left. -/
theorem spare (H : Inv w O B P) (hP : P.card < processMaxCount)
    (hB : B.card + w.held.length ≤ 1000) :
    Spare (B + heldItems w.held + P.bind (liveItems w.k)) where
  gdt := by
    have hbind := card_bind_le (card_liveItems_le w.k) P
    have hheld : (heldItems w.held).card = w.held.length := by
      rw [heldItems, Multiset.card_map, Multiset.coe_card]
    rw [Multiset.card_add, Multiset.card_add, hheld]
    simp only [processMaxCount] at hP
    simp only [gdtEntryCount, gdtFirstDynamic]
    omega
  slots := by
    refine ⟨(P.map fun p => w.k.mem p procSlotIndex).toFinset, ?_, fun i hi => ?_⟩
    · refine (Multiset.toFinset_card_le _).trans_lt ?_
      rwa [Multiset.card_map]
    · obtain ⟨p, hp, h⟩ := H.of_process (by simp) (by simp) hi
      exact Multiset.mem_toFinset.mpr (Multiset.mem_map.mpr ⟨p, hp, (slot_mem_liveItems h).symm⟩)
  entries := by
    refine ⟨(P.map fun p => w.k.mem p procTableIndex).toFinset, ?_, fun i q hi => ?_⟩
    · refine (Multiset.toFinset_card_le _).trans_lt ?_
      rwa [Multiset.card_map]
    · obtain ⟨p, hp, h⟩ := H.of_process (by simp) (by simp) hi
      exact Multiset.mem_toFinset.mpr (Multiset.mem_map.mpr ⟨p, hp, (entry_mem_liveItems h).2.symm⟩)
  tasks := by
    refine ⟨(P.map fun p => w.k.mem p procTssSelector).toFinset, ?_, fun v hv => ?_⟩
    · refine (Multiset.toFinset_card_le _).trans_lt ?_
      rwa [Multiset.card_map]
    · obtain ⟨p, hp, h⟩ := H.of_process (by simp) (by simp) hv
      exact Multiset.mem_toFinset.mpr (Multiset.mem_map.mpr ⟨p, hp, (task_mem_liveItems h).1.symm⟩)

instance : DecidablePred KernelTables := fun i => by
  unfold KernelTables
  infer_instance

/-- The kernel's directory is empty where the bootstrap left it so. -/
theorem pde_zero (H : Inv w O B P) {i : ℕ} (hi : ¬KernelTables i) (hz : bootDirectory i = 0) :
    w.k.ram.frame pageDirBase i = 0 :=
  ((H.pdes i).resolve_right fun h => hi h.1).trans hz

/-- **`process_create` adds a process when there is room**, in the first free
slot. -/
theorem create_room (H : Inv w O B P) (hP : P.card < processMaxCount)
    (hB : B.card + w.held.length ≤ 1000) (room : Room (a + 7) (b + 9) (c + 3) w.k) :
    ∃ p w' slot, (Op.create processTypeProtected32).exec w = some w' ∧
      (processCreate processTypeProtected32).run w.k = some (p, w'.k) ∧ Inv w' O B (p ::ₘ P) ∧ Room a b c w'.k ∧ w'.held = w.held ∧ w'.pages = w.pages ∧
      firstFreeSlot w.k = some slot ∧ Fresh slot w'.k p ∧
      w'.k.mem p procType = processTypeProtected32 ∧
      ∀ i < processMaxCount, w'.k.slotBitmap i = true ↔ w.k.slotBitmap i = true ∨ i = slot := by
  have hheap := H.pde_zero (i := userHeapBase / 2 ^ 22) (by decide) (by decide)
  have hgate := H.pde_zero (i := userSyscallGatewayPage / 2 ^ 22) (by decide) (by decide)
  obtain ⟨p, k', hrun, ⟨-, hspec⟩, hp, room'⟩ := (processCreateProtected32_spec H.holds
    H.tasksOwned).and (processCreateProtected32_room H.holds H.tasksOwned (H.spare hP hB) hheap
      hgate room)
  obtain ⟨-, slot, hfirst, hH, -, hfresh, htype, -⟩ := hspec.resolve_left fun h => hp h.1
  have hexec : (Op.create processTypeProtected32).exec w = some ⟨k', w.held, w.pages⟩ := by
    change ((processCreate processTypeProtected32).run w.k).map _ = _
    rw [processCreate, if_pos rfl, hrun]
    rfl
  have hrunp : (processCreate processTypeProtected32).run w.k = some (p, k') := by
    rw [processCreate, if_pos rfl, hrun]
  obtain ⟨q, hq, h⟩ := H.create hexec
  rw [hrunp] at hq
  obtain ⟨rfl, -⟩ := Prod.mk.inj (Option.some.inj hq)
  obtain ⟨-, -, H'⟩ := h.resolve_left fun h => hp h.1
  refine ⟨p, _, slot, hexec, hrunp, H', room', rfl, rfl, hfirst, hfresh, htype, fun i hi => ?_⟩
  rw [hH.slot.bit i hi, H.holds.slot.bit i hi, Multiset.mem_add]
  refine or_congr_right ?_
  have hns : slot ≠ noIndex := by
    have := hfresh.slot_lt
    simp only [processMaxCount] at this
    simp only [noIndex]
    omega
  simp only [queuedItems, procItems, Multiset.mem_add, mem_itemIf_iff, Multiset.mem_singleton,
    reduceCtorEq, and_false, or_false, false_or, Item.slot.injEq, hfresh.slotField]
  exact and_iff_right hns

end Inv

/-- The first free slot behind slots that are all taken. -/
theorem firstFreeSlot_next {k : Kernel} {n slot : ℕ} (hn : n < processMaxCount)
    (hslots : ∀ i < processMaxCount, k.slotBitmap i = true ↔ i < n)
    (hfirst : firstFreeSlot k = some slot) : slot = n := by
  obtain ⟨hfree, hmem, hbefore⟩ := List.find?_range_eq_some.mp hfirst
  have hlt : slot < processMaxCount := List.mem_range.mp hmem
  have h1 : ¬slot < n := fun h => by
    rw [(hslots slot hlt).mpr h] at hfree
    cases hfree
  have h2 : ¬n < slot := fun h => by
    have hused := hbefore n h
    have hnot := (hslots n hn).not.mpr (Nat.lt_irrefl n)
    simp [hnot] at hused
  omega

/-- A run in which the processes `P` have been created, in the slots from 0 on. -/
structure Populated (n : ℕ) (w₀ w : World) (B : Items) (P : Multiset ℕ) : Prop where
  booted : Booted w₀
  created : Reach (fun _ op => ∃ type, op = .create type) w₀ w
  held : w.held = []
  pages : w.pages = []
  base : B.card = 3
  inv : Inv w (fun m => ¬Allocatable m) B P
  card : P.card = n
  slots : ∀ i < processMaxCount, w.k.slotBitmap i = true ↔ i < n
  room : Room (7 * (101 - n)) (9 * (101 - n)) (3 * (101 - n)) w.k
  reap : w.k.sched.reapProcess = 0
  idle : w.k.sched.currentIndex = noIndex

theorem Populated.reach {n : ℕ} {w₀ w : World} {B : Items} {P : Multiset ℕ}
    (h : Populated n w₀ w B P) : Reach Careful w₀ w := by
  refine h.created.mono ?_
  rintro w op ⟨type, rfl⟩ p hop
  cases hop

/-- One more process, in the next slot. -/
theorem Populated.create {n : ℕ} {w₀ w : World} {B : Items} {P : Multiset ℕ}
    (h : Populated n w₀ w B P) (hn : n < processMaxCount) : ∃ p w',
      (processCreate processTypeProtected32).run w.k = some (p, w'.k) ∧
      Populated (n + 1) w₀ w' B (p ::ₘ P) ∧ Fresh n w'.k p ∧
      w'.k.mem p procType = processTypeProtected32 := by
  have hmax : processMaxCount = 100 := rfl
  obtain ⟨p, w', slot, hexec, hrun, H', room', hheld', hpages', hfirst, hfresh, htype, hslots'⟩ :=
    h.inv.create_room (a := 7 * (101 - (n + 1))) (b := 9 * (101 - (n + 1))) (c := 3 * (101 - (n + 1)))
      (by rw [h.card]; exact hn) (by rw [h.base, h.held]; decide)
      (h.room.mono (by omega) (by omega) (by omega))
  obtain rfl := firstFreeSlot_next hn h.slots hfirst
  have hallowed : (Op.create processTypeProtected32).Allowed w := trivial
  have F := h.inv.create_frame hexec
  refine ⟨p, w', hrun, ⟨h.booted, .step h.created hallowed ⟨_, rfl⟩ hexec,
    hheld'.trans h.held, hpages'.trans h.pages, h.base, H', by rw [Multiset.card_cons, h.card],
    fun i hi => ?_, room', F.reap.trans h.reap, F.current.trans h.idle⟩, hfresh, htype⟩
  rw [hslots' i hi, h.slots i hi]
  omega

/-- Without processes the kernel task runs. -/
theorem Inv.idle {w : World} {O : ℕ → Prop} {B : Items} (H : Inv w O B 0) :
    w.k.sched.currentIndex = noIndex := by
  by_contra hcur
  obtain ⟨q, hq, -⟩ := H.running_process hcur
  exact Multiset.notMem_zero q hq

/-- **Runs with any number of processes**, in the slots from 0 on. -/
theorem exists_populated {n : ℕ} (hn : n ≤ processMaxCount) : ∃ w₀ w B P, Populated n w₀ w B P := by
  induction n with
  | zero =>
    obtain ⟨w, B, hw, hheld, hpages, hB, H, room⟩ := exists_booted_room
    refine ⟨w, w, B, 0, hw, .refl, hheld, hpages, hB, H, rfl, fun i hi => ?_,
      room.mono (by omega) (by omega) (by omega), H.reap.resolve_right (Multiset.notMem_zero _),
      H.idle⟩
    rw [H.holds.slot.bit i hi]
    refine ⟨fun h => ?_, fun h => absurd h (Nat.not_lt_zero i)⟩
    obtain ⟨p, hp, -⟩ := H.of_process (by simp) (by simp) h
    exact absurd hp (Multiset.notMem_zero p)
  | succ n ih =>
    obtain ⟨w₀, w, B, P, h⟩ := ih (by omega)
    obtain ⟨p, w', -, h', -, -⟩ := h.create (by omega)
    exact ⟨w₀, w', B, p ::ₘ P, h'⟩

/-- A run whose last call creates a process in the slot `n`. -/
theorem exists_created {n : ℕ} (hn : n < processMaxCount) : ∃ w₀ w w' B P p, Booted w₀ ∧
    Reach Careful w₀ w ∧ (processCreate processTypeProtected32).run w.k = some (p, w'.k) ∧
    Populated (n + 1) w₀ w' B (p ::ₘ P) ∧ Fresh n w'.k p ∧
    w'.k.mem p procType = processTypeProtected32 := by
  obtain ⟨w₀, w, B, P, h⟩ := exists_populated hn.le
  obtain ⟨p, w', hrun, h', hfresh, htype⟩ := h.create hn
  exact ⟨w₀, w, w', B, P, p, h.booted, h.reach, hrun, h', hfresh, htype⟩

/-! ### A process that runs -/

/-- The steps in the life of a process. -/
def Op.IsLifecycle : Op → Prop
  | .create _ => True
  | .destroy _ => True
  | .tick _ => True
  | .fault _ => True
  | _ => False

/-- A process of either type can be created when there is room. -/
theorem Inv.create_either {w : World} {O : ℕ → Prop} {B : Items} {P : Multiset ℕ} (H : Inv w O B P)
    (hP : P.card < processMaxCount) (hB : B.card + w.held.length ≤ 1000)
    (room : Room 7 166 3 w.k) {type : ℕ}
    (htype : type = processTypeProtected32 ∨ type = processTypeV86) :
    ∃ p w', (Op.create type).exec w = some w' ∧ Inv w' O B (p ::ₘ P) ∧
      w'.k.mem p procType = type := by
  rcases htype with rfl | rfl
  · obtain ⟨p, w', -, hexec, -, H', -, -, -, -, -, htype, -⟩ := H.create_room (a := 0) (b := 157)
      (c := 0) hP hB room
    exact ⟨p, w', hexec, H', htype⟩
  · obtain ⟨p, k', hrun, ⟨-, hspec⟩, hp, -⟩ := (v86ProcessCreate_spec H.holds H.tasksOwned).and
      (v86ProcessCreate_room (a := 0) (b := 0) (c := 1) H.holds H.tasksOwned (H.spare hP hB)
        (room.mono (by decide) le_rfl le_rfl))
    obtain ⟨-, -, -, htype⟩ := hspec.resolve_left fun h => hp h.1
    have hexec : (Op.create processTypeV86).exec w = some { w with k := k' } := by
      change ((processCreate processTypeV86).run w.k).map _ = _
      rw [processCreate, if_neg (by decide), if_pos rfl, hrun]
      rfl
    obtain ⟨q, hq, h⟩ := H.create hexec
    rw [processCreate, if_neg (by decide), if_pos rfl, hrun] at hq
    obtain ⟨rfl, -⟩ := Prod.mk.inj (Option.some.inj hq)
    obtain ⟨-, -, H'⟩ := h.resolve_left fun h => hp h.1
    exact ⟨p, _, hexec, H', htype⟩

/-- **A process of either type can run**: after boot it is created, and the first
tick switches to it. -/
theorem exists_running {type : ℕ} (htype : type = processTypeProtected32 ∨ type = processTypeV86) :
    ∃ w₀ w B p, Booted w₀ ∧ Reach (fun w op => op.IsLifecycle ∧ Careful w op) w₀ w ∧
      Inv w (fun m => ¬Allocatable m) B (p ::ₘ 0) ∧ w.k.sched.reapProcess = 0 ∧
      RunningTask w.k p ∧ w.k.mem p procType = type := by
  obtain ⟨w₀, B, h₀, hheld, -, hB, H₀, room⟩ := exists_booted_room
  have hz₀ : w₀.k.sched.reapProcess = 0 := H₀.reap.resolve_right (Multiset.notMem_zero _)
  -- create
  obtain ⟨p, w₁, hexec₁, H₁, htype₁⟩ := H₀.create_either (by decide) (by rw [hB, hheld]; decide)
    (room.mono (by decide) (by decide) (by decide)) htype
  have F₁ := H₀.create_frame hexec₁
  -- tick
  obtain ⟨w₂, q, hexec₂, H₂, hz₂, hm₂, hq, hrun, -⟩ := H₁.tick_dispatches (fun _ => 0)
    (F₁.reap.trans hz₀) (F₁.current.trans H₀.idle) Multiset.cons_ne_zero
  obtain rfl : q = p := Multiset.mem_singleton.mp hq
  have hcreate : (Op.create type).Allowed w₀ := trivial
  have htick : (Op.tick fun _ => 0).Allowed w₁ := trivial
  refine ⟨w₀, w₂, B, q, h₀, .step (.step .refl hcreate ⟨trivial, ?_⟩ hexec₁) htick ⟨trivial, ?_⟩
    hexec₂, H₂, hz₂, hrun, by rw [hm₂ q hq, htype₁]⟩
  all_goals
    intro p hop
    cases hop

end VirtualKernel
