/-
The invariant of the running system and the calls that keep it.

`Inv w O B P`: the allocators account exactly for the base items `B` (the
kernel task, the drivers), the blocks of the clients and the items of the
processes `P`; every process of `P` is complete.  A process that awaits
reaping is no longer queued.  The calls are treated here, the interrupts in
`SystemTick`.
-/
import VirtualKernel.System
import Mathlib.Data.Multiset.Bind

namespace VirtualKernel

open Lib

/-- The items of a live process: a process that awaits reaping has left the
task table. -/
def liveItems (k : Kernel) (p : ℕ) : Items :=
  if p = k.sched.reapProcess then procItems p (k.mem p) else queuedItems p (k.mem p)

/-- The blocks of the clients. -/
def heldItems (held : List ℕ) : Items := (held : Multiset ℕ).map Item.block

/-- The kernel's own task runs on a segment and a descriptor of `B`. -/
structure KernelTask (k : Kernel) (B : Items) : Prop where
  plain : k.sched.kernelTssSelector % 8 = 0
  desc : Item.gdt (k.sched.kernelTssSelector / 8) ∈ B
  tss : Item.block (descriptorBase (k.gdt (k.sched.kernelTssSelector / 8))) ∈ B

/-- The entries of the kernel's directory that get tables: the heap, the
temporary windows, the storage window and the windows of the drivers. -/
def KernelTables (i : ℕ) : Prop :=
  i = kheapPde ∨ i = tempPde ∨ i = storagePde ∨ 0x1C0 ≤ i ∧ i < 0x1CC

/-- The kernel's directory: the entries of the bootstrap, and tables. -/
def KernelPdes (r : Ram) : Prop := ∀ i, r.frame pageDirBase i = bootDirectory i ∨
  KernelTables i ∧ psBit (r.frame pageDirBase i) = false

/-- The part of the invariant that does not speak about the allocators of
items. -/
structure Shape (w : World) (O : ℕ → Prop) (B : Items) (P : Multiset ℕ) : Prop where
  complete : ∀ p ∈ P, Complete w.k p
  base : ∀ x ∈ B, (∃ q, x = .block q) ∨ ∃ i, x = .gdt i
  task : KernelTask w.k B
  nodup : w.pages.Nodup
  pages : ∀ n ∈ w.pages, O n ∧ Allocatable n
  storage : w.k.drivers.storageInitialized ≠ 0 → StorageReady w.k
  pdes : KernelPdes w.k.ram

/-- **The invariant of the running system.** -/
structure Inv (w : World) (O : ℕ → Prop) (B : Items) (P : Multiset ℕ) : Prop
    extends Shape w O B P where
  holds : Holds w.k O (B + heldItems w.held + P.bind (liveItems w.k))
  reap : w.k.sched.reapProcess = 0 ∨ w.k.sched.reapProcess ∈ P

/-! ### Items of processes -/

theorem procItems_subset_liveItems {k : Kernel} {p : ℕ} {x : Item}
    (h : x ∈ procItems p (k.mem p)) : x ∈ liveItems k p := by
  unfold liveItems
  split_ifs
  · exact h
  · exact Multiset.mem_add.mpr (Or.inl h)

theorem procItems_congr {p : ℕ} {w w' : ℕ → ℕ} (h : ∀ o, o ≠ procHeapCurrent → w' o = w o) :
    procItems p w' = procItems p w := by
  simp only [procItems, h procPageDir (by decide), h procSlotIndex (by decide),
    h procLdtBase (by decide), h procLdtBitmap (by decide), h procLdtSelector (by decide),
    h procKstackTop (by decide), h procTssBase (by decide), h procTssSelector (by decide),
    h procTableIndex (by decide)]

theorem liveItems_congr {k k' : Kernel} {p : ℕ}
    (h : ∀ o, o ≠ procHeapCurrent → k'.mem p o = k.mem p o)
    (hr : k'.sched.reapProcess = k.sched.reapProcess) : liveItems k' p = liveItems k p := by
  rw [liveItems, liveItems, queuedItems, queuedItems, procItems_congr h, hr,
    h procTssSelector (by decide)]

/-- The only tasks among the items of a process are its own. -/
theorem task_mem_liveItems {k : Kernel} {p v : ℕ} (h : Item.task v ∈ liveItems k p) :
    v = k.mem p procTssSelector ∧ p ≠ k.sched.reapProcess := by
  unfold liveItems at h
  split_ifs at h with hr
  · exact absurd h (task_not_mem_procItems _ _ _)
  · rcases Multiset.mem_add.mp h with h | h
    · exact absurd h (task_not_mem_procItems _ _ _)
    · exact ⟨Item.task.inj (Multiset.mem_singleton.mp h), hr⟩

theorem entry_mem_itemIf {i q v none : ℕ} {x : Item} (hx : x ≠ .entry i q) :
    Item.entry i q ∉ itemIf v none x := by
  unfold itemIf
  split_ifs
  · exact Multiset.notMem_zero _
  · rw [Multiset.mem_singleton]
    exact hx.symm

theorem entry_of_mem_procItems {p i q : ℕ} {w : ℕ → ℕ} (h : Item.entry i q ∈ procItems p w) :
    q = p ∧ i = w procTableIndex := by
  unfold procItems at h
  rcases Multiset.mem_add.mp h with h | h
  · exfalso
    simp only [Multiset.mem_add] at h
    rcases h with ((((((((h | h) | h) | h) | h) | h) | h) | h) | h)
    · exact absurd (Multiset.mem_singleton.mp h) (by simp)
    all_goals exact absurd h (entry_mem_itemIf (by simp))
  · unfold itemIf at h
    split_ifs at h
    · exact absurd h (Multiset.notMem_zero _)
    · obtain ⟨h1, h2⟩ := Item.entry.inj (Multiset.mem_singleton.mp h)
      exact ⟨h2, h1⟩

/-- The only entry among the items of a process is its own. -/
theorem entry_mem_liveItems {k : Kernel} {p i q : ℕ} (h : Item.entry i q ∈ liveItems k p) :
    q = p ∧ i = k.mem p procTableIndex := by
  unfold liveItems at h
  split_ifs at h
  · exact entry_of_mem_procItems h
  · rcases Multiset.mem_add.mp h with h | h
    · exact entry_of_mem_procItems h
    · exact absurd (Multiset.mem_singleton.mp h) (by simp)

namespace Inv

variable {w : World} {O : ℕ → Prop} {B : Items} {P : Multiset ℕ}

/-! ### What the invariant says about processes -/

theorem mem_items (_ : Inv w O B P) {p : ℕ} (hp : p ∈ P) {x : Item}
    (hx : x ∈ procItems p (w.k.mem p)) :
    x ∈ B + heldItems w.held + P.bind (liveItems w.k) :=
  Multiset.mem_add.mpr (Or.inr (Multiset.mem_bind.mpr ⟨p, hp, procItems_subset_liveItems hx⟩))

theorem not_held {held : List ℕ} {x : Item} (hx : ∀ q, x ≠ .block q) : x ∉ heldItems held := by
  intro h
  obtain ⟨q, -, hq⟩ := Multiset.mem_map.mp h
  exact hx q hq.symm

/-- An item that is neither a block nor a descriptor belongs to a process. -/
theorem of_process (H : Inv w O B P) {x : Item} (hb : ∀ q, x ≠ .block q) (hg : ∀ i, x ≠ .gdt i)
    (hx : x ∈ B + heldItems w.held + P.bind (liveItems w.k)) : ∃ p ∈ P, x ∈ liveItems w.k p := by
  rcases Multiset.mem_add.mp hx with h | h
  · rcases Multiset.mem_add.mp h with h | h
    · rcases H.base x h with ⟨q, hq⟩ | ⟨i, hi⟩
      · exact absurd hq (hb q)
      · exact absurd hi (hg i)
    · exact absurd h (not_held hb)
  · exact Multiset.mem_bind.mp h

theorem tasksOwned (H : Inv w O B P) :
    TasksOwned (B + heldItems w.held + P.bind (liveItems w.k)) := by
  intro v hv
  obtain ⟨p, hp, h⟩ := H.of_process (by simp) (by simp) hv
  obtain ⟨rfl, -⟩ := task_mem_liveItems h
  exact H.mem_items hp (gdt_mem_procItems (H.complete p hp).sel)

theorem ne_zero (H : Inv w O B P) {p : ℕ} (hp : p ∈ P) : p ≠ 0 :=
  H.holds.block_ne_zero (H.mem_items hp (block_mem_procItems _ _))

/-- **The processes of the process table are the processes of the account.** -/
theorem live_iff (H : Inv w O B P) {p : ℕ} : Live w.k p ↔ p ∈ P := by
  constructor
  · rintro ⟨hp, i, hi, hpi⟩
    have hmem := (H.holds.entry.entry i hi p hp).mp hpi
    obtain ⟨q, hq, h⟩ := H.of_process (by simp) (by simp) hmem
    rw [(entry_mem_liveItems h).1]
    exact hq
  · intro hp
    have hmem := H.mem_items hp (entry_mem_procItems (H.complete p hp).entry)
    obtain ⟨hi, hp0⟩ := H.holds.entry.range _ _ hmem
    exact ⟨hp0, _, hi, (H.holds.entry.entry _ hi p hp0).mpr hmem⟩

theorem dir_mem (H : Inv w O B P) {p : ℕ} (hp : p ∈ P) :
    Item.dir (w.k.mem p procPageDir) ∈ B + heldItems w.held + P.bind (liveItems w.k) :=
  H.mem_items hp (dir_mem_procItems (H.complete p hp).dir)

theorem liveDir (H : Inv w O B P) {pd : ℕ} (h : LiveDir w.k pd) :
    Item.dir pd ∈ B + heldItems w.held + P.bind (liveItems w.k) := by
  obtain ⟨p, hp, rfl⟩ := h
  exact H.dir_mem (H.live_iff.mp hp)

/-- The account without the process `p`. -/
theorem split (H : Inv w O B P) {p : ℕ} (hp : p ∈ P) : ∃ P', P = p ::ₘ P' ∧ p ∉ P' ∧
    B + heldItems w.held + P.bind (liveItems w.k) =
      B + heldItems w.held + P'.bind (liveItems w.k) + liveItems w.k p := by
  obtain ⟨P', rfl⟩ := Multiset.exists_cons_of_mem hp
  refine ⟨P', rfl, fun h => ?_, ?_⟩
  · have hnd := (Multiset.nodup_add.mp H.holds.nodup).2.1
    rw [Multiset.cons_bind] at hnd
    have hb := procItems_subset_liveItems (k := w.k) (block_mem_procItems p (w.k.mem p))
    exact Multiset.disjoint_left.mp (Multiset.nodup_add.mp hnd).2.2 hb
      (Multiset.mem_bind.mpr ⟨p, h, hb⟩)
  · rw [Multiset.cons_bind]
    abel

/-- No process has the selector of the kernel task. -/
theorem tr_ne_kernel (H : Inv w O B P) {p : ℕ} (hp : p ∈ P) :
    w.k.mem p procTssSelector ≠ w.k.sched.kernelTssSelector := by
  intro h
  have hdis := (Multiset.nodup_add.mp H.holds.nodup).2.2
  have hbase := Multiset.mem_add.mpr (Or.inl H.task.desc : _ ∈ B ∨ _ ∈ heldItems w.held)
  rw [← h] at hbase
  exact Multiset.disjoint_left.mp hdis hbase (Multiset.mem_bind.mpr
    ⟨p, hp, procItems_subset_liveItems (gdt_mem_procItems (H.complete p hp).sel)⟩)

/-- Processes differ in every item. -/
theorem eq_of_mem (H : Inv w O B P) {p q : ℕ} (hp : p ∈ P) (hq : q ∈ P) {x : Item}
    (hxp : x ∈ procItems p (w.k.mem p)) (hxq : x ∈ procItems q (w.k.mem q)) : p = q := by
  by_contra hpq
  obtain ⟨P', rfl, -, hsplit⟩ := H.split hp
  have hnd := H.holds.nodup
  rw [hsplit] at hnd
  have hq' := (Multiset.mem_cons.mp hq).resolve_left fun h => hpq h.symm
  exact Multiset.disjoint_left.mp (Multiset.nodup_add.mp hnd).2.2 (Multiset.mem_add.mpr (Or.inr
    (Multiset.mem_bind.mpr ⟨q, hq', procItems_subset_liveItems hxq⟩)))
    (procItems_subset_liveItems hxp)

theorem selector_inj (H : Inv w O B P) {p q : ℕ} (hp : p ∈ P) (hq : q ∈ P)
    (h : w.k.mem p procTssSelector = w.k.mem q procTssSelector) : p = q := by
  refine H.eq_of_mem hp hq (gdt_mem_procItems (H.complete p hp).sel) ?_
  rw [h]
  exact gdt_mem_procItems (H.complete q hq).sel

/-- A process that is not running has another selector than the running task. -/
theorem tr_ne (H : Inv w O B P) {p : ℕ} (hp : p ∈ P) (hr : ¬RunningTask w.k p) :
    w.k.tr ≠ w.k.mem p procTssSelector := by
  intro htr
  have hC := H.complete p hp
  refine hr ⟨fun hidx => ?_, by rw [Nat.mod_eq_of_lt hC.sel_lt, htr]⟩
  rcases H.holds.sched.current with ⟨-, hk⟩ | ⟨hlt, -, -⟩
  · exact H.tr_ne_kernel hp (htr.symm.trans hk)
  · rw [hidx] at hlt
    exact absurd hlt (by decide)

/-! ### Calls that only touch page tables -/

theorem liveItems_same {k k' : Kernel} (S : SameObjects k k') (p : ℕ) :
    liveItems k' p = liveItems k p :=
  liveItems_congr (fun o ho => S.mem p o ho) (by rw [S.sched])

/-- The invariant after a call that takes and gives back no item. -/
theorem of_same (H : Inv w O B P) {w' : World} {O' : ℕ → Prop} (S : SameObjects w.k w'.k)
    (hH : Holds w'.k O' (B + heldItems w.held + P.bind (liveItems w.k)))
    (hheld : w'.held = w.held) (hnd : w'.pages.Nodup)
    (hpages : ∀ n ∈ w'.pages, O' n ∧ Allocatable n) : Inv w' O' B P where
  holds := by
    rw [hheld, Multiset.bind_congr fun p _ => liveItems_same S p]
    exact hH
  complete := fun p hp => (H.complete p hp).congr (S.mem p) (S.mem _ _ (by decide)) (by rw [S.gdt])
  base := H.base
  task := by
    refine ⟨?_, ?_, ?_⟩
    · rw [S.sched]
      exact H.task.plain
    · rw [S.sched]
      exact H.task.desc
    · rw [S.sched, S.gdt]
      exact H.task.tss
  reap := by rw [S.sched]; exact H.reap
  nodup := hnd
  pages := hpages
  storage := by
    rw [S.storage, StorageReady, ktableOf_congr S.kernel]
    exact H.storage
  pdes := by rw [KernelPdes, S.kernel]; exact H.pdes

/-- What a call of a client returns, with the client's pages unchanged. -/
theorem of_same_runs (H : Inv w O B P) {α : Type} {m : KM α} {w' : World}
    (hm : Runs m w.k fun _ k' => (∃ O', (∀ n, O n → O' n) ∧
      Holds k' O' (B + heldItems w.held + P.bind (liveItems w.k))) ∧ SameObjects w.k k')
    (h : w.call m (fun _ => w.held) (fun _ => w.pages) = some w') :
    ∃ O', (∀ n, O n → O' n) ∧ Inv w' O' B P := by
  obtain ⟨a, k', hrun, ⟨O', hO, hH⟩, hS⟩ := hm
  rw [World.call, hrun] at h
  obtain rfl := Option.some.inj h
  exact ⟨O', hO, H.of_same hS hH rfl H.nodup fun n hn =>
    ⟨hO n (H.pages n hn).1, (H.pages n hn).2⟩⟩

theorem prepare (H : Inv w O B P) {p source size : ℕ} {image : ℕ → ℕ} {w' : World}
    (hp : Live w.k p) (h : (Op.prepare p source size image).exec w = some w') :
    ∃ O', Inv w' O' B P := by
  obtain ⟨O', -, H'⟩ := H.of_same_runs
    (processPrepareTestTask_keeps H.holds (H.dir_mem (H.live_iff.mp hp)) source size image) h
  exact ⟨O', H'⟩

theorem heapGrow (H : Inv w O B P) {p : ℕ} {w' : World} (hp : Live w.k p)
    (h : (Op.heapGrow p).exec w = some w') : ∃ O', Inv w' O' B P := by
  obtain ⟨O', -, H'⟩ := H.of_same_runs
    (processHeapGrow_keeps H.holds (H.dir_mem (H.live_iff.mp hp))) h
  exact ⟨O', H'⟩

theorem unmap (H : Inv w O B P) {pd virt : ℕ} {w' : World}
    (hpd : LiveDir w.k pd ∨ pd = pageDirBase) (hv : virt < 2 ^ 32)
    (h : (Op.unmap pd virt).exec w = some w') : ∃ O', Inv w' O' B P := by
  obtain ⟨O', -, H'⟩ := H.of_same_runs (kUnmapPage_keeps H.holds (hpd.imp_left H.liveDir) hv) h
  exact ⟨O', H'⟩

theorem storageMap (H : Inv w O B P) {physical : ℕ} {w' : World}
    (hs : w.k.drivers.storageInitialized ≠ 0)
    (h : (Op.storageMap physical).exec w = some w') : ∃ O', Inv w' O' B P := by
  obtain ⟨O', -, H'⟩ := H.of_same_runs ((storageMapMmioWindow_keeps H.holds (H.storage hs)
    physical).mono fun _ _ h => ⟨⟨O, fun _ => id, h.1⟩, h.2⟩) h
  exact ⟨O', H'⟩

theorem allocPage (H : Inv w O B P) {w' : World} (h : Op.allocPage.exec w = some w') :
    ∃ O', Inv w' O' B P := by
  obtain ⟨a, k', hrun, hS, ⟨rfl, hH⟩ | ⟨n, rfl, ha, hnew, hH⟩⟩ := kPmmAllocPage_keeps H.holds
  · rw [Op.exec, World.call, hrun] at h
    obtain rfl := Option.some.inj h
    exact ⟨O, H.of_same hS hH rfl H.nodup H.pages⟩
  · rw [Op.exec, World.call, hrun] at h
    obtain rfl := Option.some.inj h
    refine ⟨_, H.of_same hS hH rfl ?_ ?_⟩
    · dsimp only
      rw [if_neg ha.ne_zero, Nat.mul_div_cancel n (by decide)]
      exact List.nodup_cons.mpr ⟨fun hn => hnew (H.pages n hn).1, H.nodup⟩
    · dsimp only
      rw [if_neg ha.ne_zero, Nat.mul_div_cancel n (by decide)]
      intro m hm
      rcases List.mem_cons.mp hm with rfl | hm
      · exact ⟨Or.inr rfl, ha⟩
      · exact ⟨Or.inl (H.pages m hm).1, (H.pages m hm).2⟩

theorem freePage (H : Inv w O B P) {n : ℕ} {w' : World} (hn : n ∈ w.pages)
    (h : (Op.freePage n).exec w = some w') : ∃ O', Inv w' O' B P := by
  obtain ⟨hO, ha⟩ := H.pages n hn
  obtain ⟨a, k', hrun, hS, hH⟩ := kPmmFreePage_keeps H.holds hO ha
  rw [Op.exec, World.call, hrun] at h
  obtain rfl := Option.some.inj h
  refine ⟨_, H.of_same hS hH rfl (H.nodup.erase n) fun m hm => ?_⟩
  obtain ⟨hne, hm⟩ := (List.Nodup.mem_erase_iff H.nodup).mp hm
  exact ⟨⟨(H.pages m hm).1, hne⟩, (H.pages m hm).2⟩

theorem mapUser (H : Inv w O B P) {pd virt phys flags : ℕ} {w' : World} (hpd : LiveDir w.k pd)
    (hown : flags.testBit 9 = true → ∃ n ∈ w.pages, phys = n * pageSize)
    (h : (Op.mapUser pd virt phys flags).exec w = some w') : ∃ O', Inv w' O' B P := by
  by_cases hfl : flags.testBit 9 = true
  · obtain ⟨n, hn, rfl⟩ := hown hfl
    obtain ⟨hO, ha⟩ := H.pages n hn
    obtain ⟨b, k', hrun, hS, ⟨rfl, hH⟩ | ⟨rfl, O', hsub, hH⟩⟩ :=
      kMapUserPage_owned H.holds (H.liveDir hpd) virt hfl hO ha
    · rw [Op.exec, World.call, hrun] at h
      obtain rfl := Option.some.inj h
      exact ⟨O, H.of_same hS hH rfl (by simpa using H.nodup) (by simpa using H.pages)⟩
    · rw [Op.exec, World.call, hrun] at h
      obtain rfl := Option.some.inj h
      have hpg : (if true = true ∧ flags.testBit 9 = true then
          w.pages.erase (n * pageSize / pageSize) else w.pages) = w.pages.erase n := by
        rw [if_pos ⟨rfl, hfl⟩, Nat.mul_div_cancel n (by decide)]
      refine ⟨O', H.of_same hS hH rfl ?_ fun m hm => ?_⟩
      · dsimp only
        rw [hpg]
        exact H.nodup.erase n
      · dsimp only at hm
        rw [hpg] at hm
        obtain ⟨hne, hm⟩ := (List.Nodup.mem_erase_iff H.nodup).mp hm
        exact ⟨hsub m (H.pages m hm).1 hne, (H.pages m hm).2⟩
  · obtain ⟨b, k', hrun, ⟨O', hO, hH⟩, hS⟩ :=
      kMapUserPage_shared H.holds (H.liveDir hpd) virt phys (by simpa using hfl)
    rw [Op.exec, World.call, hrun] at h
    obtain rfl := Option.some.inj h
    have hpg : (if b = true ∧ flags.testBit 9 = true then
        w.pages.erase (phys / pageSize) else w.pages) = w.pages := if_neg fun h => hfl h.2
    refine ⟨O', H.of_same hS hH rfl ?_ fun m hm => ?_⟩
    · dsimp only
      rw [hpg]
      exact H.nodup
    · dsimp only at hm
      rw [hpg] at hm
      exact ⟨hO m (H.pages m hm).1, (H.pages m hm).2⟩

theorem driverWork (H : Inv w O B P) {mem : ℕ → ℕ} {w' : World}
    (h : (Op.driverWork mem).exec w = some w') : Inv w' O B P := by
  obtain rfl := Option.some.inj h
  refine H.of_same ⟨fun _ _ _ => rfl, rfl, rfl, rfl, rfl, rfl⟩ ?_ rfl H.nodup H.pages
  exact H.holds.congr_state rfl rfl rfl rfl rfl rfl rfl rfl rfl

/-! ### Calls that take items or give them back -/

theorem bind_frame {k k' : Kernel} {T : Items} {Q : Multiset ℕ} (F : Frame T k k')
    (hQ : ∀ x ∈ Q.bind (liveItems k), x ∈ T) : Q.bind (liveItems k') = Q.bind (liveItems k) := by
  refine Multiset.bind_congr fun q hq => liveItems_congr (fun o _ => ?_) F.reap
  rw [F.mem q (hQ _ (Multiset.mem_bind.mpr
    ⟨q, hq, procItems_subset_liveItems (block_mem_procItems _ _)⟩))]

/-- The invariant after a call that leaves the base items and the processes of
`P'` alone. -/
theorem of_frame (H : Shape w O B P) {w' : World} {P' : Multiset ℕ} {T : Items}
    (F : Frame T w.k w'.k) (hT : ∀ x ∈ B + P'.bind (liveItems w.k), x ∈ T) (hP : ∀ p ∈ P', p ∈ P)
    (hH : Holds w'.k O (B + heldItems w'.held + P'.bind (liveItems w.k)))
    (hreap : w.k.sched.reapProcess = 0 ∨ w.k.sched.reapProcess ∈ P')
    (hpages : w'.pages = w.pages) : Inv w' O B P' where
  holds := by
    rw [bind_frame F fun x hx => hT x (Multiset.mem_add.mpr (Or.inr hx))]
    exact hH
  complete := fun p hp => (H.complete p (hP p hp)).frame F fun x hx => hT x
    (Multiset.mem_add.mpr (Or.inr (Multiset.mem_bind.mpr ⟨p, hp, procItems_subset_liveItems hx⟩)))
  base := H.base
  task := by
    have hdesc := hT _ (Multiset.mem_add.mpr (Or.inl H.task.desc))
    refine ⟨by rw [F.kernel]; exact H.task.plain, by rw [F.kernel]; exact H.task.desc, ?_⟩
    rw [F.kernel, F.gdt _ (Or.inr hdesc)]
    exact H.task.tss
  reap := by rw [F.reap]; exact hreap
  nodup := by rw [hpages]; exact H.nodup
  pages := by rw [hpages]; exact H.pages
  storage := by
    rw [F.storage, StorageReady, ktableOf_congr F.ram.kernel]
    exact H.storage
  pdes := by rw [KernelPdes, F.ram.kernel]; exact H.pdes

theorem mem_base_or {k : Kernel} {L : Items} {x : Item} (h : x ∈ B + P.bind (liveItems k)) :
    x ∈ B + L + P.bind (liveItems k) := by
  rcases Multiset.mem_add.mp h with h | h
  · exact Multiset.mem_add.mpr (Or.inl (Multiset.mem_add.mpr (Or.inl h)))
  · exact Multiset.mem_add.mpr (Or.inr h)

theorem heapAlloc (H : Inv w O B P) {size : ℕ} {w' : World}
    (h : (Op.heapAlloc size).exec w = some w') : Inv w' O B P := by
  obtain ⟨eax, k', hrun, F, hres⟩ := kHeapAlloc_spec H.holds size
  rw [Op.exec, World.call, hrun] at h
  obtain rfl := Option.some.inj h
  refine of_frame H.toShape F (fun x => mem_base_or) (fun _ => id) ?_ H.reap rfl
  dsimp only
  rcases hres with ⟨rfl, hH⟩ | ⟨hne, hH⟩
  · rw [if_pos rfl]
    exact hH
  · rw [if_neg hne, heldItems, ← Multiset.cons_coe, Multiset.map_cons, ← Multiset.singleton_add,
      show B + ({Item.block eax} + (w.held : Multiset ℕ).map Item.block) + P.bind (liveItems w.k) =
        B + heldItems w.held + P.bind (liveItems w.k) + {Item.block eax} by rw [heldItems]; abel]
    exact hH

theorem heapFree (H : Inv w O B P) {ptr : ℕ} {w' : World} (hp : ptr = 0 ∨ ptr ∈ w.held)
    (h : (Op.heapFree ptr).exec w = some w') : Inv w' O B P := by
  by_cases hin : ptr ∈ w.held
  · have hsplit : B + heldItems w.held + P.bind (liveItems w.k) =
        B + heldItems (w.held.erase ptr) + P.bind (liveItems w.k) + {.block ptr} := by
      have hcons : heldItems w.held = heldItems (w.held.erase ptr) + {.block ptr} := by
        rw [heldItems, heldItems, ← Multiset.coe_erase, add_comm, Multiset.singleton_add,
          ← Multiset.map_cons, Multiset.cons_erase (by simpa using hin)]
      rw [hcons]
      abel
    have hH := H.holds
    rw [hsplit] at hH
    obtain ⟨_, k', hrun, F, hH'⟩ := kHeapFree_spec hH
    rw [Op.exec, World.call, hrun] at h
    obtain rfl := Option.some.inj h
    exact of_frame H.toShape F (fun x => mem_base_or) (fun _ => id) hH' H.reap rfl
  · -- the null pointer
    obtain rfl := hp.resolve_right hin
    have hrun : (kHeapFree 0).run w.k = some ((), w.k) :=
      kHeapFree_run (h := w.k.heap) (by rw [VirtualKernel.heapFree, if_pos rfl])
    rw [Op.exec, World.call, hrun] at h
    obtain rfl := Option.some.inj h
    rw [List.erase_of_not_mem hin]
    exact H

/-- **`process_create`** adds a process that is complete, or nothing. -/
theorem create (H : Inv w O B P) {type : ℕ} {w' : World}
    (h : (Op.create type).exec w = some w') :
    ∃ p, (processCreate type).run w.k = some (p, w'.k) ∧
      (p = 0 ∧ Inv w' O B P ∨ p ≠ 0 ∧ p ∉ P ∧ Inv w' O B (p ::ₘ P)) := by
  obtain ⟨p, k', hrun, F, hres⟩ := processCreate_spec H.holds H.tasksOwned type
  rw [Op.exec, World.call, hrun] at h
  obtain rfl := Option.some.inj h
  refine ⟨p, hrun, ?_⟩
  rcases hres with ⟨rfl, hH⟩ | ⟨-, hH, hC⟩
  · exact Or.inl ⟨rfl, of_frame H.toShape F (fun x => mem_base_or) (fun _ => id) hH H.reap rfl⟩
  -- the new process awaits no reaping: its block is new
  have hbind := bind_frame (Q := P) F fun x hx => Multiset.mem_add.mpr (Or.inr hx)
  have hpP : p ∉ P := fun hp => by
    have hdis := (Multiset.nodup_add.mp hH.nodup).2.2
    exact Multiset.disjoint_left.mp hdis (H.mem_items hp (block_mem_procItems _ _))
      (Multiset.mem_add.mpr (Or.inl (block_mem_procItems _ _)))
  have hp0 : p ≠ 0 := hH.block_ne_zero
    (Multiset.mem_add.mpr (Or.inr (Multiset.mem_add.mpr (Or.inl (block_mem_procItems _ _)))))
  have hnr : p ≠ k'.sched.reapProcess := by
    rw [F.reap]
    rintro rfl
    exact H.reap.elim hp0 hpP
  have hlive : liveItems k' p = queuedItems p (k'.mem p) := if_neg hnr
  refine Or.inr ⟨hp0, hpP, ⟨fun q hq => ?_, H.base, ?_, H.nodup, H.pages, ?_, ?_⟩, ?_, ?_⟩
  · rcases Multiset.mem_cons.mp hq with rfl | hq
    · exact hC
    · exact (H.complete q hq).frame F fun x hx => H.mem_items hq hx
  · refine ⟨by rw [F.kernel]; exact H.task.plain, by rw [F.kernel]; exact H.task.desc, ?_⟩
    rw [F.kernel, F.gdt _ (Or.inr (mem_base_or (Multiset.mem_add.mpr (Or.inl H.task.desc))))]
    exact H.task.tss
  · rw [F.storage, StorageReady, ktableOf_congr F.ram.kernel]
    exact H.storage
  · rw [KernelPdes, F.ram.kernel]
    exact H.pdes
  · rw [Multiset.cons_bind, hlive, hbind,
      show B + heldItems w.held + (queuedItems p (k'.mem p) + P.bind (liveItems w.k)) =
        B + heldItems w.held + P.bind (liveItems w.k) + queuedItems p (k'.mem p) by abel]
    exact hH
  · rw [F.reap]
    exact H.reap.imp_right fun h => Multiset.mem_cons_of_mem h

/-- **`process_destroy`** of a process that is neither running nor awaiting
reaping takes it away with all its items. -/
theorem destroy (H : Inv w O B P) {p : ℕ} {w' : World} (hp : Live w.k p)
    (hrun : ¬RunningTask w.k p) (hreap : p ≠ w.k.sched.reapProcess)
    (h : (Op.destroy p).exec w = some w') : ∃ P', P = p ::ₘ P' ∧ Inv w' O B P' := by
  have hpP := H.live_iff.mp hp
  have hC := H.complete p hpP
  obtain ⟨P', rfl, hnot, hsplit⟩ := H.split hpP
  have hlive : liveItems w.k p = procItems p (w.k.mem p) + {.task (w.k.mem p procTssSelector)} :=
    if_neg hreap
  have hH := H.holds
  rw [hsplit, hlive, ← add_assoc] at hH
  obtain ⟨_, k', hr, F, hH'⟩ := processDestroy_spec hH hC.plain hC.sel_lt
    (Or.inl ⟨rfl, H.tr_ne hpP hrun⟩)
  rw [Op.exec, World.call, hr] at h
  obtain rfl := Option.some.inj h
  refine ⟨P', rfl, of_frame H.toShape F (fun x => mem_base_or) (fun q hq => Multiset.mem_cons_of_mem hq)
    hH' (H.reap.imp_right fun h => ?_) rfl⟩
  exact (Multiset.mem_cons.mp h).resolve_left fun h => hreap h.symm

end Inv

end VirtualKernel
