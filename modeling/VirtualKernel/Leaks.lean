/-
Nothing leaks over whole runs.

Processes come and go in any order: they are created, fail to be created, map
pages, fault, are reaped by a tick, are destroyed.  Once none is left, and the
kernel's clients hold what they held before, every allocator is back where it
was.

* **`resources_returned`** — the kernel heap, the page-table pool, the
  descriptors, the slots, the process table and the scheduler, over all runs;
* **`pages_returned`** — the physical pages too, over runs that give no page to
  a process behind the back of its constructor.
-/
import VirtualKernel.AllOrNothing
import VirtualKernel.Faults

namespace VirtualKernel

open Lib

/-! ### The kernel's directory -/

namespace Inv

variable {w w' : World} {O : ℕ → Prop} {B : Items} {P : Multiset ℕ}

/-- Reaping leaves the kernel's directory alone, and the blocks of the processes
that stay. -/
theorem reap_frame (H : Inv w O B P) : Runs schedulerReapTerminated w.k fun _ k' =>
    k'.ram.frame pageDirBase = w.k.ram.frame pageDirBase ∧
    ∀ P', Reaped w.k P P' → ∀ q ∈ P', ∀ x, Item.block x ∈ liveItems w.k q →
      k'.mem x = w.k.mem x := by
  by_cases hz : w.k.sched.reapProcess = 0
  · refine ⟨(), w.k, run_bind_eq_some.mpr ⟨w.k, w.k, rfl, ?_⟩, rfl, fun _ _ _ _ _ _ => rfl⟩
    rw [if_pos hz]
    rfl
  -- `process_destroy` of the process in the reap word
  have hC := H.complete _ (H.reap.resolve_left hz)
  obtain ⟨P', hP, -, hsplit, hqueued⟩ := H.awaiting hz
  have hH := holds_clearReap H.holds
  rw [hsplit] at hH
  obtain ⟨_, k', hrun, F, -⟩ := processDestroy_spec
    (k := { w.k with sched := { w.k.sched with reapProcess := 0 } }) (Q := 0)
    (by rw [add_zero]; exact hH) hC.plain hC.sel_lt (Or.inr ⟨rfl, hqueued⟩)
  refine ⟨(), k', run_bind_eq_some.mpr ⟨w.k, w.k, rfl, ?_⟩, F.ram.kernel, fun P'' hre q hq x hx => ?_⟩
  · rw [if_neg hz]
    exact run_bind_eq_some.mpr ⟨(), _, rfl, hrun⟩
  · obtain ⟨-, hP''⟩ := hre.resolve_left fun h => hz h.1
    rw [hP] at hP''
    obtain rfl := (Multiset.cons_inj_right _).mp hP''
    exact F.mem x (Multiset.mem_add.mpr (Or.inr (Multiset.mem_bind.mpr ⟨q, hq, hx⟩)))

/-- **Every step** leaves the kernel's directory alone. -/
theorem step_kernelDir (H : Inv w O B P) {op : Op} (ha : op.Allowed w) (hc : Careful w op)
    (h : op.exec w = some w') : w'.k.ram.frame pageDirBase = w.k.ram.frame pageDirBase := by
  cases op with
  | create type => exact (H.create_frame h).ram.kernel
  | destroy p =>
    obtain ⟨_, -, F⟩ := H.destroy_frame ha.1 ha.2 (hc p rfl) h
    exact F.ram.kernel
  | heapAlloc size => exact (H.heapAlloc_frame h).ram.kernel
  | heapFree ptr => exact (H.heapFree_frame ha h).ram.kernel
  | tick image =>
    obtain ⟨k₁, P₁, hr, H₁, -⟩ := H.reapTerminated
    obtain ⟨_, k₁', hr', hdir, -⟩ := H.reap_frame
    obtain rfl : k₁ = k₁' := congrArg Prod.snd (Option.some.inj (hr.symm.trans hr'))
    obtain ⟨k₂, hs, -, S, -⟩ := H₁.switchNext image
    have hrun : (timerTick image).run w.k = some ((), k₂) := run_bind_eq_some.mpr ⟨(), k₁, hr, hs⟩
    obtain ⟨⟨⟨⟩, k'⟩, hrun', rfl⟩ := Option.map_eq_some_iff.mp h
    obtain rfl : k₂ = k' := congrArg Prod.snd (Option.some.inj (hrun.symm.trans hrun'))
    change k₂.ram.frame pageDirBase = _
    rw [S.ram]
    exact hdir
  | fault image =>
    obtain ⟨p, hp, hrunning, htype⟩ := ha
    obtain ⟨k₁, P₁, hr, H₁, hz, -, hpP, hrun₁, hm₁, -⟩ := H.reap_running hp hrunning
    obtain ⟨_, k₁', hr', hdir, -⟩ := H.reap_frame
    obtain rfl : k₁ = k₁' := congrArg Prod.snd (Option.some.inj (hr.symm.trans hr'))
    obtain ⟨k₂, ht, -, -, -, -, -, S⟩ := H₁.terminate image hpP hz hrun₁ (by
      change k₁.mem p procType = _
      rw [hm₁ p hpP]
      exact htype)
    have hrun : (exceptionTerminateCurrent image).run w.k = some (true, k₂) :=
      run_bind_eq_some.mpr ⟨(), k₁, hr, ht⟩
    obtain ⟨⟨a, k'⟩, hrun', rfl⟩ := Option.map_eq_some_iff.mp h
    obtain rfl : k₂ = k' := congrArg Prod.snd (Option.some.inj (hrun.symm.trans hrun'))
    change k₂.ram.frame pageDirBase = _
    rw [S.ram]
    exact hdir
  | _ => exact (H.mapping_same ha trivial h).kernel

/-- The invariant along a run, with the same base items and the same kernel
directory. -/
theorem reach_kernelDir (H : Inv w O B P) (h : Reach Careful w w') :
    (∃ O' P', Inv w' O' B P') ∧ w'.k.ram.frame pageDirBase = w.k.ram.frame pageDirBase := by
  refine h.invariant (I := fun v => (∃ O' P', Inv v O' B P') ∧
    v.k.ram.frame pageDirBase = w.k.ram.frame pageDirBase) ⟨⟨O, P, H⟩, rfl⟩ ?_
  rintro v v' op ⟨⟨O', P', H'⟩, hdir⟩ ha hc he
  exact ⟨H'.step ha hc he, (H'.step_kernelDir ha hc he).trans hdir⟩

end Inv

/-! ### The account of a kernel without processes -/

/-- No process is registered. -/
def Idle (k : Kernel) : Prop := ∀ p, ¬Live k p

/-- Without processes the account holds blocks and descriptors only. -/
theorem Inv.idle_items {w : World} {O : ℕ → Prop} {B : Items} {P : Multiset ℕ} (H : Inv w O B P)
    (hnone : Idle w.k) : Holds w.k O (B + heldItems w.held) ∧
      ∀ x ∈ B + heldItems w.held, (∃ q, x = .block q) ∨ ∃ i, x = .gdt i := by
  have hP : P = 0 := Multiset.eq_zero_of_forall_notMem fun p hp => hnone p (H.live_iff.mpr hp)
  subst hP
  have hH := H.holds
  rw [Multiset.zero_bind, add_zero] at hH
  refine ⟨hH, fun x hx => ?_⟩
  by_contra hno
  obtain ⟨hb, hg⟩ := not_or.mp hno
  obtain ⟨p, hp, -⟩ := H.of_process (fun q h => hb ⟨q, h⟩) (fun i h => hg ⟨i, h⟩)
    (Multiset.mem_add.mpr (Or.inl hx))
  exact Multiset.notMem_zero p hp

/-- What is in use in `k` is in use in `k'`, and neither has a process. -/
structure Returned (k k' : Kernel) : Prop where
  heap : ∀ p, k'.heap.Live p ↔ k.heap.Live p
  pool : ∀ a, k'.ram.PoolUsed a ↔ k.ram.PoolUsed a
  gdtBitmap : ∀ i < gdtEntryCount, k'.gdtBitmap i = k.gdtBitmap i
  gdt : ∀ i, gdtFirstDynamic ≤ i → i < gdtEntryCount → k'.gdtBitmap i = false → k'.gdt i = (0, 0)
  slotBitmap : ∀ i < processMaxCount, k'.slotBitmap i = false
  processTable : ∀ i < processMaxCount, k'.processTable i = 0
  processCount : k'.processActiveCount = 0
  taskTable : ∀ i < maxTasks, k'.sched.taskTable i = 0
  taskCount : k'.sched.taskCount = 0
  kernel : k'.sched.currentIndex = noIndex

section Account

variable {k k' : Kernel} {O O' : ℕ → Prop} {T : Items}

/-- Two states with the same account, which has no item of a process. -/
theorem Holds.returned (H : Holds k O T) (H' : Holds k' O' T)
    (hT : ∀ x ∈ T, (∃ q, x = .block q) ∨ ∃ i, x = .gdt i)
    (hdir : k'.ram.frame pageDirBase = k.ram.frame pageDirBase) : Returned k k' := by
  have hnot : ∀ {x : Item}, (∀ q, x ≠ .block q) → (∀ i, x ≠ .gdt i) → x ∉ T := fun hb hg hx =>
    (hT _ hx).elim (fun ⟨q, h⟩ => hb q h) fun ⟨i, h⟩ => hg i h
  have htask : ∀ i < maxTasks, k'.sched.taskTable i = 0 := fun i hi => by
    by_contra hne
    exact hnot (x := .task (k'.sched.taskTable i)) (fun q => by simp) (fun i => by simp)
      ((H'.task.task _ hne).mp ⟨i, hi, rfl⟩)
  have hprocess : ∀ i < processMaxCount, k'.processTable i = 0 := fun i hi => by
    by_contra hne
    exact hnot (x := .entry i (k'.processTable i)) (fun q => by simp) (fun i => by simp)
      ((H'.entry.entry i hi _ hne).mp rfl)
  refine ⟨fun p => (H'.heap_live p).trans (H.heap_live p).symm, fun a => ?_, fun i hi => ?_,
    fun i hge hlt hfree => ?_, fun i hi => ?_, hprocess, ?_, htask, ?_, ?_⟩
  · -- the pool holds the tables of the kernel's directory
    rw [H'.pool_used, H.pool_used]
    have hnode : ∀ x, NodeAt k'.ram (dirsOf T) x a ↔ NodeAt k.ram (dirsOf T) x a := fun x => by
      have hd : ∀ d, ¬dirsOf T d := fun d => hnot (fun q => by simp) fun i => by simp
      cases x with
      | dir d => exact ⟨fun h => absurd h.1 (hd d), fun h => absurd h.1 (hd d)⟩
      | table d i => exact ⟨fun h => absurd h.1 (hd d), fun h => absurd h.1 (hd d)⟩
      | ktable i => rw [NodeAt, NodeAt, ktableOf_congr hdir]
    exact exists_congr hnode
  · exact Bool.eq_iff_iff.mpr ((H'.gdt.bit i hi).trans (H.gdt.bit i hi).symm)
  · refine H'.gdt.free i hge fun hi => ?_
    rw [(H'.gdt.bit i hlt).mpr (Or.inr hi)] at hfree
    exact Bool.noConfusion hfree
  · refine Bool.eq_false_iff.mpr fun h => ?_
    exact hnot (fun q => by simp) (fun i => by simp) ((H'.slot.bit i hi).mp h)
  · rw [H'.entry.count]
    refine List.length_eq_zero_iff.mpr (List.filter_eq_nil_iff.mpr fun i hi => ?_)
    simpa using hprocess i (List.mem_range.mp hi)
  · rw [H'.sched.count]
    refine List.length_eq_zero_iff.mpr (List.eq_nil_iff_forall_not_mem.mpr fun i hi => ?_)
    obtain ⟨hlt, hne⟩ := Sched.mem_runnable.mp hi
    exact hne (htask i hlt)
  · -- the running task would be in the task table
    by_contra hcur
    obtain ⟨hlt, htr, hne⟩ := H'.sched.current.resolve_left fun h => hcur h.1
    exact hne (htr.symm.trans (htask _ hlt))

/-- The physical pages of such states: those in use for other reasons, and those
of the heap. -/
theorem Holds.idle_page (H : Holds k O T) (hT : ∀ x ∈ T, (∃ q, x = .block q) ∨ ∃ i, x = .gdt i)
    (n : ℕ) : k.ram.used n = true ∧ ¬k.ram.BacksHeap n ↔ O n := by
  rw [H.page_used]
  constructor
  · rintro ⟨h | h | ⟨d, i, j, hd, -⟩, hnot⟩
    · exact h
    · exact absurd h hnot
    · rcases hT _ hd with ⟨q, h⟩ | ⟨i, h⟩
      · cases h
      · cases h
  · exact fun h => ⟨Or.inl h, fun hb => (H.backsHeap_only hb).1 h⟩

end Account

/-! ### Whole runs -/

/-- The steps in the life of a process leave the clients' blocks alone. -/
theorem held_of_lifecycle {w₀ w : World}
    (h : Reach (fun w op => op.IsLifecycle ∧ Careful w op) w₀ w) : w.held = w₀.held := by
  refine h.invariant (I := fun w => w.held = w₀.held) rfl ?_
  rintro v v' op hv - ⟨hop, -⟩ he
  cases op with
  | create type | destroy p | tick image | fault image =>
    obtain ⟨x, -, rfl⟩ := Option.map_eq_some_iff.mp he
    exact hv
  | _ => exact absurd hop id

/-- The whole life of a process: it is created, runs, faults, and is reaped. -/
theorem exists_reaped : ∃ w₀ w, Booted w₀ ∧ Idle w₀.k ∧ Idle w.k ∧
    Reach (fun w op => op.IsLifecycle ∧ Careful w op) w₀ w ∧
    ∃ v p, Reach (fun w op => op.IsLifecycle ∧ Careful w op) w₀ v ∧
      Reach (fun w op => op.IsLifecycle ∧ Careful w op) v w ∧ RunningTask v.k p := by
  obtain ⟨w₀, v, B, p, h₀, h, H, hz, hrun, htype⟩ := exists_running (Or.inl rfl)
  obtain ⟨O₀, B₀, H₀⟩ := booted_inv h₀
  have hlive : Live v.k p := H.live_iff.mpr (Multiset.mem_cons_self p 0)
  -- the fault puts the process into the reap word
  obtain ⟨v₁, P₁, -, he₁, H₁, hre₁, hp₁, hT, -⟩ := H.fault_runs (fun _ => 0) hlive hrun htype
  obtain ⟨-, rfl⟩ := hre₁.resolve_right fun hr => hr.1 hz
  have hfault : (Op.fault fun _ => 0).Allowed v := ⟨p, hlive, hrun, htype⟩
  -- the tick reaps it
  obtain ⟨w, P₂, he₂, H₂, hre₂, -⟩ := H₁.tick_runs fun _ => 0
  have hreap : v₁.k.sched.reapProcess ≠ 0 := by
    rw [hT.reap]
    exact H.ne_zero (Multiset.mem_cons_self p 0)
  obtain ⟨-, hP⟩ := hre₂.resolve_left fun hr => hreap hr.1
  rw [hT.reap] at hP
  obtain rfl := (Multiset.cons_inj_right p).mp hP
  have htick : (Op.tick fun _ => 0).Allowed v₁ := trivial
  have hend : ∀ {u : World}, Reach (fun w op => op.IsLifecycle ∧ Careful w op) u v →
      Reach (fun w op => op.IsLifecycle ∧ Careful w op) u w := fun hu =>
    .step (.step hu hfault ⟨trivial, fun q hq => by cases hq⟩ he₁) htick
      ⟨trivial, fun q hq => by cases hq⟩ he₂
  exact ⟨w₀, w, h₀, fun q hq => Multiset.notMem_zero q (H₀.live_iff.mp hq),
    fun q hq => Multiset.notMem_zero q (H₂.live_iff.mp hq), hend h, v, p, h, hend .refl, hrun⟩

/-- **Nothing leaks.**  Take any world after boot without processes, and any run
from it to a world without processes in which the clients hold the same blocks:
processes created (or not, whichever step failed), destroyed, terminated by a
fault, reaped, mapped into.  Then the heap has the same live allocations, the
page-table pool the same pages in use, the descriptor table the same entries
reserved and the others null, and the slots, the process table and the
scheduler are empty. -/
theorem resources_returned {w₀ w w' : World} (h₀ : Booted w₀) (h : Reach Careful w₀ w)
    (h' : Reach Careful w w') (hheld : w'.held.Perm w.held) (hnone : Idle w.k)
    (hnone' : Idle w'.k) : Returned w.k w'.k := by
  obtain ⟨O, B, P, H⟩ := reach_inv h₀ h
  obtain ⟨⟨O', P', H'⟩, hdir⟩ := H.reach_kernelDir h'
  obtain ⟨hH, hT⟩ := H.idle_items hnone
  obtain ⟨hH', -⟩ := H'.idle_items hnone'
  rw [show heldItems w'.held = heldItems w.held by
    rw [heldItems, heldItems, Multiset.coe_eq_coe.mpr hheld]] at hH'
  exact hH.returned hH' hT hdir

/-- After the whole life of a process. -/
theorem resources_returned_reaped : ∃ w₀ v w p, Booted w₀ ∧ Reach Careful w₀ v ∧
    RunningTask v.k p ∧ Reach Careful v w ∧ Returned w₀.k w.k := by
  obtain ⟨w₀, w, h₀, hnone, hnone', h, v, p, h₁, h₂, hrun⟩ := exists_reaped
  exact ⟨w₀, v, w, p, h₀, h₁.mono fun _ _ h => h.2, hrun, h₂.mono fun _ _ h => h.2,
    resources_returned h₀ .refl (h.mono fun _ _ h => h.2) (by rw [held_of_lifecycle h]) hnone hnone'⟩

/-- The steps in which pages come only from the constructors of processes and
the growth of the kernel heap, and go back with them. -/
def Op.AccountsPages : Op → Prop
  | .create _ => True
  | .destroy _ => True
  | .heapAlloc _ => True
  | .heapFree _ => True
  | .tick _ => True
  | .fault _ => True
  | .driverWork _ => True
  | _ => False

/-- Such a step leaves the pages in use for other reasons as they are. -/
theorem Inv.step_pages {w w' : World} {O : ℕ → Prop} {B : Items} {P : Multiset ℕ} {op : Op}
    (H : Inv w O B P) (hop : op.AccountsPages) (ha : op.Allowed w) (hc : Careful w op)
    (h : op.exec w = some w') : ∃ P', Inv w' O B P' := by
  cases op with
  | create type =>
    obtain ⟨p, -, ⟨-, H'⟩ | ⟨-, -, H'⟩⟩ := H.create h
    · exact ⟨P, H'⟩
    · exact ⟨_, H'⟩
  | destroy p =>
    obtain ⟨P', -, H'⟩ := H.destroy ha.1 ha.2 (hc p rfl) h
    exact ⟨P', H'⟩
  | heapAlloc size => exact ⟨P, H.heapAlloc h⟩
  | heapFree ptr => exact ⟨P, H.heapFree ha h⟩
  | tick image =>
    obtain ⟨P', H', -⟩ := H.tick h
    exact ⟨P', H'⟩
  | fault image =>
    obtain ⟨p, hp, hrun, htype⟩ := ha
    obtain ⟨P', H', -⟩ := H.fault hp hrun htype h
    exact ⟨P', H'⟩
  | driverWork mem => exact ⟨P, H.driverWork h⟩
  | _ => exact absurd hop id

/-- **No physical page leaks.**  Over a run of creations, destructions, faults,
ticks and heap calls between two worlds without processes, the same pages are in
use but for those that back the kernel heap. -/
theorem pages_returned {w₀ w w' : World} (h₀ : Booted w₀) (h : Reach Careful w₀ w)
    (h' : Reach (fun w op => op.AccountsPages ∧ Careful w op) w w') (hnone : Idle w.k)
    (hnone' : Idle w'.k) (n : ℕ) :
    w'.k.ram.used n = true ∧ ¬w'.k.ram.BacksHeap n ↔ w.k.ram.used n = true ∧ ¬w.k.ram.BacksHeap n := by
  obtain ⟨O, B, P, H⟩ := reach_inv h₀ h
  obtain ⟨P', H'⟩ : ∃ P', Inv w' O B P' := by
    refine h'.invariant (I := fun v => ∃ P', Inv v O B P') ⟨P, H⟩ ?_
    rintro v v' op ⟨P', H'⟩ ha ⟨hop, hc⟩ he
    exact H'.step_pages hop ha hc he
  obtain ⟨hH, hT⟩ := H.idle_items hnone
  obtain ⟨hH', hT'⟩ := H'.idle_items hnone'
  exact (hH'.idle_page hT' n).trans (hH.idle_page hT n).symm

/-- After the whole life of a process. -/
theorem pages_returned_reaped : ∃ w₀ v w p, Booted w₀ ∧ Reach Careful w₀ v ∧
    RunningTask v.k p ∧ Reach Careful v w ∧
    ∀ n, w.k.ram.used n = true ∧ ¬w.k.ram.BacksHeap n ↔
      w₀.k.ram.used n = true ∧ ¬w₀.k.ram.BacksHeap n := by
  obtain ⟨w₀, w, h₀, hnone, hnone', h, v, p, h₁, h₂, hrun⟩ := exists_reaped
  have hpages : ∀ op : Op, op.IsLifecycle → op.AccountsPages := fun op hop => by
    cases op <;> trivial
  exact ⟨w₀, v, w, p, h₀, h₁.mono fun _ _ h => h.2, hrun, h₂.mono fun _ _ h => h.2,
    pages_returned h₀ .refl (h.mono fun _ op h => ⟨hpages op h.1, h.2⟩) hnone hnone'⟩

end VirtualKernel
