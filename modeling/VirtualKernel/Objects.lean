/-
The objects of processes along runs.

A step leaves the object of every process as it is, up to its heap mark, and the
only process that can be new is the one that `process_create` returns
(`Inv.step_objects`).  So what holds of every new object and does not speak
about the heap mark holds of every object as long as its process is live
(`reach_objects`): where its heap and its slot are, for one (`reach_placed`).
-/
import VirtualKernel.CallFrames

namespace VirtualKernel

open Lib

/-- The object of the process `p` is as it was, up to its heap mark. -/
def SameObject (k k' : Kernel) (p : ℕ) : Prop :=
  ∀ o, o ≠ procHeapCurrent → k'.mem p o = k.mem p o

theorem Frame.sameObject {T : Items} {k k' : Kernel} {P : Multiset ℕ} (F : Frame T k k')
    (hT : ∀ x ∈ P.bind (liveItems k), x ∈ T) {p : ℕ} (hp : p ∈ P) : SameObject k k' p := fun o _ => by
  rw [F.mem p (hT _ (Multiset.mem_bind.mpr
    ⟨p, hp, procItems_subset_liveItems (block_mem_procItems _ _)⟩))]

namespace Inv

variable {w w' : World} {O : ℕ → Prop} {B : Items} {P : Multiset ℕ}

/-- Calls that only map pages keep the processes. -/
theorem mapping (H : Inv w O B P) {op : Op} (ha : op.Allowed w) (hop : op.IsMapping)
    (h : op.exec w = some w') : ∃ O', Inv w' O' B P := by
  cases op with
  | prepare p source size image => exact H.prepare ha h
  | heapGrow p => exact H.heapGrow ha h
  | allocPage => exact H.allocPage h
  | freePage n => exact H.freePage ha h
  | mapUser pd virt phys flags => exact H.mapUser ha.1 ha.2 h
  | unmap pd virt => exact H.unmap ha.1 ha.2 h
  | storageMap physical => exact H.storageMap ha h
  | driverWork mem => exact ⟨O, H.driverWork h⟩
  | _ => exact absurd hop id

theorem create_objects (H : Inv w O B P) {type : ℕ} (h : (Op.create type).exec w = some w') {q : ℕ}
    (hq : Live w'.k q) : Live w.k q ∧ SameObject w.k w'.k q ∨
      ¬Live w.k q ∧ (processCreate type).run w.k = some (q, w'.k) := by
  have hold : q ∈ P → Live w.k q ∧ SameObject w.k w'.k q := fun hq => ⟨H.live_iff.mpr hq,
    (H.create_frame h).sameObject (fun x hx => Multiset.mem_add.mpr (Or.inr hx)) hq⟩
  obtain ⟨p, hrun, ⟨-, H'⟩ | ⟨-, hpP, H'⟩⟩ := H.create h
  · exact Or.inl (hold (H'.live_iff.mp hq))
  · rcases Multiset.mem_cons.mp (H'.live_iff.mp hq) with rfl | hq
    · exact Or.inr ⟨fun hl => hpP (H.live_iff.mp hl), hrun⟩
    · exact Or.inl (hold hq)

theorem destroy_objects (H : Inv w O B P) {p : ℕ} (ha : (Op.destroy p).Allowed w)
    (hc : Careful w (.destroy p)) (h : (Op.destroy p).exec w = some w') {q : ℕ}
    (hq : Live w'.k q) : Live w.k q ∧ SameObject w.k w'.k q := by
  obtain ⟨P', rfl, H'⟩ := H.destroy ha.1 ha.2 (hc p rfl) h
  obtain ⟨P'', hP, F⟩ := H.destroy_frame ha.1 ha.2 (hc p rfl) h
  obtain rfl := (Multiset.cons_inj_right p).mp hP
  have hqP := H'.live_iff.mp hq
  exact ⟨H.live_iff.mpr (Multiset.mem_cons_of_mem hqP),
    F.sameObject (fun x hx => Multiset.mem_add.mpr (Or.inr hx)) hqP⟩

theorem reaped_mem {k : Kernel} {P P' : Multiset ℕ} (h : Reaped k P P') {q : ℕ} (hq : q ∈ P') :
    q ∈ P := by
  rcases h with ⟨-, rfl⟩ | ⟨-, rfl⟩
  · exact hq
  · exact Multiset.mem_cons_of_mem hq

/-- **What a step does to the processes.**  A process that is live after a step
was live before it and has the same object up to its heap mark, or it is the
one that `process_create` returns. -/
theorem step_objects (H : Inv w O B P) {op : Op} (ha : op.Allowed w) (hc : Careful w op)
    (h : op.exec w = some w') {q : ℕ} (hq : Live w'.k q) :
    Live w.k q ∧ SameObject w.k w'.k q ∨
      ¬Live w.k q ∧ ∃ type, op = .create type ∧ (processCreate type).run w.k = some (q, w'.k) := by
  cases op with
  | create type => exact (H.create_objects h hq).imp_right fun hnew => ⟨hnew.1, type, rfl, hnew.2⟩
  | destroy p => exact Or.inl (H.destroy_objects ha hc h hq)
  | heapAlloc size =>
    have hqP := (H.heapAlloc h).live_iff.mp hq
    exact Or.inl ⟨H.live_iff.mpr hqP,
      (H.heapAlloc_frame h).sameObject (fun x hx => Multiset.mem_add.mpr (Or.inr hx)) hqP⟩
  | heapFree ptr =>
    have hqP := (H.heapFree ha h).live_iff.mp hq
    exact Or.inl ⟨H.live_iff.mpr hqP, (H.heapFree_frame ha h).sameObject (fun x hx => hx) hqP⟩
  | tick image =>
    obtain ⟨P', H', hre, -, -, hm⟩ := H.tick h
    have hqP := H'.live_iff.mp hq
    exact Or.inl ⟨H.live_iff.mpr (reaped_mem hre hqP), fun o _ => by rw [hm q hqP]⟩
  | fault image =>
    obtain ⟨p, hp, hrun, htype⟩ := ha
    obtain ⟨P', H', hre, -, -, -, hm⟩ := H.fault hp hrun htype h
    have hqP := H'.live_iff.mp hq
    exact Or.inl ⟨H.live_iff.mpr (reaped_mem hre hqP), fun o _ => by rw [hm q hqP]⟩
  | _ =>
    obtain ⟨_, H'⟩ := H.mapping ha trivial h
    have S := H.mapping_same ha trivial h
    exact Or.inl ⟨H.live_iff.mpr (H'.live_iff.mp hq), S.mem q⟩

end Inv

/-- **Objects along runs.**  A property of objects that every new process has,
and that does not depend on the heap mark, belongs to every live process. -/
theorem reach_objects {w₀ w : World} {Q : (ℕ → ℕ) → Prop}
    (hsame : ∀ f g : ℕ → ℕ, (∀ o, o ≠ procHeapCurrent → g o = f o) → Q f → Q g)
    (hnew : ∀ {v O B P type p k'}, Inv v O B P → (processCreate type).run v.k = some (p, k') →
      p ≠ 0 → Q (k'.mem p))
    (h₀ : Booted w₀) (h : Reach Careful w₀ w) {p : ℕ} (hp : Live w.k p) : Q (w.k.mem p) := by
  obtain ⟨O, B, H⟩ := booted_inv h₀
  have key : (∃ O B P, Inv w O B P) ∧ ∀ p, Live w.k p → Q (w.k.mem p) := by
    refine h.invariant (I := fun w => (∃ O B P, Inv w O B P) ∧ ∀ p, Live w.k p → Q (w.k.mem p))
      ⟨⟨O, B, 0, H⟩, fun p hp => absurd (H.live_iff.mp hp) (Multiset.notMem_zero p)⟩ ?_
    rintro w w' op ⟨⟨O, B, P, H⟩, hQ⟩ ha hc he
    obtain ⟨O', P', H'⟩ := H.step ha hc he
    refine ⟨⟨O', B, P', H'⟩, fun q hq => ?_⟩
    rcases H.step_objects ha hc he hq with ⟨hlive, hobj⟩ | ⟨-, type, -, hrun⟩
    · exact hsame _ _ hobj (hQ q hlive)
    · exact hnew H hrun hq.1
  exact key.2 p hp

/-! ### Where processes are placed -/

/-- A protected process has its heap at `USER_HEAP_BASE` and its segments in its
slot. -/
def Placed (f : ℕ → ℕ) : Prop := f procType = processTypeProtected32 →
  f procHeapBase = userHeapBase ∧ f procSlotIndex < processMaxCount ∧
    f procSlotBase = slotBase (f procSlotIndex)

/-- The constructors place every new process so. -/
theorem Inv.created_placed {w : World} {O : ℕ → Prop} {B : Items} {P : Multiset ℕ}
    (H : Inv w O B P) {type p : ℕ} {k' : Kernel}
    (hrun : (processCreate type).run w.k = some (p, k')) (hp : p ≠ 0) : Placed (k'.mem p) := by
  refine Runs.of_run (Q := fun p k' => p ≠ 0 → Placed (k'.mem p)) ?_ hrun hp
  rw [processCreate]
  refine runs_ite (fun _ => ?_) fun _ => runs_ite (fun _ => ?_) fun _ => ?_
  · refine (processCreateProtected32_spec H.holds H.tasksOwned).mono ?_
    rintro p k' ⟨-, ⟨rfl, -⟩ | ⟨-, slot, -, -, -, fresh, -, hheap⟩⟩ hp
    · exact absurd rfl hp
    · intro _
      rw [fresh.slotField]
      exact ⟨hheap, fresh.slot_lt, fresh.base⟩
  · refine (v86ProcessCreate_spec H.holds H.tasksOwned).mono ?_
    rintro p k' ⟨-, ⟨rfl, -⟩ | ⟨-, -, -, htype⟩⟩ hp h
    · exact absurd rfl hp
    · rw [htype] at h
      cases h
  · exact runs_pure fun h => absurd rfl h

/-- A new protected process is fresh in some slot. -/
theorem Inv.created_fresh {w : World} {O : ℕ → Prop} {B : Items} {P : Multiset ℕ}
    (H : Inv w O B P) {p : ℕ} {k' : Kernel}
    (hrun : (processCreate processTypeProtected32).run w.k = some (p, k')) (hp : p ≠ 0) :
    ∃ slot, Fresh slot k' p := by
  rw [processCreate, if_pos rfl] at hrun
  obtain ⟨-, hres⟩ := (processCreateProtected32_spec H.holds H.tasksOwned).of_run hrun
  obtain ⟨-, slot, -, -, -, fresh, -⟩ := hres.resolve_left fun h => hp h.1
  exact ⟨slot, fresh⟩

/-- Processes stay where they are. -/
theorem reach_placed {w₀ w : World} (h₀ : Booted w₀) (h : Reach Careful w₀ w) {p : ℕ}
    (hp : Live w.k p) : Placed (w.k.mem p) := by
  refine reach_objects (Q := Placed) (fun f g hfg hf hg => ?_) (fun H => H.created_placed) h₀ h hp
  rw [hfg _ (by decide), hfg _ (by decide), hfg _ (by decide)]
  exact hf (by rw [← hfg _ (by decide), hg])

end VirtualKernel
