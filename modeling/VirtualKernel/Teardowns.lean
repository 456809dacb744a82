/-
Every process is torn down once.

`process_destroy` is called by the kernel for a process of its choice and by
the interrupts for the process that faulted last.  A run is read together with
the processes that have faulted (`FaultReach`); as long as the kernel does not
destroy the process that awaits reaping, whatever is destroyed is a registered
process in a block of its own, and what an interrupt destroys has faulted
(`torn_down_once`).  The kernel may destroy that process, and then the next tick
destroys it again (`not_torn_down_once`).
-/
import VirtualKernel.CreateRuns
import VirtualKernel.AllOrNothing

namespace VirtualKernel

open Lib

/-! ### Faults and teardowns -/

/-- The process that a step applies `process_destroy` to. -/
def Op.Destroys (w : World) : Op → ℕ → Prop
  | .destroy q, p => p = q
  | .tick _, p => w.k.sched.reapProcess ≠ 0 ∧ p = w.k.sched.reapProcess
  | .fault _, p => w.k.sched.reapProcess ≠ 0 ∧ p = w.k.sched.reapProcess
  | _, _ => False

/-- The processes that have faulted, after a step: a fault adds the running
process, and a process leaves together with its entry in the process table. -/
def Op.faulted (w : World) (op : Op) (w' : World) (F : ℕ → Prop) (p : ℕ) : Prop :=
  Live w'.k p ∧ (F p ∨ (∃ image, op = .fault image) ∧ RunningTask w.k p)

/-- The worlds that the calls in `ok` lead to, and the processes that have
faulted on the way. -/
inductive FaultReach (ok : World → Op → Prop) (w₀ : World) : World → (ℕ → Prop) → Prop
  | refl : FaultReach ok w₀ w₀ fun _ => False
  | step {w w' : World} {F : ℕ → Prop} {op : Op} : FaultReach ok w₀ w F → op.Allowed w → ok w op →
      op.exec w = some w' → FaultReach ok w₀ w' (op.faulted w w' F)

/-- Every run has its faults. -/
theorem Reach.faults {ok : World → Op → Prop} {w₀ w : World} (h : Reach ok w₀ w) :
    ∃ F, FaultReach ok w₀ w F := by
  induction h with
  | refl => exact ⟨_, .refl⟩
  | step _ ha hc he ih =>
    obtain ⟨F, hF⟩ := ih
    exact ⟨_, .step hF ha hc he⟩

theorem FaultReach.mono {ok ok' : World → Op → Prop} {w₀ w : World} {F : ℕ → Prop}
    (h : FaultReach ok w₀ w F) (hok : ∀ w op, ok w op → ok' w op) : FaultReach ok' w₀ w F := by
  induction h with
  | refl => exact .refl
  | step _ ha hc he ih => exact .step ih ha (hok _ _ hc) he

/-- What a teardown is applied to: a registered process in a block that has not
been freed, which has faulted when the kernel did not ask for the teardown. -/
structure TornDown (w : World) (F : ℕ → Prop) (op : Op) (p : ℕ) : Prop where
  live : Live w.k p
  block : w.k.heap.Live p
  faulted : op.IsCall ∨ F p

namespace Inv

variable {w w' : World} {O : ℕ → Prop} {B : Items} {P P' : Multiset ℕ} {F : ℕ → Prop} {op : Op}

theorem block_live (H : Inv w O B P) {p : ℕ} (hp : p ∈ P) : w.k.heap.Live p :=
  (H.holds.heap_live p).mpr (H.mem_items hp (block_mem_procItems _ _))

/-- The process that awaits reaping has faulted, after one more step. -/
theorem reap_faulted (H : Inv w O B P) (ha : op.Allowed w) (hc : Careful w op)
    (he : op.exec w = some w') (hF : w.k.sched.reapProcess = 0 ∨ F w.k.sched.reapProcess) :
    w'.k.sched.reapProcess = 0 ∨ op.faulted w w' F w'.k.sched.reapProcess := by
  obtain ⟨O', P', H'⟩ := H.step ha hc he
  by_cases hcall : op.IsCall
  · -- a call leaves the word alone
    have hsame := (H.steady ha hc hcall he).reap
    refine or_iff_not_imp_left.mpr fun hz => ⟨H'.live_iff.mpr (H'.reap.resolve_left hz), Or.inl ?_⟩
    rw [hsame] at hz ⊢
    exact hF.resolve_left hz
  cases op with
  | tick image =>
    obtain ⟨_, -, -, hz, -⟩ := H.tick he
    exact Or.inl hz
  | fault image =>
    -- the running process awaits reaping now
    obtain ⟨p, hp, hrun, htype⟩ := ha
    obtain ⟨_, H', -, hpP', hreap, -⟩ := H.fault hp hrun htype he
    rw [hreap]
    exact Or.inr ⟨H'.live_iff.mpr hpP', Or.inr ⟨⟨image, rfl⟩, hrun⟩⟩
  | _ => exact absurd trivial hcall

/-- **A teardown** of a careful step. -/
theorem tornDown (H : Inv w O B P) (ha : op.Allowed w)
    (hF : w.k.sched.reapProcess = 0 ∨ F w.k.sched.reapProcess) {p : ℕ} (hd : op.Destroys w p) :
    TornDown w F op p := by
  have hreap : w.k.sched.reapProcess ≠ 0 → TornDown w F op w.k.sched.reapProcess := fun hz => by
    have hp := H.reap.resolve_left hz
    exact ⟨H.live_iff.mpr hp, H.block_live hp, Or.inr (hF.resolve_left hz)⟩
  cases op with
  | destroy q =>
    obtain rfl : p = q := hd
    exact ⟨ha.1, H.block_live (H.live_iff.mp ha.1), Or.inl trivial⟩
  | tick image =>
    obtain ⟨hz, rfl⟩ := hd
    exact hreap hz
  | fault image =>
    obtain ⟨hz, rfl⟩ := hd
    exact hreap hz
  | _ => exact hd.elim

theorem notMem_of_cons (H : Inv w O B P) {p : ℕ} (hP : P = p ::ₘ P') : p ∉ P' := by
  obtain ⟨Q, hQ, hnot, -⟩ := H.split (by rw [hP]; exact Multiset.mem_cons_self p P')
  rw [hP] at hQ
  rwa [(Multiset.cons_inj_right p).mp hQ]

/-- What has been torn down is no process any more. -/
theorem gone (H : Inv w O B P) (ha : op.Allowed w) (hc : Careful w op) {p : ℕ}
    (hd : op.Destroys w p) (he : op.exec w = some w') : ¬Live w'.k p := by
  cases op with
  | destroy q =>
    obtain rfl : p = q := hd
    obtain ⟨P', hP, H'⟩ := H.destroy ha.1 ha.2 (hc p rfl) he
    exact fun h => H.notMem_of_cons hP (H'.live_iff.mp h)
  | tick image =>
    obtain ⟨hz, rfl⟩ := hd
    obtain ⟨P', H', hre, -⟩ := H.tick he
    obtain ⟨-, hP⟩ := hre.resolve_left fun h => hz h.1
    exact fun h => H.notMem_of_cons hP (H'.live_iff.mp h)
  | fault image =>
    obtain ⟨hz, rfl⟩ := hd
    obtain ⟨q, hq, hrun, htype⟩ := ha
    obtain ⟨P', H', hre, -⟩ := H.fault hq hrun htype he
    obtain ⟨-, hP⟩ := hre.resolve_left fun h => hz h.1
    exact fun h => H.notMem_of_cons hP (H'.live_iff.mp h)
  | _ => exact hd.elim

end Inv

/-! ### What `process_create` gives back

On its error paths `process_create` destroys the object it has built so far.
The constructors are written down once more with another function in the place
of `process_destroy`.
-/

section Substitute

variable (destroy : ℕ → KM Unit)

/-- `process_create_destroy_process` with `destroy`. -/
def processCreateUndoWith (esi : ℕ) : KM ℕ := do
  destroy esi
  return 0

/-- The end of both constructors with `destroy`. -/
def processPublishWith (esi : ℕ) : KM ℕ := do
  let eax ← processRegister esi
  if eax = 0 then processCreateUndoWith destroy esi
  else
    let eax ← kSchedulerAddProcess esi
    if eax = 0 then processCreateUndoWith destroy esi else return esi

/-- `process_create_protected32` with `destroy`. -/
def processCreateProtected32With : KM ℕ := do
  let esi ← processMemoryCreate
  if esi = 0 then return 0
  else
    store esi procType processTypeProtected32
    match ← processSlotAlloc with
    | none =>
      processMemoryDestroy esi
      return 0
    | some (slot, base) =>
      rewrite esi fun _ f => Function.update (Function.update f procSlotIndex slot) procSlotBase base
      let eax ← processCreateRandomLdt esi base
      if eax = 0 then
        processSlotFree slot
        processMemoryDestroy esi
        return 0
      else
        if ← processCreateTss esi then
          if ← processInstallSyscallGateway esi then processPublishWith destroy esi
          else processCreateUndoWith destroy esi
        else processCreateUndoWith destroy esi

/-- `v86_process_create` with `destroy`. -/
def v86ProcessCreateWith : KM ℕ := do
  let esi ← v86ProcessMemoryCreate
  if esi = 0 then return 0
  else
    if ← v86ProcessCreateTss esi then processPublishWith destroy esi
    else processCreateUndoWith destroy esi

/-- `process_create` with `destroy`. -/
def processCreateWith (type : ℕ) : KM ℕ :=
  if type = processTypeProtected32 then processCreateProtected32With destroy
  else if type = processTypeV86 then v86ProcessCreateWith destroy
  else pure 0

end Substitute

example : processCreateWith processDestroy = processCreate := rfl

/-- `destroy` does what `process_destroy` does to blocks that have not been
freed; to others it may do anything. -/
def DestroysLive (destroy : ℕ → KM Unit) : Prop :=
  ∀ p k, k.heap.Live p → (destroy p).run k = (processDestroy p).run k

namespace DestroysLive

variable {destroy : ℕ → KM Unit} {k : Kernel} {O : ℕ → Prop} {T : Items} {p : ℕ}

theorem undo (hd : DestroysLive destroy) (hp : k.heap.Live p) :
    (processCreateUndoWith destroy p).run k = (processCreateUndo p).run k := by
  rw [processCreateUndoWith, processCreateUndo, StateT.run_bind, StateT.run_bind, hd p k hp]

theorem publish (hd : DestroysLive destroy) (hp : k.heap.Live p) :
    (processPublishWith destroy p).run k = (processPublish p).run k := by
  refine runs_bind_congr (Q := fun _ k₁ => k₁.heap = k.heap) (runs_modifyGet ?_) ?_
  · split_ifs
    · rfl
    · split <;> rfl
  intro eax k₁ h₁
  rw [← h₁] at hp
  split_ifs
  · exact hd.undo hp
  refine runs_bind_congr (Q := fun _ k₂ => k₂.heap = k₁.heap) (runs_get_bind (runs_modifyGet rfl)) ?_
  intro eax k₂ h₂
  rw [← h₂] at hp
  split_ifs
  · exact hd.undo hp
  · rfl

/-- The end of the protected constructor, from an object with its segment. -/
theorem tail (hd : DestroysLive destroy) (hp : k.heap.Live p) :
    (do
      if ← processInstallSyscallGateway p then processPublishWith destroy p
      else processCreateUndoWith destroy p : KM ℕ).run k =
    (do
      if ← processInstallSyscallGateway p then processPublish p
      else processCreateUndo p : KM ℕ).run k := by
  refine runs_bind_congr (Q := fun _ k₁ => k₁.heap = k.heap) (runs_get_bind ?_) ?_
  · exact runs_ite (fun _ => runs_pure rfl) fun _ => runs_modifyGet rfl
  intro b k₁ h₁
  rw [← h₁] at hp
  split_ifs
  · exact hd.publish hp
  · exact hd.undo hp

theorem protected32 (hd : DestroysLive destroy) (H : Holds k O T) :
    (processCreateProtected32With destroy).run k = processCreateProtected32.run k := by
  refine runs_bind_congr (processMemoryCreate_spec H) ?_
  rintro p k₁ ⟨-, ⟨rfl, -⟩ | ⟨hp, d, hd0, H₁, hnew, -, -⟩⟩
  · rfl
  rw [if_neg hp, if_neg hp]
  -- the type is stored once more
  have hsame : k₁.setMem p (Function.update (k₁.mem p) procType processTypeProtected32) = k₁ := by
    rw [← hnew.type, Function.update_eq_self, Kernel.setMem, Function.update_eq_self]
  refine runs_bind_congr (Q := fun _ t => t = k₁) (runs_modify hsame) ?_
  rintro - t ht
  subst ht
  refine runs_bind_congr (processSlotAlloc_spec H₁) ?_
  rintro res k₂ (⟨rfl, rfl⟩ | ⟨slot, -, hslot, rfl, H₂, -, hm₂⟩)
  · rfl
  refine runs_bind_congr (Q := fun _ k₃ => k₃.mem p = Function.update (Function.update (t.mem p)
    procSlotIndex slot) procSlotBase (slotBase slot) ∧
      Holds k₃ O (T + {.dir d} + {.slot slot} + {.block p})) (runs_modify ⟨?_, ?_⟩) ?_
  · simp [Kernel.setMem, hm₂, slotBase]
  · rw [show T + {.dir d} + {.slot slot} + {.block p} =
      T + {.block p} + {.dir d} + {.slot slot} by abel]
    exact H₂.setMem _ _
  rintro - k₃ ⟨hm₃, H₃⟩
  refine runs_bind_congr (processCreateRandomLdt_stage hnew hslot hd0 hm₃ H₃) ?_
  rintro eax k₄ ⟨-, ⟨rfl, -⟩ | ⟨rfl, ldt, bitmap, i, H₄, S, hldt, hlp, hi, -⟩⟩
  · rfl
  rw [if_neg one_ne_zero, if_neg one_ne_zero]
  refine runs_bind_congr (processCreateTss_stage H₄ S hslot hd0 hldt hlp hi) ?_
  rintro b k₅ ⟨-, ⟨rfl, H₅, -⟩ | ⟨rfl, tss, Q⟩⟩
  · exact hd.undo ((H₅.heap_live p).mpr (Multiset.mem_add.mpr (Or.inr (block_mem_procItems _ _))))
  · exact hd.tail ((Q.items.heap_live p).mpr
      (Multiset.mem_add.mpr (Or.inr (block_mem_procItems _ _))))

theorem v86 (hd : DestroysLive destroy) (H : Holds k O T) :
    (v86ProcessCreateWith destroy).run k = v86ProcessCreate.run k := by
  refine runs_bind_congr (v86ProcessMemoryCreate_spec H) ?_
  rintro p k₁ ⟨-, ⟨rfl, -⟩ | ⟨hp, d, -, H₁, hnew⟩⟩
  · rfl
  rw [if_neg hp, if_neg hp]
  rw [add_right_comm] at H₁
  refine runs_bind_congr (v86ProcessCreateTss_spec H₁ (hnew.rest _ (by decide))
    (hnew.rest _ (by decide))) ?_
  rintro b k₂ ⟨-, ⟨rfl, H₂, -⟩ | ⟨rfl, tss, stack, i, H₂, -, -⟩⟩
  · exact hd.undo ((H₂.heap_live p).mpr (by simp))
  · exact hd.publish ((H₂.heap_live p).mpr (by simp))

/-- **`process_create` gives back only what it has allocated**: it runs in the
same way whatever `process_destroy` does to freed blocks. -/
theorem create (hd : DestroysLive destroy) (H : Holds k O T) (type : ℕ) :
    (processCreateWith destroy type).run k = (processCreate type).run k := by
  rw [processCreateWith, processCreate]
  split_ifs
  · exact hd.protected32 H
  · exact hd.v86 H
  · rfl

end DestroysLive

/-! ### Runs without a second teardown -/

/-- The invariant of a careful run with its faults. -/
theorem faultReach_inv {w₀ w : World} {F : ℕ → Prop} (h₀ : Booted w₀)
    (h : FaultReach Careful w₀ w F) : ∃ O B P, Inv w O B P ∧
      (w.k.sched.reapProcess = 0 ∨ F w.k.sched.reapProcess) := by
  induction h with
  | refl =>
    obtain ⟨O, B, H⟩ := booted_inv h₀
    exact ⟨O, B, 0, H, Or.inl (H.reap.resolve_right (Multiset.notMem_zero _))⟩
  | step _ ha hc he ih =>
    obtain ⟨O, B, P, H, hF⟩ := ih
    obtain ⟨O', P', H'⟩ := H.step ha hc he
    exact ⟨O', B, P', H', H.reap_faulted ha hc he hF⟩

/-! ### The process that awaits reaping -/

namespace Inv

variable {w : World} {O : ℕ → Prop} {B : Items} {P : Multiset ℕ}

/-- The kernel destroys the process that awaits reaping: its block is freed, and
it still awaits reaping. -/
theorem destroy_awaiting (H : Inv w O B P) (hz : w.k.sched.reapProcess ≠ 0) :
    ∃ w', (Op.destroy w.k.sched.reapProcess).exec w = some w' ∧
      w'.k.sched.reapProcess = w.k.sched.reapProcess ∧
      ¬w'.k.heap.Live w.k.sched.reapProcess := by
  have hC := H.complete _ (H.reap.resolve_left hz)
  obtain ⟨P', -, -, hsplit, hqueued⟩ := H.awaiting hz
  have hH := H.holds
  rw [hsplit] at hH
  obtain ⟨_, k', hrun, F, hH'⟩ := processDestroy_spec (Q := 0) (by rw [add_zero]; exact hH)
    hC.plain hC.sel_lt (Or.inr ⟨rfl, hqueued⟩)
  refine ⟨{ w with k := k' }, ?_, F.reap, fun hlive => ?_⟩
  · rw [Op.exec, World.call, hrun]
    rfl
  · have hdis := (Multiset.nodup_add.mp hH.nodup).2.2
    exact Multiset.disjoint_left.mp hdis ((hH'.heap_live _).mp hlive) (block_mem_procItems _ _)

/-- A step is careful exactly when the tick after it tears down a process that
is due. -/
theorem tick_due_iff (H : Inv w O B P) {F : ℕ → Prop} {op : Op} {w' : World} (ha : op.Allowed w)
    (hF : w.k.sched.reapProcess = 0 ∨ F w.k.sched.reapProcess) (he : op.exec w = some w') :
    (∀ image p, (Op.tick image).Destroys w' p →
      TornDown w' (op.faulted w w' F) (.tick image) p) ↔ Careful w op := by
  constructor
  · rintro hdue p rfl rfl
    have hz := ha.1.1
    obtain ⟨w₁, hexec, hreap, hfree⟩ := H.destroy_awaiting hz
    rw [he] at hexec
    obtain rfl := Option.some.inj hexec
    exact hfree (hdue (fun _ => 0) _ ⟨by rw [hreap]; exact hz, hreap.symm⟩).block
  · intro hc image p hd
    obtain ⟨O', P', H'⟩ := H.step ha hc he
    have htick : (Op.tick image).Allowed w' := trivial
    exact H'.tornDown htick (H.reap_faulted ha hc he hF) hd

/-- With a single process, the one that awaits reaping does not run. -/
theorem not_running_awaiting {p : ℕ} (H : Inv w O B (p ::ₘ 0)) (hp : w.k.sched.reapProcess = p) :
    ¬RunningTask w.k p := by
  intro hrun
  obtain ⟨q, hq, hqp, -⟩ := H.running_process hrun.1
  rw [hp] at hqp
  exact hqp (Multiset.mem_singleton.mp hq)

end Inv

/-- **Every process is torn down once.**  After boot and any run in which the
kernel never destroys the process that awaits reaping, `process_destroy` is
applied to a registered process whose block has not been freed, and in an
interrupt only to one that has faulted; `process_create` applies it only to
blocks that have not been freed; afterwards the process is registered no more.
The run can go on like this after a step exactly when the step does not
destroy the process that awaits reaping. -/
theorem torn_down_once {w₀ w : World} {F : ℕ → Prop} (h₀ : Booted w₀)
    (h : FaultReach Careful w₀ w F) {op : Op} (ha : op.Allowed w) :
    (∀ p, op.Destroys w p → TornDown w F op p) ∧
      (∀ type, op = .create type → ∀ destroy, DestroysLive destroy →
        (processCreateWith destroy type).run w.k = (processCreate type).run w.k) ∧
      ∀ w', op.exec w = some w' →
        (Careful w op → ∀ p, op.Destroys w p → ¬Live w'.k p) ∧
        ((∀ image p, (Op.tick image).Destroys w' p →
          TornDown w' (op.faulted w w' F) (.tick image) p) ↔ Careful w op) := by
  obtain ⟨O, B, P, H, hF⟩ := faultReach_inv h₀ h
  refine ⟨fun p hd => H.tornDown ha hF hd, fun type _ destroy hd => hd.create H.holds type,
    fun w' he => ⟨fun hc p hd => H.gone ha hc hd he, H.tick_due_iff ha hF he⟩⟩

/-- The first process can await reaping. -/
theorem exists_awaiting : ∃ w₀ w B p, Booted w₀ ∧
    Reach (fun w op => op.IsLifecycle ∧ Careful w op) w₀ w ∧
    Inv w (fun m => ¬Allocatable m) B (p ::ₘ 0) ∧ w.k.sched.reapProcess = p := by
  obtain ⟨w₀, w, B, p, h₀, h, H, hz, hrun, htype⟩ := exists_running (Or.inl rfl)
  have hlive : Live w.k p := H.live_iff.mpr (Multiset.mem_cons_self p 0)
  obtain ⟨w', P, -, hexec, H', hre, -, hT, -⟩ := H.fault_runs (fun _ => 0) hlive hrun htype
  obtain ⟨-, rfl⟩ := hre.resolve_right fun h => h.1 hz
  have hfault : (Op.fault fun _ => 0).Allowed w := ⟨p, hlive, hrun, htype⟩
  refine ⟨w₀, w', B, p, h₀, .step h hfault ⟨trivial, ?_⟩ hexec, H', hT.reap⟩
  intro p hop
  cases hop

/-- The tick after the fault of the first process tears it down. -/
theorem torn_down_once_first : ∃ w₀ w F p, Booted w₀ ∧ FaultReach Careful w₀ w F ∧
    (Op.tick fun _ => 0).Destroys w p ∧ TornDown w F (.tick fun _ => 0) p := by
  obtain ⟨w₀, w, B, p, h₀, h, H, rfl⟩ := exists_awaiting
  obtain ⟨F, hF⟩ := h.faults
  have hd : (Op.tick fun _ => 0).Destroys w w.k.sched.reapProcess :=
    ⟨H.ne_zero (Multiset.mem_cons_self _ _), rfl⟩
  have hF' := hF.mono fun _ _ h => h.2
  have htick : (Op.tick fun _ => 0).Allowed w := trivial
  exact ⟨w₀, w, F, _, h₀, hF', hd, (torn_down_once h₀ hF' htick).1 _ hd⟩

/-- **A process is torn down twice** when the kernel destroys it while it awaits
reaping. -/
theorem not_torn_down_once : ¬∀ w₀ w F op p, Booted w₀ →
    FaultReach (fun _ op => op.IsLifecycle) w₀ w F → op.Allowed w → op.IsLifecycle →
    op.Destroys w p → TornDown w F op p := by
  intro hall
  obtain ⟨w₀, w, B, p, h₀, h, H, rfl⟩ := exists_awaiting
  have hp : w.k.sched.reapProcess ∈ w.k.sched.reapProcess ::ₘ 0 := Multiset.mem_cons_self _ _
  have hz := H.ne_zero hp
  obtain ⟨w', hexec, hreap, hfree⟩ := H.destroy_awaiting hz
  have hallowed : (Op.destroy w.k.sched.reapProcess).Allowed w :=
    ⟨H.live_iff.mpr hp, H.not_running_awaiting rfl⟩
  -- the careful run, and then the teardown
  obtain ⟨F, hF⟩ := h.faults
  have hF := FaultReach.step (hF.mono fun _ _ h => h.1) hallowed trivial hexec
  have hdown := hall w₀ w' _ (.tick fun _ => 0) w.k.sched.reapProcess h₀ hF trivial trivial
    ⟨by rw [hreap]; exact hz, hreap.symm⟩
  exact hfree hdown.block

end VirtualKernel
