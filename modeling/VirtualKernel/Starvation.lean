/-
No process starves.

The task table is a ring of a hundred entries with the kernel task at its end.
While a process waits, whatever is created, destroyed or terminated meanwhile,
its entry stays where it is, and every switch of the task brings the current
index nearer to it.

* **`schedulerSwitchNext_nearer`**, **`exceptionTerminateScan_nearer`** — the two
  searches for the next task do not pass a waiting entry;
* **`Inv.waiting_step`** — what a step of the system does to the distance;
* **`waits_bounded`** — a process waits for fewer than a hundred switches.
-/
import VirtualKernel.Objects
import VirtualKernel.CreateRuns

namespace VirtualKernel

open Lib

/-! ### The distance to an entry -/

/-- The number of places from the index `c` to the entry `j` of the ring. -/
def ringDistance (c j : ℕ) : ℕ :=
  if c < maxTasks then if c < j then j - c else j + (maxTasks + 1) - c else j + 1

/-- The kernel is before the first entry. -/
theorem ringDistance_noIndex (j : ℕ) : ringDistance noIndex j = j + 1 := if_neg (by decide)

theorem ringDistance_of_lt {c : ℕ} (hc : c < maxTasks) (j : ℕ) :
    ringDistance c j = if c < j then j - c else j + (maxTasks + 1) - c := if_pos hc

theorem ringDistance_pos (c j : ℕ) : 0 < ringDistance c j := by
  unfold ringDistance
  split_ifs <;> omega

theorem ringDistance_le {c j : ℕ} (hj : j < maxTasks) (hne : c ≠ j) : ringDistance c j ≤ maxTasks := by
  unfold ringDistance
  split_ifs <;> omega

/-- An index of the table, or the kernel's. -/
def ValidIndex (c : ℕ) : Prop := c < maxTasks ∨ c = noIndex

/-- The scan of `scheduler_switch_next` finds something and does not pass the
entry `j`. -/
theorem schedulerSwitchNextScan_nearer {s : Sched} {j : ℕ} (hj : j < maxTasks)
    (hnz : s.taskTable j ≠ 0) (hk : s.kernelTssSelector % 2 ^ 16 ≠ 0) : ∀ {ecx eax : ℕ},
    ValidIndex eax → (eax = noIndex → j < ecx) →
    (eax < maxTasks → maxTasks ≤ ecx + eax ∨ eax < j ∧ j ≤ ecx + eax) →
    ∃ i dx, schedulerSwitchNextScan s ecx eax = some (i, dx) ∧
      (i = j ∨ ringDistance i j < ringDistance eax j) := by
  intro ecx
  induction ecx with
  | zero =>
    intro eax hv h1 h2
    rcases hv with hv | rfl
    · have := h2 hv
      omega
    · exact absurd (h1 rfl) (Nat.not_lt_zero j)
  | succ ecx ih =>
    intro eax hv h1 h2
    have hmax : maxTasks = 100 := rfl
    rw [schedulerSwitchNextScan]
    by_cases hlt : add32 eax 1 < maxTasks
    · -- one entry further, or from the kernel to the first entry
      have hnext : add32 eax 1 = j ∨ ringDistance (add32 eax 1) j < ringDistance eax j := by
        rcases hv with hv | rfl
        · rw [add32_of_lt (by omega)] at hlt ⊢
          rw [ringDistance_of_lt hlt, ringDistance_of_lt hv]
          split_ifs <;> omega
        · rw [show add32 noIndex 1 = 0 from rfl, ringDistance_noIndex,
            ringDistance_of_lt (Nat.zero_lt_succ 99)]
          split_ifs <;> omega
      rw [if_pos hlt]
      by_cases hz : s.taskTable (add32 eax 1) = 0
      · rw [if_neg (not_not.mpr hz)]
        have hnej : add32 eax 1 ≠ j := fun h => hnz (by rw [← h]; exact hz)
        obtain ⟨i, dx, hscan, hi⟩ := @ih (add32 eax 1) (Or.inl hlt) (fun h => by
          rw [h] at hlt
          exact absurd hlt (by decide)) fun _ => by
            rcases hv with hv | rfl
            · have := h2 hv
              rw [add32_of_lt (by omega)] at hnej hlt ⊢
              omega
            · have := h1 rfl
              rw [show add32 noIndex 1 = 0 from rfl] at hnej ⊢
              omega
        have := hnext.resolve_left hnej
        exact ⟨i, dx, hscan, hi.imp_right fun h => h.trans this⟩
      · rw [if_pos hz]
        exact ⟨_, _, rfl, hnext⟩
    · -- the last entry: the kernel is next
      have heax : eax = 99 := by
        rcases hv with hv | rfl
        · rw [add32_of_lt (by omega)] at hlt
          omega
        · exact absurd (by decide) hlt
      subst heax
      rw [if_neg hlt, if_pos hk]
      refine ⟨_, _, rfl, Or.inr ?_⟩
      rw [ringDistance_noIndex, ringDistance_of_lt (by omega)]
      split_ifs <;> omega

/-- **A timer switch** goes to the entry `j` or comes nearer to it. -/
theorem schedulerSwitchNext_nearer {s : Sched} {tr j : ℕ} (H : SchedOk s tr) (hj : j < maxTasks)
    (hnz : s.taskTable j ≠ 0) : (schedulerSwitchNext s tr).1.currentIndex = j ∨
      ringDistance (schedulerSwitchNext s tr).1.currentIndex j < ringDistance s.currentIndex j := by
  have hcount : s.taskCount ≠ 0 := by
    rw [H.count]
    exact (List.length_pos_of_mem (Sched.mem_runnable.mpr ⟨hj, hnz⟩)).ne'
  have hvalid : ValidIndex s.currentIndex := H.current.elim (fun h => Or.inr h.1) fun h => Or.inl h.1
  obtain ⟨i, dx, hscan, hi⟩ := schedulerSwitchNextScan_nearer hj hnz
    (by rw [H.kernel_mod]; exact H.kernel.1.ne') hvalid (fun _ => hj) fun _ => Or.inl (by omega)
  have hindex : (schedulerSwitchNext s tr).1.currentIndex = i := by
    simp only [schedulerSwitchNext, if_neg hcount, hscan]
    split_ifs <;> rfl
  rw [hindex]
  exact hi

/-- The scan of `exception_terminate_current` finds something and does not pass
the entry `j`. -/
theorem exceptionTerminateScan_nearer {s : Sched} {j : ℕ} (hj : j < maxTasks)
    (hnz : s.taskTable j ≠ 0) : ∀ {ecx eax : ℕ}, eax < maxTasks → eax ≠ j →
    (if eax < j then j - eax else j + maxTasks - eax) ≤ ecx →
    ∃ i, exceptionTerminateScan s ecx eax = some i ∧
      (i = j ∨ ringDistance i j < ringDistance eax j) := by
  intro ecx
  induction ecx with
  | zero =>
    intro eax hlt hne hfuel
    split_ifs at hfuel <;> omega
  | succ ecx ih =>
    intro eax hlt hne hfuel
    have hmax : maxTasks = 100 := rfl
    have hadd : add32 eax 1 = eax + 1 := add32_of_lt (by omega)
    rw [exceptionTerminateScan, hadd]
    set next := if eax + 1 < maxTasks then eax + 1 else 0 with hnext
    have hnlt : next < maxTasks := by
      rw [hnext]
      split_ifs <;> omega
    have hnear : next = j ∨ ringDistance next j < ringDistance eax j := by
      rw [ringDistance_of_lt hnlt, ringDistance_of_lt hlt, hnext]
      split_ifs <;> omega
    by_cases hz : s.taskTable next = 0
    · rw [if_neg (not_not.mpr hz)]
      have hnej : next ≠ j := fun h => hnz (by rw [← h]; exact hz)
      obtain ⟨i, hscan, hi⟩ := ih hnlt hnej (by
        rw [hnext] at hnej ⊢
        split_ifs at * <;> omega)
      exact ⟨i, hscan, hi.imp_right fun h => h.trans (hnear.resolve_left hnej)⟩
    · rw [if_pos hz]
      exact ⟨next, rfl, hnear⟩

/-- **A fault** of the running task goes to the entry `j` or comes nearer to
it. -/
theorem exceptionTerminateSwitch_nearer {s : Sched} {tr esi j : ℕ} (H : SchedOk s tr)
    (hcur : s.currentIndex < maxTasks) (hj : j < maxTasks) (hnz : s.taskTable j ≠ 0)
    (hne : s.currentIndex ≠ j) : (exceptionTerminateSwitch s tr esi).1.currentIndex = j ∨
      ringDistance (exceptionTerminateSwitch s tr esi).1.currentIndex j <
        ringDistance s.currentIndex j := by
  have htr : s.taskTable s.currentIndex = tr := by
    rcases H.current with h | h
    · rw [h.1] at hcur
      exact absurd hcur (by decide)
    · exact h.2.1
  unfold exceptionTerminateSwitch
  dsimp only
  rw [if_neg (not_le.mpr hcur), if_neg (not_not.mpr htr)]
  -- the entry of the terminated task is cleared first
  have hkeep : Function.update s.taskTable s.currentIndex 0 j ≠ 0 := by
    rw [Function.update_of_ne hne.symm]
    exact hnz
  have hcount : s.taskCount ≠ 0 := by
    rw [H.count]
    exact (List.length_pos_of_mem (Sched.mem_runnable.mpr ⟨hj, hnz⟩)).ne'
  rw [if_neg hcount]
  obtain ⟨i, hscan, hi⟩ := @exceptionTerminateScan_nearer { s with
    reapProcess := esi, taskTable := Function.update s.taskTable s.currentIndex 0,
    taskCount := s.taskCount - 1 } j hj hkeep maxTasks _ hcur hne (by split_ifs <;> omega)
  rw [hscan]
  exact hi

/-! ### Waiting processes -/

/-- The process `p` is registered, does not await reaping, and does not run. -/
structure Waiting (k : Kernel) (p : ℕ) : Prop where
  live : Live k p
  queued : p ≠ k.sched.reapProcess
  idle : ¬RunningTask k p

/-- The entry `j` of the task table is that of the process `p`. -/
def EntryOf (k : Kernel) (p j : ℕ) : Prop :=
  j < maxTasks ∧ k.sched.taskTable j = k.mem p procTssSelector

/-- A step that switches to another task. -/
def Op.switches : Op → ℕ
  | .tick _ => 1
  | .fault _ => 1
  | _ => 0

namespace Inv

variable {w w' : World} {O : ℕ → Prop} {B : Items} {P : Multiset ℕ} {p j : ℕ}

/-- A waiting process has an entry, which is not the current one. -/
theorem waiting_entry (H : Inv w O B P) (hp : Waiting w.k p) :
    (∃ j, EntryOf w.k p j) ∧ ∀ j, EntryOf w.k p j → w.k.sched.currentIndex ≠ j ∧
      w.k.sched.taskTable j ≠ 0 := by
  have hpP := H.live_iff.mp hp.live
  have hC := H.complete p hpP
  have htask : Item.task (w.k.mem p procTssSelector) ∈
      B + heldItems w.held + P.bind (liveItems w.k) := by
    refine Multiset.mem_add.mpr (Or.inr (Multiset.mem_bind.mpr ⟨p, hpP, ?_⟩))
    rw [liveItems, if_neg hp.queued, queuedItems]
    exact Multiset.mem_add.mpr (Or.inr (Multiset.mem_singleton_self _))
  refine ⟨(H.holds.task.task _ hC.sel).mpr htask, fun j hj => ⟨fun hcur => ?_, ?_⟩⟩
  · -- the current entry is that of the running task
    have hidx : w.k.sched.currentIndex ≠ noIndex := by
      rw [hcur]
      have := hj.1
      simp only [maxTasks] at this
      simp only [noIndex]
      omega
    obtain ⟨-, htr, -⟩ := H.holds.sched.current.resolve_left fun h => hidx h.1
    refine hp.idle ⟨hidx, ?_⟩
    rw [Nat.mod_eq_of_lt hC.sel_lt, ← htr, hcur, hj.2]
  · rw [hj.2]
    exact hC.sel

/-- The entry of a process that waits before and after a call stays, and so does
the current index. -/
theorem call_entry (H : Inv w O B P) {op : Op} (ha : op.Allowed w) (hc : Careful w op)
    (hcall : op.IsCall) (he : op.exec w = some w') (hp : Waiting w.k p) (hp' : Waiting w'.k p)
    (hj : EntryOf w.k p j) : EntryOf w'.k p j ∧
      w'.k.sched.currentIndex = w.k.sched.currentIndex := by
  have hpP := H.live_iff.mp hp.live
  have hsel : w'.k.mem p procTssSelector = w.k.mem p procTssSelector := by
    rcases H.step_objects ha hc he hp'.live with ⟨-, hsame⟩ | ⟨hnot, -⟩
    · exact hsame _ (by decide)
    · exact absurd hp.live hnot
  -- a frame that covers the items of `p`
  have hframe : ∀ {T : Items}, Frame T w.k w'.k → (∀ x ∈ liveItems w.k p, x ∈ T) →
      EntryOf w'.k p j ∧ w'.k.sched.currentIndex = w.k.sched.currentIndex := fun F hT => by
    refine ⟨⟨hj.1, ?_⟩, F.current⟩
    rw [hsel, ← hj.2]
    refine F.task j hj.1 (hT _ ?_)
    rw [hj.2, liveItems, if_neg hp.queued, queuedItems]
    exact Multiset.mem_add.mpr (Or.inr (Multiset.mem_singleton_self _))
  have hmem : ∀ {Q : Multiset ℕ}, p ∈ Q → ∀ x ∈ liveItems w.k p, x ∈ Q.bind (liveItems w.k) :=
    fun hQ x hx => Multiset.mem_bind.mpr ⟨p, hQ, hx⟩
  cases op with
  | create type =>
    exact hframe (H.create_frame he) fun x hx => Multiset.mem_add.mpr (Or.inr (hmem hpP x hx))
  | destroy q =>
    obtain ⟨P', hP, F⟩ := H.destroy_frame ha.1 ha.2 (hc q rfl) he
    obtain ⟨P'', hP', H'⟩ := H.destroy ha.1 ha.2 (hc q rfl) he
    rw [hP] at hP'
    obtain rfl := (Multiset.cons_inj_right q).mp hP'
    exact hframe F fun x hx =>
      Multiset.mem_add.mpr (Or.inr (hmem (H'.live_iff.mp hp'.live) x hx))
  | heapAlloc size =>
    exact hframe (H.heapAlloc_frame he) fun x hx => Multiset.mem_add.mpr (Or.inr (hmem hpP x hx))
  | heapFree ptr => exact hframe (H.heapFree_frame ha he) (hmem hpP)
  | tick image => exact absurd hcall id
  | fault image => exact absurd hcall id
  | _ =>
    have S := H.mapping_same ha trivial he
    rw [EntryOf, S.sched, hsel]
    exact ⟨hj, rfl⟩

/-- A switch of the task keeps the entry of a waiting process and brings the
current index nearer to it. -/
theorem switch_entry (H : Inv w O B P) {op : Op} (ha : op.Allowed w) (hcall : ¬op.IsCall)
    (he : op.exec w = some w') (hp : Waiting w.k p) (hp' : Waiting w'.k p)
    (hj : EntryOf w.k p j) : EntryOf w'.k p j ∧
      ringDistance w'.k.sched.currentIndex j < ringDistance w.k.sched.currentIndex j := by
  obtain ⟨-, hentry⟩ := H.waiting_entry hp
  obtain ⟨hne, hnz⟩ := hentry j hj
  cases op with
  | tick image =>
    obtain ⟨P', H', -, -, -, hm⟩ := H.tick he
    obtain ⟨-, hentry'⟩ := H'.waiting_entry hp'
    obtain ⟨k₁, P₁, hr, H₁, -, -, -, htr, hcur, hker, htab, -⟩ := H.reapTerminated
    obtain ⟨k₂, hs, -, -, hsched, -⟩ := H₁.switchNext image
    have hrun : (timerTick image).run w.k = some ((), k₂) := run_bind_eq_some.mpr ⟨(), k₁, hr, hs⟩
    obtain ⟨⟨⟨⟩, k'⟩, hrun', rfl⟩ := Option.map_eq_some_iff.mp he
    obtain rfl : k₂ = k' := congrArg Prod.snd (Option.some.inj (hrun.symm.trans hrun'))
    have hnz₁ : k₁.sched.taskTable j ≠ 0 := by
      rw [htab j hj.1]
      exact hnz
    have htable := (schedulerSwitchNext_table k₁.sched k₁.tr).1
    have hj' : EntryOf k₂ p j := by
      refine ⟨hj.1, ?_⟩
      rw [hsched, htable, htab j hj.1, hj.2, hm p (H'.live_iff.mp hp'.live)]
    refine ⟨hj', ?_⟩
    have hnear := schedulerSwitchNext_nearer H₁.holds.sched hj.1 hnz₁
    dsimp only at hnear hcur
    rw [← hsched, hcur] at hnear
    exact hnear.resolve_left (hentry' j hj').1
  | fault image =>
    obtain ⟨q, hq, hrunning, htype⟩ := ha
    obtain ⟨P', H', -, hqP', -, -, hm⟩ := H.fault hq hrunning htype he
    obtain ⟨-, hentry'⟩ := H'.waiting_entry hp'
    obtain ⟨k₁, P₁, hr, H₁, hz, -, hqP, hrun₁, hm₁, hcur, hker, htab, -⟩ := H.reap_running hq hrunning
    obtain ⟨k₂, ht, H₂, hrp, htab₂, -⟩ := H₁.terminate image hqP hz hrun₁ (by
      change k₁.mem q procType = _
      rw [hm₁ q hqP]
      exact htype)
    have hrun : (exceptionTerminateCurrent image).run w.k = some (true, k₂) :=
      run_bind_eq_some.mpr ⟨(), k₁, hr, ht⟩
    obtain ⟨⟨a, k'⟩, hrun', rfl⟩ := Option.map_eq_some_iff.mp he
    obtain rfl : k₂ = k' := congrArg Prod.snd (Option.some.inj (hrun.symm.trans hrun'))
    have hlt : k₁.sched.currentIndex < maxTasks :=
      (H₁.holds.sched.current.resolve_left fun h => hrun₁.1 h.1).1
    have hne₁ : k₁.sched.currentIndex ≠ j := by
      rw [hcur]
      exact hne
    have hnz₁ : k₁.sched.taskTable j ≠ 0 := by
      rw [htab j hj.1]
      exact hnz
    have hj' : EntryOf k₂ p j := by
      refine ⟨hj.1, ?_⟩
      rw [htab₂, Function.update_of_ne hne₁.symm, hm p (H'.live_iff.mp hp'.live)]
      exact (htab j hj.1).trans hj.2
    refine ⟨hj', ?_⟩
    -- the words after the switch are those of the search
    have hsched : k₂.sched = (exceptionTerminateSwitch k₁.sched k₁.tr
        (k₁.mem (descriptorBase (k₁.gdt (k₁.tr % 2 ^ 16 / 8))) tssOwnerProcess)).1 := by
      have ht := Option.some.inj ht
      dsimp only at ht
      split_ifs at ht
      · cases ht
      · split at ht
        · cases ht
        · obtain ⟨-, rfl⟩ := Prod.mk.inj ht
          rfl
    have hnear := @exceptionTerminateSwitch_nearer _ _
      (k₁.mem (descriptorBase (k₁.gdt (k₁.tr % 2 ^ 16 / 8))) tssOwnerProcess) _
      H₁.holds.sched hlt hj.1 hnz₁ hne₁
    dsimp only at hnear
    rw [← hsched, hcur] at hnear
    exact hnear.resolve_left (hentry' j hj').1
  | _ => exact absurd trivial hcall

/-- **What a step does** to a process that waits before and after it. -/
theorem waiting_step (H : Inv w O B P) {op : Op} (ha : op.Allowed w) (hc : Careful w op)
    (he : op.exec w = some w') (hp : Waiting w.k p) (hp' : Waiting w'.k p) (hj : EntryOf w.k p j) :
    EntryOf w'.k p j ∧ op.switches + ringDistance w'.k.sched.currentIndex j ≤
      ringDistance w.k.sched.currentIndex j := by
  by_cases hcall : op.IsCall
  · obtain ⟨hj', hcur⟩ := H.call_entry ha hc hcall he hp hp' hj
    refine ⟨hj', ?_⟩
    rw [hcur]
    cases op with
    | tick image => exact absurd hcall id
    | fault image => exact absurd hcall id
    | _ => exact (Nat.zero_add _).le
  · obtain ⟨hj', hnear⟩ := H.switch_entry ha hcall he hp hp' hj
    refine ⟨hj', ?_⟩
    cases op with
    | tick image => exact (Nat.add_comm _ _).le.trans hnear
    | fault image => exact (Nat.add_comm _ _).le.trans hnear
    | _ => exact absurd trivial hcall

end Inv

/-! ### Bounded waiting -/

/-- A run in which the process `p` waits all the time from some world on, with
the number of switches since then. -/
inductive Waits (w₀ : World) (p : ℕ) : ℕ → World → Prop
  | start {w : World} (h : Reach Careful w₀ w) (hp : Waiting w.k p) : Waits w₀ p 0 w
  | step {n : ℕ} {w w' : World} {op : Op} : Waits w₀ p n w → op.Allowed w → Careful w op →
      op.exec w = some w' → Waiting w'.k p → Waits w₀ p (op.switches + n) w'

theorem Waits.reach {w₀ w : World} {p n : ℕ} (h : Waits w₀ p n w) :
    Reach Careful w₀ w ∧ Waiting w.k p := by
  induction h with
  | start h hp => exact ⟨h, hp⟩
  | step _ ha hc he hp ih => exact ⟨.step ih.1 ha hc he, hp⟩

/-- Along the run the entry of the process comes nearer with every switch. -/
theorem Waits.distance {w₀ w : World} {p n : ℕ} (h₀ : Booted w₀) (h : Waits w₀ p n w) :
    ∃ j, EntryOf w.k p j ∧ n + ringDistance w.k.sched.currentIndex j ≤ maxTasks := by
  induction h with
  | start h hp =>
    obtain ⟨O, B, P, H⟩ := reach_inv h₀ h
    obtain ⟨⟨j, hj⟩, hentry⟩ := H.waiting_entry hp
    refine ⟨j, hj, ?_⟩
    rw [Nat.zero_add]
    exact ringDistance_le hj.1 (hentry j hj).1
  | step hw ha hc he hp ih =>
    obtain ⟨j, hj, hle⟩ := ih
    obtain ⟨hreach, hp₀⟩ := hw.reach
    obtain ⟨O, B, P, H⟩ := reach_inv h₀ hreach
    obtain ⟨hj', hstep⟩ := H.waiting_step ha hc he hp₀ hp hj
    exact ⟨j, hj', by omega⟩

/-- **No process starves.**  After boot, from any world on, a registered process
that does not await reaping runs before a hundred switches of the task have been
made, whatever the kernel and the other processes do meanwhile: create and
destroy processes, allocate, map, or fault. -/
theorem waits_bounded {w₀ w : World} {p n : ℕ} (h₀ : Booted w₀) (h : Waits w₀ p n w) :
    n < maxTasks := by
  obtain ⟨j, hj, hle⟩ := h.distance h₀
  have := ringDistance_pos w.k.sched.currentIndex j
  omega

/-- Of two new processes one waits while the other has run once. -/
theorem exists_waits : ∃ w₀ w p, Booted w₀ ∧ Waits w₀ p 1 w := by
  obtain ⟨w₀, B, h₀, hheld, -, hB, H₀, room⟩ := exists_booted_room
  have hz₀ : w₀.k.sched.reapProcess = 0 := H₀.reap.resolve_right (Multiset.notMem_zero _)
  have hcur₀ : w₀.k.sched.currentIndex = noIndex := by
    by_contra hcur
    obtain ⟨q, hq, -⟩ := H₀.running_process hcur
    exact Multiset.notMem_zero q hq
  -- two processes are created
  obtain ⟨p, w₁, -, he₁, -, H₁, room₁, hheld₁, -⟩ := H₀.create_room (a := 7) (b := 9) (c := 3)
    (by decide) (by rw [hB, hheld]; decide) (room.mono (by decide) (by decide) (by decide))
  have F₁ := H₀.create_frame he₁
  obtain ⟨q, w₂, -, he₂, -, H₂, -⟩ := H₁.create_room (a := 0) (b := 0) (c := 0)
    (by rw [Multiset.card_cons]; decide) (by rw [hB, hheld₁, hheld]; decide) room₁
  have F₂ := H₁.create_frame he₂
  have hz₂ : w₂.k.sched.reapProcess = 0 := F₂.reap.trans (F₁.reap.trans hz₀)
  have hcur₂ : w₂.k.sched.currentIndex = noIndex := F₂.current.trans (F₁.current.trans hcur₀)
  have hcreate : ∀ w : World, (Op.create processTypeProtected32).Allowed w := fun _ => trivial
  have hreach : Reach Careful w₀ w₂ := .step (.step .refl (hcreate _) (fun _ h => by cases h) he₁)
    (hcreate _) (fun _ h => by cases h) he₂
  -- the first tick goes to one of them
  obtain ⟨w₃, r, he₃, H₃, hz₃, hm₃, hr, hrun, -⟩ := H₂.tick_dispatches (fun _ => 0) hz₂ hcur₂
    Multiset.cons_ne_zero
  have htick : (Op.tick fun _ => 0).Allowed w₂ := trivial
  have hpq : q ≠ p := by
    obtain ⟨P', hP, hnot, -⟩ := H₂.split (Multiset.mem_cons_self q _)
    obtain rfl := (Multiset.cons_inj_right q).mp hP
    exact fun h => hnot (Multiset.mem_singleton.mpr h)
  obtain ⟨s, hs, hsr⟩ : ∃ s ∈ q ::ₘ p ::ₘ 0, s ≠ r := by
    by_cases h : q = r
    · exact ⟨p, by simp, fun hp => hpq (h.trans hp.symm)⟩
    · exact ⟨q, Multiset.mem_cons_self _ _, h⟩
  have hwait₂ : Waiting w₂.k s := by
    refine ⟨H₂.live_iff.mpr hs, ?_, fun h => h.1 hcur₂⟩
    rw [hz₂]
    exact H₂.ne_zero hs
  have hwait₃ : Waiting w₃.k s := by
    refine ⟨H₃.live_iff.mpr hs, ?_, fun h => hsr (H₃.selector_inj hs hr ?_)⟩
    · rw [hz₃]
      exact H₃.ne_zero hs
    · have htr := h.2.trans hrun.2.symm
      rwa [Nat.mod_eq_of_lt (H₃.complete s hs).sel_lt, Nat.mod_eq_of_lt (H₃.complete r hr).sel_lt]
        at htr
  exact ⟨w₀, w₃, s, h₀, .step (.start hreach hwait₂) htick (fun _ h => by cases h) he₃ hwait₃⟩

/-- One switch is fewer than a hundred. -/
theorem waits_bounded_once : ∃ w₀ w p, Booted w₀ ∧ Waits w₀ p 1 w ∧ 1 < maxTasks := by
  obtain ⟨w₀, w, p, h₀, h⟩ := exists_waits
  exact ⟨w₀, w, p, h₀, h, waits_bounded h₀ h⟩

end VirtualKernel
