/-
Faults of user processes.

`exception_terminate_current` finds the process that has faulted through the
owner word behind the segment of the running task.  The two constructors put
that word at different offsets and the handler reads the one of protected
processes: it terminates these and switches to another task, and for a VM86
process it reads zero and halts the machine (`fault_terminates`,
`not_fault_terminates`).
-/
import VirtualKernel.CreateRuns

namespace VirtualKernel

open Lib

/-- **A faulting process is terminated and the system goes on** if and only if
it is a protected process.  After boot and any run in which the kernel never
destroys the process that awaits reaping, let `p` be the process whose task
runs.  Then `exception_terminate_current` removes it from the task table, leaves
it to be reaped and switches to another task of the table or to the kernel's,
exactly when its type is `PROCESS_TYPE_PROTECTED32`. -/
theorem fault_terminates {w₀ w : World} (h₀ : Booted w₀) (h : Reach Careful w₀ w) {p : ℕ}
    (hp : Live w.k p) (hrun : RunningTask w.k p) (image : ℕ → ℕ) :
    (∃ k', (exceptionTerminateCurrent image).run w.k = some (true, k') ∧ Terminated w.k p k') ↔
      w.k.mem p procType = processTypeProtected32 := by
  obtain ⟨O, B, P, H⟩ := reach_inv h₀ h
  constructor
  · rintro ⟨k', hk, -⟩
    by_contra htype
    obtain ⟨k'', hhalt⟩ := H.fault_halts image hp hrun htype
    rw [hk] at hhalt
    obtain ⟨hb, -⟩ := Prod.mk.inj (Option.some.inj hhalt)
    cases hb
  · intro htype
    obtain ⟨w', -, hk, -, -, -, -, hT, -⟩ := H.fault_runs image hp hrun htype
    exact ⟨w'.k, hk, hT⟩

/-- The first process there is, a protected one. -/
theorem fault_terminates_first : ∃ w₀ w p, Booted w₀ ∧ Reach Careful w₀ w ∧ Live w.k p ∧
    RunningTask w.k p ∧ ∃ k', (exceptionTerminateCurrent fun _ => 0).run w.k = some (true, k') ∧
      Terminated w.k p k' := by
  obtain ⟨w₀, w, B, p, h₀, h, H, -, hrun, htype⟩ := exists_running (Or.inl rfl)
  have hlive : Live w.k p := H.live_iff.mpr (Multiset.mem_cons_self p 0)
  have h' : Reach Careful w₀ w := h.mono fun _ _ h => h.2
  exact ⟨w₀, w, p, h₀, h', hlive, hrun, (fault_terminates h₀ h' hlive hrun fun _ => 0).mpr htype⟩

/-- The fault of the first process halts the machine when it is a VM86
process. -/
theorem not_fault_terminates : ¬∀ w₀ w p image, Booted w₀ → Reach Careful w₀ w → Live w.k p →
    RunningTask w.k p →
    (w.k.mem p procType = processTypeProtected32 ∨ w.k.mem p procType = processTypeV86) →
    ∃ k', (exceptionTerminateCurrent image).run w.k = some (true, k') ∧ Terminated w.k p k' := by
  intro hall
  obtain ⟨w₀, w, B, p, h₀, h, H, -, hrun, htype⟩ := exists_running (Or.inr rfl)
  have hlive : Live w.k p := H.live_iff.mpr (Multiset.mem_cons_self p 0)
  obtain ⟨k', hk, -⟩ := hall w₀ w p (fun _ => 0) h₀ (h.mono fun _ _ h => h.2) hlive hrun
    (Or.inr htype)
  obtain ⟨k'', hhalt⟩ := H.fault_halts (fun _ => 0) hlive hrun (by rw [htype]; decide)
  rw [hk] at hhalt
  obtain ⟨hb, -⟩ := Prod.mk.inj (Option.some.inj hhalt)
  cases hb

end VirtualKernel
