/-
The timer interrupt and the end of a faulting process.

The interrupt image switches tasks with a far jump to a TSS selector.  The
processor then saves the registers of the outgoing task in its TSS, moves the
busy mark between the two descriptors and loads the task register
(`taskSwitch`).  What is saved depends on what the task was doing: it is the
argument `image`.
-/
import VirtualKernel.Process

namespace VirtualKernel

open Lib

/-- The busy bit of a TSS descriptor. -/
def setBusy (busy : Bool) (desc : ℕ × ℕ) : ℕ × ℕ :=
  (desc.1, if desc.2.testBit 9 = busy then desc.2 else if busy then desc.2 + 2 ^ 9
    else desc.2 - 2 ^ 9)

/-- A hardware task switch to the TSS selector `sel`. -/
def taskSwitch (image : ℕ → ℕ) (sel : ℕ) (k : Kernel) : Kernel :=
  let tss := descriptorBase (k.gdt (k.tr / 8))
  let k := k.setMem tss fun o => if tssEip ≤ o ∧ o ≤ tssGs then image o else k.mem tss o
  let gdt := Function.update k.gdt (k.tr / 8) (setBusy false (k.gdt (k.tr / 8)))
  { k with gdt := Function.update gdt (sel / 8) (setBusy true (gdt (sel / 8))), tr := sel }

/-- `scheduler_reap_terminated`. -/
def schedulerReapTerminated : KM Unit := do
  let k ← get
  if k.sched.reapProcess = 0 then return ()
  else
    modify fun k => { k with sched := { k.sched with reapProcess := 0 } }
    processDestroy k.sched.reapProcess

/-- `scheduler_switch_next` with its task switch. -/
def kSchedulerSwitchNext (image : ℕ → ℕ) : KM Unit :=
  modify fun k =>
    let next := schedulerSwitchNext k.sched k.tr
    if next.2 = k.tr then { k with sched := next.1 }
    else taskSwitch image next.2 { k with sched := next.1 }

/-- The timer interrupt `int20_handler`. -/
def timerTick (image : ℕ → ℕ) : KM Unit := do
  schedulerReapTerminated
  kSchedulerSwitchNext image

/-- `exception_terminate_current` after the reaping: `true` when it switches to
another task, `false` on the halt path. -/
def terminateCurrent (image : ℕ → ℕ) : KM Bool :=
  modifyGet fun k =>
    let tss := descriptorBase (k.gdt (k.tr % 2 ^ 16 / 8))
    let esi := k.mem tss tssOwnerProcess
    if esi = 0 then (false, k)
    else
      let next := exceptionTerminateSwitch k.sched k.tr esi
      match next.2 with
      | none => (false, { k with sched := next.1 })
      | some sel => (true, taskSwitch image sel { k with sched := next.1 })

/-- `exception_terminate_current`. -/
def exceptionTerminateCurrent (image : ℕ → ℕ) : KM Bool := do
  schedulerReapTerminated
  terminateCurrent image

end VirtualKernel
