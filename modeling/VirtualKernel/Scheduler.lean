/-
The scheduler words and the routines that read and write them.

The kernel image (`scheduler_init`, `scheduler_add_process`,
`scheduler_remove_process`) and the interrupt image (`scheduler_switch_next`,
the search of `exception_terminate_current`) share one block of words at
`SCHEDULER_TASK_COUNT`.  `Sched` is that block.  A hardware task switch is
described by the selector that the task register holds afterwards.

A process enters the scheduler only through the selector in its object, so the
routines take the pointer `p` and the word `sel` at `p + PROC_TSS_SELECTOR`.
-/
import VirtualKernel.Lib.Word
import Mathlib.Logic.Function.Basic

namespace VirtualKernel

open Lib

abbrev maxTasks : ℕ := 100

/-- `0FFFFFFFFh`: the index of the kernel task, and "none" elsewhere. -/
abbrev noIndex : ℕ := 0xFFFFFFFF

/-- The words shared by the kernel and the interrupt handlers. -/
structure Sched where
  taskCount : ℕ
  currentIndex : ℕ
  farPtrSelector : ℕ
  kernelTssSelector : ℕ
  reapProcess : ℕ
  taskTable : ℕ → ℕ

/-- `scheduler_init`. -/
def schedulerInit : Sched where
  taskCount := 0
  currentIndex := noIndex
  farPtrSelector := 0
  kernelTssSelector := 0
  reapProcess := 0
  taskTable := fun _ => 0

/-- `scheduler_add_process`: the first entry that is empty, unless an equal
entry comes before it. -/
def schedulerAddProcess (p sel : ℕ) (s : Sched) : ℕ × Sched :=
  let dx := sel % 2 ^ 16
  if p = 0 ∨ dx = 0 ∨ maxTasks ≤ s.taskCount then (0, s)
  else
    match (List.range maxTasks).find? fun i => s.taskTable i = dx ∨ s.taskTable i = 0 with
    | none => (0, s)
    | some i =>
      if s.taskTable i = dx then (0, s)
      else (1, { s with taskTable := Function.update s.taskTable i dx
                        taskCount := add32 s.taskCount 1 })

/-- `scheduler_remove_process`: 0 for the running task and for a null object. -/
def schedulerRemoveProcess (p sel : ℕ) (s : Sched) : ℕ × Sched :=
  let dx := sel % 2 ^ 16
  if p = 0 then (0, s)
  else if dx = 0 then (1, s)
  else
    match (List.range maxTasks).find? fun i => s.taskTable i = dx with
    | none => (1, s)
    | some i =>
      if i = s.currentIndex then (0, s)
      else
        let s := { s with taskTable := Function.update s.taskTable i 0 }
        if s.taskCount = 0 then (1, s)
        else
          let s := { s with taskCount := s.taskCount - 1 }
          if s.taskCount = 0 then (1, { s with currentIndex := noIndex }) else (1, s)

/-- The scan of `scheduler_switch_next`: `ecx` counts the empty entries that
may still be passed.  The result is the index and the selector found. -/
def schedulerSwitchNextScan (s : Sched) : ℕ → ℕ → Option (ℕ × ℕ)
  | 0, _ => none
  | ecx + 1, eax =>
    if add32 eax 1 < maxTasks then
      if s.taskTable (add32 eax 1) ≠ 0 then some (add32 eax 1, s.taskTable (add32 eax 1))
      else schedulerSwitchNextScan s ecx (add32 eax 1)
    else if s.kernelTssSelector % 2 ^ 16 ≠ 0 then
      some (noIndex, s.kernelTssSelector % 2 ^ 16)
    else if s.taskTable 0 ≠ 0 then some (0, s.taskTable 0)
    else schedulerSwitchNextScan s ecx 0

/-- `scheduler_switch_next` with `tr` in the task register: the new words and
the task register after the switch. -/
def schedulerSwitchNext (s : Sched) (tr : ℕ) : Sched × ℕ :=
  if s.taskCount = 0 then (s, tr)
  else
    match schedulerSwitchNextScan s maxTasks s.currentIndex with
    | none => (s, tr)
    | some (eax, dx) =>
      let s := { s with currentIndex := eax }
      if tr = dx then (s, tr) else ({ s with farPtrSelector := dx }, dx)

/-- The scan of `exception_terminate_current` for another runnable entry. -/
def exceptionTerminateScan (s : Sched) : ℕ → ℕ → Option ℕ
  | 0, _ => none
  | ecx + 1, eax =>
    let eax := if add32 eax 1 < maxTasks then add32 eax 1 else 0
    if s.taskTable eax ≠ 0 then some eax else exceptionTerminateScan s ecx eax

/-- `exception_terminate_current` after the owner `esi` of the running TSS has
been read; `none` is the halt path. -/
def exceptionTerminateSwitch (s : Sched) (tr esi : ℕ) : Sched × Option ℕ :=
  let s := { s with reapProcess := esi }
  let eax := s.currentIndex
  if maxTasks ≤ eax then (s, none)
  else if s.taskTable eax ≠ tr then (s, none)
  else
    let s := { s with taskTable := Function.update s.taskTable eax 0 }
    let s := if s.taskCount = 0 then s else { s with taskCount := s.taskCount - 1 }
    match exceptionTerminateScan s maxTasks eax with
    | some i =>
      let dx := s.taskTable i
      ({ s with currentIndex := i, farPtrSelector := dx }, some dx)
    | none =>
      let s := { s with currentIndex := noIndex }
      let dx := s.kernelTssSelector % 2 ^ 16
      if dx = 0 then (s, none) else ({ s with farPtrSelector := dx }, some dx)

end VirtualKernel
