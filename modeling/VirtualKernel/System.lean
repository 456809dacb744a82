/-
The running system: the kernel after boot, called from everywhere.

A `World` is the kernel together with what its clients hold: payload pointers
of the kernel heap and physical pages.  `Op` lists the calls and the
interrupts, `Op.exec` runs one of them, `Op.Allowed` is what every caller keeps
to: heap pointers are freed once and by their holder, a page is handed to a
process with the owner bit only by its holder, calls about processes name
processes of the process table, and the running task is not destroyed.

`Booted` are the states in which `kernel_main` has initialised the drivers.
-/
import VirtualKernel.SchedulerRuns
import VirtualKernel.Operations

namespace VirtualKernel

open Lib

/-- The kernel and what its clients hold. -/
structure World where
  k : Kernel
  held : List ℕ
  pages : List ℕ

/-- The process `p` stands in the process table. -/
def Live (k : Kernel) (p : ℕ) : Prop := p ≠ 0 ∧ ∃ i < processMaxCount, k.processTable i = p

/-- The page directory `pd` belongs to a live process. -/
def LiveDir (k : Kernel) (pd : ℕ) : Prop := ∃ p, Live k p ∧ k.mem p procPageDir = pd

/-- Calls of the kernel and interrupts. -/
inductive Op
  | create (type : ℕ)
  | destroy (p : ℕ)
  | prepare (p source size : ℕ) (image : ℕ → ℕ)
  | heapGrow (p : ℕ)
  | heapAlloc (size : ℕ)
  | heapFree (ptr : ℕ)
  | tick (image : ℕ → ℕ)
  | fault (image : ℕ → ℕ)
  | allocPage
  | freePage (n : ℕ)
  | mapUser (pd virt phys flags : ℕ)
  | unmap (pd virt : ℕ)
  | storageMap (physical : ℕ)
  | driverWork (mem : ℕ → ℕ)

/-- What every caller keeps to. -/
def Op.Allowed (w : World) : Op → Prop
  | .create _ => True
  | .destroy p => Live w.k p ∧ ¬RunningTask w.k p
  | .prepare p _ _ _ => Live w.k p
  | .heapGrow p => Live w.k p
  | .heapAlloc _ => True
  | .heapFree ptr => ptr = 0 ∨ ptr ∈ w.held
  | .tick _ => True
  | .fault _ => ∃ p, Live w.k p ∧ RunningTask w.k p ∧ w.k.mem p procType = processTypeProtected32
  | .allocPage => True
  | .freePage n => n ∈ w.pages
  | .mapUser pd _ phys flags => LiveDir w.k pd ∧
      (flags.testBit 9 = true → ∃ n ∈ w.pages, phys = n * pageSize)
  | .unmap pd virt => (LiveDir w.k pd ∨ pd = pageDirBase) ∧ virt < 2 ^ 32
  | .storageMap _ => w.k.drivers.storageInitialized ≠ 0
  | .driverWork _ => True

/-- Run a program of the kernel and note what the client holds afterwards. -/
def World.call {α : Type} (w : World) (m : KM α) (held pages : α → List ℕ) : Option World :=
  (m.run w.k).map fun x => { k := x.2, held := held x.1, pages := pages x.1 }

/-- One call or interrupt. -/
def Op.exec (w : World) : Op → Option World
  | .create type => w.call (processCreate type) (fun _ => w.held) fun _ => w.pages
  | .destroy p => w.call (processDestroy p) (fun _ => w.held) fun _ => w.pages
  | .prepare p source size image =>
    w.call (processPrepareTestTask p source size image) (fun _ => w.held) fun _ => w.pages
  | .heapGrow p => w.call (processHeapGrow p) (fun _ => w.held) fun _ => w.pages
  | .heapAlloc size =>
    w.call (kHeapAlloc size) (fun eax => if eax = 0 then w.held else eax :: w.held) fun _ => w.pages
  | .heapFree ptr => w.call (kHeapFree ptr) (fun _ => w.held.erase ptr) fun _ => w.pages
  | .tick image => w.call (timerTick image) (fun _ => w.held) fun _ => w.pages
  | .fault image => w.call (exceptionTerminateCurrent image) (fun _ => w.held) fun _ => w.pages
  | .allocPage => w.call (onRam pmmAllocPage) (fun _ => w.held) fun eax =>
      if eax = 0 then w.pages else eax / pageSize :: w.pages
  | .freePage n => w.call (onRam fun r => ((), pmmFreePage (n * pageSize) r)) (fun _ => w.held)
      fun _ => w.pages.erase n
  | .mapUser pd virt phys flags => w.call (onRam (mapUserPage pd virt phys flags))
      (fun _ => w.held) fun done =>
        if done ∧ flags.testBit 9 then w.pages.erase (phys / pageSize) else w.pages
  | .unmap pd virt => w.call (onRam (unmapPage pd virt)) (fun _ => w.held) fun _ => w.pages
  | .storageMap physical =>
    w.call (storageMapMmioWindow physical) (fun _ => w.held) fun _ => w.pages
  | .driverWork mem =>
    some { w with k := { w.k with drivers := { w.k.drivers with mem := mem } } }

/-- The worlds that the calls in `ok` lead to. -/
inductive Reach (ok : World → Op → Prop) (w₀ : World) : World → Prop
  | refl : Reach ok w₀ w₀
  | step {w w' : World} {op : Op} : Reach ok w₀ w → op.Allowed w → ok w op → op.exec w = some w' →
      Reach ok w₀ w'

/-- **The rule for invariants of the system.** -/
theorem Reach.invariant {ok : World → Op → Prop} {w₀ w : World} {I : World → Prop}
    (h : Reach ok w₀ w) (h₀ : I w₀)
    (hstep : ∀ w w' op, I w → op.Allowed w → ok w op → op.exec w = some w' → I w') : I w := by
  induction h with
  | refl => exact h₀
  | step _ ha ho he ih => exact hstep _ _ _ ih ha ho he

theorem Reach.mono {ok ok' : World → Op → Prop} {w₀ w : World} (h : Reach ok w₀ w)
    (hok : ∀ w op, ok w op → ok' w op) : Reach ok' w₀ w := by
  induction h with
  | refl => exact .refl
  | step _ ha hc he ih => exact .step ih ha (hok _ _ hc) he

/-! ### The drivers -/

/-- The windows into which `kernel_main` and the drivers map pages: `70000000h`
to `73000000h` and the aliases of the storage and USB controllers. -/
def DriverWindow (virt : ℕ) : Prop :=
  0x70000000 ≤ virt ∧ virt < 0x73000000 ∨ 0x80C00000 ≤ virt ∧ virt < 0x81000000

/-- What the initialisers of the drivers do, in any order: they allocate and
free heap blocks and pages, keep pages for themselves, map their windows, take
descriptors, publish their words. -/
inductive DriverStep : World → World → Prop
  | heapAlloc {w w'} (size : ℕ) (h : (Op.heapAlloc size).exec w = some w') : DriverStep w w'
  | heapFree {w w'} (ptr : ℕ) (hp : ptr = 0 ∨ ptr ∈ w.held)
      (h : (Op.heapFree ptr).exec w = some w') : DriverStep w w'
  | allocPage {w w'} (h : Op.allocPage.exec w = some w') : DriverStep w w'
  | freePage {w w'} (n : ℕ) (hn : n ∈ w.pages) (h : (Op.freePage n).exec w = some w') :
      DriverStep w w'
  | mapPage {w w'} (virt phys flags : ℕ) (hv : DriverWindow virt)
      (h : w.call (onRam (mapPagePool virt phys flags)) (fun _ => w.held) (fun _ => w.pages) = some w') :
      DriverStep w w'
  | descriptor {w w'} (desc : ℕ × ℕ)
      (h : w.call (gdtCreateDescriptor desc) (fun _ => w.held) (fun _ => w.pages) = some w') :
      DriverStep w w'
  | storage {w w'}
      (h : w.call storageInitialize (fun _ => w.held) (fun _ => w.pages) = some w') :
      DriverStep w w'
  | publish {w} (d : Drivers) (hs : d.storageInitialized = w.k.drivers.storageInitialized) :
      DriverStep w { w with k := { w.k with drivers := d } }

/-- The kernel has come through `kernel_high_entry`, and any number of steps of
the drivers' initialisers have been made. -/
inductive Booted : World → Prop
  | entry {cpu : Cpu} {k₀ k : Kernel} (h₀ : AtEntry k₀)
      (h : (kernelHighEntry cpu).run k₀ = some (true, k)) : Booted ⟨k, [], []⟩
  | driver {w w' : World} (hw : Booted w) (h : DriverStep w w') : Booted w'

end VirtualKernel
