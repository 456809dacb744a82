/-
The Intel 915 graphics driver.

The state that the kernel, the ring-1 driver and the assembly share lies at
`71008000h`; its fields are named here by their addresses.  The device is
unknown: every read of a register, of the status page or of the frame buffer
takes its value from `reads`, an arbitrary sequence of answers.  Writes go to
the driver window and are all that is kept of them.
-/
import VirtualKernel.Lib.Word
import VirtualKernel.Lib.Runs
import Mathlib.Logic.Function.Basic

namespace VirtualKernel

open Lib

/-! ### `struct intel915_shared` -/

/-- The driver window: the shared state, the status page, the ring, the cursor image, the
list of pages and the registers of the device. -/
abbrev i915Base : ℕ := 0x71000000
abbrev i915Shared : ℕ := i915Base + 0x8000
abbrev i915Hws : ℕ := i915Base + 0x9000
abbrev i915Ring : ℕ := i915Base + 0xA000
abbrev i915Cursor : ℕ := i915Base + 0x10000
abbrev i915PageList : ℕ := i915Base + 0x14000
abbrev i915Mmio : ℕ := i915Base + 0x400000

/-- The process that may use the screen, by its TSS selector; 0 is nobody. -/
abbrev ownerTssSelector : ℕ := i915Shared
abbrev requestCount : ℕ := i915Shared + 0x04
/-- How far the driver has come, of `enum intel915_status`. -/
abbrev i915Status : ℕ := i915Shared + 0x14
abbrev i915Stage : ℕ := i915Shared + 0x18
abbrev observedCs : ℕ := i915Shared + 0x1C
/-- The size of the screen in pixels. -/
abbrev i915Width : ℕ := i915Shared + 0x38
abbrev i915Height : ℕ := i915Shared + 0x3C
abbrev i915Pitch : ℕ := i915Shared + 0x40
abbrev framebufferBytes : ℕ := i915Shared + 0x44
abbrev framebufferGtt : ℕ := i915Shared + 0x48
abbrev ringGtt : ℕ := i915Shared + 0x4C
abbrev hwsPhysical : ℕ := i915Shared + 0x50
abbrev ringPhysical : ℕ := i915Shared + 0x54
abbrev i915Pipe : ℕ := i915Shared + 0x58
abbrev commandBytes : ℕ := i915Shared + 0x5C
/-- The command ring: where the device reads, and where the driver writes. -/
abbrev ringHead : ℕ := i915Shared + 0x60
abbrev ringTail : ℕ := i915Shared + 0x64
abbrev i915Completion : ℕ := i915Shared + 0x68
abbrev pgtblControl : ℕ := i915Shared + 0x6C
/-- The display registers as the firmware left them, for the way back to text. -/
abbrev oldVgaControl : ℕ := i915Shared + 0x70
abbrev oldPlaneA : ℕ := i915Shared + 0x74
abbrev oldPlaneB : ℕ := i915Shared + 0x78
abbrev oldPlaneBaseA : ℕ := i915Shared + 0x7C
abbrev oldPlaneBaseB : ℕ := i915Shared + 0x80
/-- The lock that the ring-1 service and the cursor path of the kernel take. -/
abbrev i915BusyWord : ℕ := i915Shared + 0x84
/-- The image of the cursor, and its position. -/
abbrev cursorPhysical : ℕ := i915Shared + 0x88
abbrev cursorX : ℕ := i915Shared + 0x8C
abbrev cursorY : ℕ := i915Shared + 0x90
abbrev cursorEnabled : ℕ := i915Shared + 0x94
abbrev cursorUpdates : ℕ := i915Shared + 0x98

/-! The values of `enum intel915_status` that the driver returns. -/

abbrev i915Ready : ℕ := 1
abbrev i915Drawn : ℕ := 2
abbrev i915EngineBusy : ℕ := 0x15
abbrev i915CommandOverflow : ℕ := 0x19
abbrev i915GpuTimeout : ℕ := 0x1A
abbrev i915BadPixels : ℕ := 0x1B
abbrev i915WrongRing : ℕ := 0x1C
abbrev i915AlreadyStarted : ℕ := 0x1D
abbrev i915AccessDenied : ℕ := 0x1E
abbrev i915Busy : ℕ := 0x1F
abbrev i915BadRequest : ℕ := 0x20
abbrev i915CursorFailed : ℕ := 0x21

/-- The operations of the service. -/
abbrev intel915InitializeDesktop : ℕ := 0
abbrev intel915GetScreenSize : ℕ := 1

/-- The cursor registers of pipe A; those of pipe B are `cursorStride` further on. -/
abbrev cursorControlReg : ℕ := 0x70080
abbrev cursorBaseReg : ℕ := 0x70084
abbrev cursorPositionReg : ℕ := 0x70088
abbrev cursorStride : ℕ := 0x40

/-! ### The kernel's cursor path -/

/-- `intel915_move_axis`; `delta` is an `int32_t`. -/
def intel915MoveAxis (position : ℕ) (delta : ℤ) (limit : ℕ) : ℕ :=
  if limit = 0 ∨ 2048 < limit then 0
  else
    let position := if limit ≤ position then limit - 1 else position
    let word := (delta % 2 ^ 32).toNat
    if delta < 0 then
      let distance := sub32 0 word
      if position < distance then 0 else position - distance
    else if limit - position ≤ word then limit - 1 else position + word

/-- The checks of `intel915_cursor_flush` once it has the lock. -/
def CursorReady (mem : ℕ → ℕ) : Prop :=
  mem i915Status = i915Drawn ∧ mem cursorEnabled ≠ 0 ∧ mem i915Pipe ≤ 1 ∧
    mem cursorPhysical ≠ 0 ∧ mem cursorPhysical &&& 4095 = 0 ∧
    mem i915Width ≠ 0 ∧ mem i915Width ≤ 2048 ∧ mem i915Height ≠ 0 ∧ mem i915Height ≤ 2048

instance (mem : ℕ → ℕ) : Decidable (CursorReady mem) := by unfold CursorReady; infer_instance

/-- Publish a new position: the registers first, then the shared state. -/
def setCursor (x y : ℕ) (mem : ℕ → ℕ) : ℕ → ℕ :=
  let offset := mem i915Pipe * cursorStride
  let mem := Function.update mem (i915Mmio + cursorPositionReg + offset) (y <<< 16 ||| x)
  let mem := Function.update mem (i915Mmio + cursorBaseReg + offset) (mem cursorPhysical)
  let mem := Function.update mem cursorX x
  let mem := Function.update mem cursorY y
  Function.update mem cursorUpdates ((mem cursorUpdates + 1) % 2 ^ 32)

/-- `intel915_cursor_flush` on the shared state of the driver. -/
def intel915CursorFlush (motions : List (ℤ × ℤ)) (mem : ℕ → ℕ) : ℕ × (ℕ → ℕ) :=
  if motions.length = 0 ∨ 64 < motions.length then (0, mem)
  else if mem i915BusyWord ≠ 0 then (0, Function.update mem i915BusyWord 1)
  else
    let mem := Function.update mem i915BusyWord 1
    if CursorReady mem then
      let x := motions.foldl (fun x m => intel915MoveAxis x m.1 (mem i915Width)) (mem cursorX)
      let y := motions.foldl (fun y m => intel915MoveAxis y m.2 (mem i915Height)) (mem cursorY)
      let mem := if x ≠ mem cursorX ∨ y ≠ mem cursorY then setCursor x y mem else mem
      (1, Function.update mem i915BusyWord 0)
    else (0, Function.update mem i915BusyWord 0)

/-- `intel915_update_cursor`; `panicState` says that the driver has been
initialised. -/
def intel915UpdateCursor (panicState : Bool) (motions : List (ℤ × ℤ)) (mem : ℕ → ℕ) :
    ℕ × (ℕ → ℕ) :=
  if panicState then intel915CursorFlush motions mem else (0, mem)

/-- `intel915_claim_desktop`: the first claim wins, and stays until it is revoked. -/
def intel915ClaimDesktop (panicState : Bool) (tssSelector : ℕ) (mem : ℕ → ℕ) : ℕ × (ℕ → ℕ) :=
  if panicState = false ∨ mem i915Status ≠ i915Ready ∨ mem ownerTssSelector ≠ 0 ∨
      tssSelector = 0 ∨ 0xFFF8 < tssSelector ∨ tssSelector % 8 ≠ 0 then (0, mem)
  else (1, Function.update mem ownerTssSelector tssSelector)

end VirtualKernel
