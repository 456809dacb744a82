/-
The PS/2 keyboard driver.

The interrupt handler of ring 0 puts the bytes of the keyboard into a ring of
256 slots and counts those it has to drop; the ring-2 service decodes the ring
into a table of the keys that are down.  Bytes and counters are natural numbers,
with the reductions of 32-bit words where the source can wrap.
-/
import VirtualKernel.Lib.Word
import VirtualKernel.Lib.Ring

namespace VirtualKernel

open Lib

abbrev keyboardQueueSize : ℕ := 256
abbrev keyboardQueueMask : ℕ := 255
abbrev keyboardQueryKey : ℕ := 0
abbrev keyboardQueryAny : ℕ := 1
abbrev keyboardProcessInput : ℕ := 2

/-- `struct keyboard_shared`. -/
structure KeyboardShared where
  lock : ℕ
  head : ℕ
  tail : ℕ
  dropped : ℕ
  lastCpl : ℕ
  calls : ℕ
  observedDropped : ℕ
  extended : ℕ
  pauseRemaining : ℕ
  downCount : ℕ
  down : ℕ → ℕ
  bytes : ℕ → ℕ

/-- The page as `keyboard_driver_initialize` clears it. -/
def KeyboardShared.zero : KeyboardShared := ⟨0, 0, 0, 0, 0, 0, 0, 0, 0, 0, fun _ => 0, fun _ => 0⟩

/-- The position after `i` in the ring. -/
def keyboardNext (i : ℕ) : ℕ := (i + 1) % 2 ^ 32 &&& keyboardQueueMask

/-! ### Ring 0 -/

/-- What `ps2_keyboard_interrupt` does with the status byte: nothing, count a
loss, or queue the byte. -/
def ps2KeyboardInterrupt (queue : KeyboardShared) (status scancode : ℕ) : KeyboardShared :=
  if status &&& 0x01 = 0 then queue
  else if status &&& 0x20 ≠ 0 then queue
  else if status &&& 0xC0 ≠ 0 then { queue with dropped := (queue.dropped + 1) % 2 ^ 32 }
  else if keyboardNext queue.head = queue.tail then
    { queue with dropped := (queue.dropped + 1) % 2 ^ 32 }
  else
    { queue with
      bytes := Function.update queue.bytes queue.head scancode
      head := keyboardNext queue.head }

/-! ### Ring 2 -/

/-- The end of `keyboard_decode_byte`: a key goes down or up. -/
def keyboardSetKey (state : KeyboardShared) (key : ℕ) (pressed : Bool) : KeyboardShared :=
  if key = 0 ∨ key = 0x7F then state
  else if pressed ∧ state.down key = 0 then
    { state with
      down := Function.update state.down key 1
      downCount := (state.downCount + 1) % 2 ^ 32 }
  else if ¬pressed ∧ state.down key ≠ 0 then
    { state with
      down := Function.update state.down key 0
      downCount := sub32 state.downCount 1 }
  else state

/-- `keyboard_decode_byte`. -/
def keyboardDecodeByte (state : KeyboardShared) (byte : ℕ) : KeyboardShared :=
  if state.pauseRemaining ≠ 0 then { state with pauseRemaining := state.pauseRemaining - 1 }
  else if byte = 0xE1 then { state with pauseRemaining := 5, extended := 0 }
  else if byte = 0xE0 then { state with extended := 1 }
  else
    let key := byte &&& 0x7F
    let pressed := decide (byte &&& 0x80 = 0)
    if state.extended ≠ 0 then
      let state := { state with extended := 0 }
      -- the fake Shift codes around Print Screen and the keypad
      if key = 0x2A ∨ key = 0x36 then state else keyboardSetKey state (key + 128) pressed
    else keyboardSetKey state key pressed

/-- The loop of `keyboard_process_queue`. -/
def keyboardDecodeLoop : ℕ → KeyboardShared → KeyboardShared
  | 0, state => state
  | remaining + 1, state =>
    if state.tail = state.head then state
    else
      let byte := state.bytes state.tail
      let state := { state with tail := keyboardNext state.tail }
      keyboardDecodeLoop remaining (keyboardDecodeByte state byte)

/-- What `keyboard_process_queue` does after a loss. -/
def keyboardFlush (state : KeyboardShared) : KeyboardShared :=
  { state with
    observedDropped := state.dropped
    down := fun index => if index < 256 then 0 else state.down index
    downCount := 0
    extended := 0
    pauseRemaining := 0
    tail := state.head }

/-- `keyboard_process_queue`. -/
def keyboardProcessQueue (state : KeyboardShared) : KeyboardShared :=
  keyboardDecodeLoop keyboardQueueSize
    (if state.observedDropped ≠ state.dropped then keyboardFlush state else state)

/-- `keyboard_driver_service` in a call that nobody preempts: `none` is the
endless wait for a lock that is taken. -/
def keyboardDriverService (state : KeyboardShared) (cs operation key : ℕ) :
    Option (ℕ × KeyboardShared) :=
  if state.lock ≠ 0 then none
  else
    let state := keyboardProcessQueue
      { state with lock := 1, lastCpl := cs &&& 3, calls := (state.calls + 1) % 2 ^ 32 }
    let result :=
      if operation = keyboardQueryKey ∧ key < 256 then state.down key
      else if operation = keyboardQueryAny then (if state.downCount ≠ 0 then 1 else 0)
      else if operation = keyboardProcessInput then 0
      else 0xFFFFFFFF
    some (result, { state with lock := 0 })

end VirtualKernel
