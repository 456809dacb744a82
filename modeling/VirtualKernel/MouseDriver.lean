/-
The USB mouse driver between the host controllers and its readers.

Ring 0 receives reports and puts them into two rings: one of raw packets in the
page shared with ring 2, from which `mouse_process_request` answers the
processes, and one of motions that only the kernel sees, from which
`mouse_cursor_service` moves the cursor.  Bytes are `UInt8`, counters are
32-bit words, the rings are arrays with wrapping indices as in the source.
-/
import VirtualKernel.Lib.Word
import VirtualKernel.Lib.Ring

namespace VirtualKernel

open Lib

abbrev mouseQueueSize : ℕ := 32
abbrev mouseCursorQueueSize : ℕ := 64
abbrev mouseReportBytes : ℕ := 64
abbrev mouseControllerCount : ℕ := 4
abbrev i915CursorBatch : ℕ := 64

abbrev mouseReadEvent : ℕ := 0
abbrev mouseGetButtons : ℕ := 1
abbrev mouseGetDevices : ℕ := 2
abbrev mouseEventValid : ℕ := 0x80000000
abbrev mouseEventLost : ℕ := 0x40000000
abbrev mouseBadRequest : ℕ := 0x10000000

/-- The conversion of a byte to `int8_t`. -/
def int8 (byte : ℕ) : ℤ := if byte % 256 < 128 then (byte % 256 : ℕ) else (byte % 256 : ℕ) - 256

/-! ### Events for processes -/

/-- `struct mouse_packet`. -/
structure MousePacket where
  controller : ℕ
  length : ℕ
  data : ℕ → ℕ

/-- `struct mouse_shared`, without the fields of `mouse_driver_service`. -/
structure MouseShared where
  head : ℕ
  tail : ℕ
  dropped : ℕ
  connected : ℕ
  decoded : ℕ
  malformed : ℕ
  observedDropped : ℕ
  buttons : ℕ → ℕ
  packets : ℕ → MousePacket

/-- The position after `i` in the ring of packets. -/
def mouseNext (i : ℕ) : ℕ := (i + 1) % 2 ^ 32 &&& (mouseQueueSize - 1)

/-- `mouse_queue_report`. -/
def mouseQueueReport (state : MouseShared) (controller : ℕ) (data : ℕ → UInt8) (length : ℕ) :
    MouseShared :=
  if mouseControllerCount ≤ controller ∨ mouseReportBytes < length then state
  else if mouseNext state.head = state.tail then
    { state with dropped := (state.dropped + 1) % 2 ^ 32 }
  else
    let old := state.packets state.head
    let packet : MousePacket :=
      ⟨controller, length, fun b => if b < length then (data b).toNat else old.data b⟩
    { state with packets := Function.update state.packets state.head packet
                 head := mouseNext state.head }

/-- The word that `MOUSE_READ_EVENT` returns for a report. -/
def mouseEvent (id buttons dx dy : ℕ) : ℕ :=
  mouseEventValid ||| id <<< 24 ||| dy <<< 16 ||| dx <<< 8 ||| buttons

/-- The loop of `MOUSE_READ_EVENT`. -/
def mouseReadLoop : ℕ → MouseShared → ℕ × MouseShared
  | 0, state => (0, state)
  | remaining + 1, state =>
    if state.tail = state.head then (0, state)
    else
      let packet := state.packets state.tail
      let id := packet.controller
      let length := packet.length
      let buttons := packet.data 0 &&& 7
      let dx := packet.data 1
      let dy := packet.data 2
      let state := { state with tail := mouseNext state.tail }
      if mouseControllerCount ≤ id ∨ length < 3 ∨ mouseReportBytes < length then
        mouseReadLoop remaining { state with malformed := (state.malformed + 1) % 2 ^ 32 }
      else if ¬state.connected.testBit id then mouseReadLoop remaining state
      else
        (mouseEvent id buttons dx dy,
          { state with buttons := Function.update state.buttons id buttons
                       decoded := (state.decoded + 1) % 2 ^ 32 })

/-- Forget the buttons of the controllers that satisfy `gone`. -/
def mouseClearButtons (gone : ℕ → Bool) (state : MouseShared) : MouseShared :=
  (List.range mouseControllerCount).foldl (fun s id =>
    if gone id then { s with buttons := Function.update s.buttons id 0 } else s) state

/-- `mouse_process_request`. -/
def mouseProcessRequest (state : MouseShared) (operation : ℕ) : ℕ × MouseShared :=
  if mouseGetDevices < operation then (mouseBadRequest, state)
  else
    let state := mouseClearButtons (fun id => !state.connected.testBit id) state
    if state.observedDropped ≠ state.dropped then
      (mouseEventLost, mouseClearButtons (fun _ => true)
        { state with observedDropped := state.dropped, tail := state.head })
    else if operation = mouseGetDevices then (state.connected, state)
    else if operation = mouseGetButtons then
      ((List.range mouseControllerCount).foldl (fun b id => b ||| state.buttons id) 0, state)
    else mouseReadLoop mouseQueueSize state

/-! The macros of `UserServices.h`. -/

def userMouseButtons (event : ℕ) : ℕ := event &&& 7
def userMouseDx (event : ℕ) : ℤ := int8 (event >>> 8)
def userMouseDy (event : ℕ) : ℤ := int8 (event >>> 16)
def userMouseController (event : ℕ) : ℕ := event >>> 24 &&& 3

/-! ### Motions for the cursor -/

/-- `struct mouse_cursor_packet`; `255` marks a cancelled packet. -/
structure MouseCursorPacket where
  dx : ℤ
  dy : ℤ
  controller : ℕ

/-- `struct mouse_cursor_queue`. -/
structure MouseCursorQueue where
  head : ℕ
  tail : ℕ
  dropped : ℕ
  peakPending : ℕ
  saturatedReports : ℕ
  flushes : ℕ
  retryCount : ℕ
  packets : ℕ → MouseCursorPacket

/-- The position after `i` in the ring of motions. -/
def mouseCursorNext (i : ℕ) : ℕ := (i + 1) % 2 ^ 32 &&& (mouseCursorQueueSize - 1)

/-- `mouse_cursor_enqueue`. -/
def mouseCursorEnqueue (queue : MouseCursorQueue) (controller : ℕ) (data : ℕ → UInt8)
    (length : ℕ) : MouseCursorQueue :=
  if mouseControllerCount ≤ controller ∨ length < 3 ∨ mouseReportBytes < length ∨
      data 1 = 0 ∧ data 2 = 0 then queue
  else
    let next := mouseCursorNext queue.head
    if next = queue.tail then { queue with dropped := (queue.dropped + 1) % 2 ^ 32 }
    else
      let pending := sub32 next queue.tail &&& (mouseCursorQueueSize - 1)
      let saturated := data 1 = 0x7F ∨ data 1 = 0x80 ∨ data 2 = 0x7F ∨ data 2 = 0x80
      { queue with
        packets := Function.update queue.packets queue.head
          ⟨int8 (data 1).toNat, int8 (data 2).toNat, controller⟩
        head := next
        peakPending := if pending > queue.peakPending then pending else queue.peakPending
        saturatedReports :=
          if saturated then (queue.saturatedReports + 1) % 2 ^ 32 else queue.saturatedReports }

/-- The loop of `mouse_cursor_cancel` from position `i`; `fuel` bounds the
turns that a ring of 64 slots allows. -/
def mouseCursorCancelLoop (controller : ℕ) : ℕ → ℕ → MouseCursorQueue → MouseCursorQueue
  | 0, _, queue => queue
  | fuel + 1, i, queue =>
    if i = queue.head then queue
    else
      let packet := queue.packets i
      mouseCursorCancelLoop controller fuel (mouseCursorNext i)
        (if packet.controller = controller then
          { queue with packets := Function.update queue.packets i { packet with controller := 255 } }
        else queue)

/-- `mouse_cursor_cancel`. -/
def mouseCursorCancel (queue : MouseCursorQueue) (controller : ℕ) : MouseCursorQueue :=
  mouseCursorCancelLoop controller mouseCursorQueueSize queue.tail queue

/-- The batch that `mouse_cursor_drain` collects in at most `scans` turns: the
new tail and the motions of connected controllers. -/
def mouseCursorBatch (queue : MouseCursorQueue) (connected : ℕ) :
    ℕ → ℕ → List (ℤ × ℤ) → ℕ × List (ℤ × ℤ)
  | 0, tail, motions => (tail, motions)
  | scans + 1, tail, motions =>
    if tail = queue.head then (tail, motions)
    else
      let packet := queue.packets tail
      mouseCursorBatch queue connected scans (mouseCursorNext tail)
        (if packet.controller < mouseControllerCount ∧ connected.testBit packet.controller then
          motions ++ [(packet.dx, packet.dy)]
        else motions)

/-- `mouse_cursor_drain`; `submit` works on a state of its own. -/
def mouseCursorDrain {σ : Type} (queue : MouseCursorQueue) (connected : ℕ)
    (submit : List (ℤ × ℤ) → σ → ℕ × σ) (s : σ) : ℕ × MouseCursorQueue × σ :=
  let batch := mouseCursorBatch queue connected i915CursorBatch queue.tail []
  let tail := batch.1
  let motions := batch.2
  if motions.length = 0 then (0, { queue with tail := tail }, s)
  else
    let answer := submit motions s
    if answer.1 = 0 then (0, { queue with retryCount := (queue.retryCount + 1) % 2 ^ 32 }, answer.2)
    else
      (motions.length,
        { queue with flushes := (queue.flushes + 1) % 2 ^ 32, tail := tail }, answer.2)

/-! ### Reports from the host -/

/-- What the host reports: `USB_REPORT_CONNECTED`, `USB_REPORT_DATA`,
`USB_REPORT_DISCONNECTED`. -/
inductive UsbReport
  | connected
  | data (bytes : ℕ → UInt8) (length : ℕ)
  | disconnected

/-- The two queues of the driver. -/
structure MouseDriver where
  shared : MouseShared
  cursor : MouseCursorQueue

/-- `mouse_receive`. -/
def mouseReceive (d : MouseDriver) (controller : ℕ) (event : UsbReport) : MouseDriver :=
  if mouseControllerCount ≤ controller then d
  else
    match event with
    | .connected =>
      { d with shared := { d.shared with connected := d.shared.connected ||| 1 <<< controller } }
    | .disconnected =>
      { shared :=
          { d.shared with
            connected := d.shared.connected &&& (2 ^ 32 - 1 - 1 <<< controller)
            dropped := (d.shared.dropped + 1) % 2 ^ 32 }
        cursor := mouseCursorCancel d.cursor controller }
    | .data bytes length =>
      { shared := mouseQueueReport d.shared controller bytes length
        cursor := mouseCursorEnqueue d.cursor controller bytes length }

/-- The state that `mouse_driver_initialize` leaves. -/
def mouseDriverInitialize : MouseDriver where
  shared := ⟨0, 0, 0, 0, 0, 0, 0, fun _ => 0, fun _ => ⟨0, 0, fun _ => 0⟩⟩
  cursor := ⟨0, 0, 0, 0, 0, 0, 0, fun _ => ⟨0, 0, 0⟩⟩

end VirtualKernel
