/-
The UHCI host controllers.

The hardware is unknown: every value that the driver reads from it (an I/O
register, the status word of a transfer descriptor, a byte that arrived by DMA,
the time-stamp counter) is the answer `hw t r` that it gives at time `t`, and
`t` counts the answers.  A wait that polls until a time-out is one answer, the
value that ends it.  The status word of the interrupt descriptor is in memory:
the controller can put any word there as long as it reads active (`readTd`).
`log` keeps what the driver writes to registers and descriptors, with marks for
what the mouse driver does, and `reported` the calls of `report_callback`;
`none` is a panic, after which nothing runs.
-/
import VirtualKernel.Lib.Runs
import VirtualKernel.Lib.Word
import VirtualKernel.MouseDriver

namespace VirtualKernel

open Lib

abbrev uhciControllerCount : ℕ := 4
abbrev uhciActive : ℕ := 1 <<< 23
abbrev uhciIoc : ℕ := 1 <<< 24
abbrev uhciErrors : ℕ := 0x00760000
abbrev uhciReportCount : ℕ := 16
abbrev uhciReportBytes : ℕ := 64
abbrev usbConfigurationMaxBytes : ℕ := 4096
abbrev usbRun : ℕ := 0xC1

/-! `enum uhci_status`, without the faults that `usb_uhci_initialize` alone sets. -/

abbrev uhciAbsent : ℕ := 0
abbrev uhciReady : ℕ := 1
abbrev uhciControllerError : ℕ := 4
abbrev uhciTransferError : ℕ := 5
abbrev uhciDisconnected : ℕ := 6

/-- What the driver reads: USBSTS, PORTSC, whether a controller halted in time,
the status words of its two transfer descriptors, the bytes of its two buffers,
its PCI command register, a redirection register of the I/O APIC and the
time-stamp counter. -/
inductive UsbReg
  | status (id : ℕ)
  | port (id port : ℕ)
  | halted (id : ℕ)
  | interruptTd (id : ℕ)
  | controlTd (id : ℕ)
  | interruptData (id i : ℕ)
  | controlData (id i : ℕ)
  | pciCommand (id : ℕ)
  | redirection (gsi : ℕ)
  | tsc

/-- The bits of an answer. -/
def UsbReg.width : UsbReg → ℕ
  | .status _ => 16
  | .port _ _ => 16
  | .halted _ => 1
  | .interruptTd _ => 32
  | .controlTd _ => 32
  | .interruptData _ _ => 8
  | .controlData _ _ => 8
  | .pciCommand _ => 16
  | .redirection _ => 32
  | .tsc => 32

/-- What the driver does.  First the writes: USBCMD, USBSTS, USBINTR, PORTSC, the
PCI command register, a redirection register, the two transfer descriptors, the
elements of the two queue heads (`true` for the descriptor, `false` for the end
of the list), the frame list (the report queue in every `interval`-th frame, 0
for none) and the bytes of the control buffer.  Then the marks: a stream starts
or ends on a port, its descriptor is first seen complete, a report is taken (and
queued if there is room) and returned from the queue, a probe of a port begins
and returns, the entry of a port is filled at boot, a scan reads a port, and it
forgets a stream or takes note of a change. -/
inductive UsbEvent
  | command (id value : ℕ)
  | status (id value : ℕ)
  | interruptEnable (id value : ℕ)
  | port (id port value : ℕ)
  | pciCommand (id value : ℕ)
  | redirection (gsi value : ℕ)
  | interruptToken (id token : ℕ)
  | interruptStatus (id word : ℕ)
  | controlTd (id pid address low toggle length : ℕ)
  | interruptQh (id : ℕ) (element : Bool)
  | controlQh (id : ℕ) (element : Bool)
  | frames (id interval : ℕ)
  | controlData (id : ℕ) (bytes : List ℕ)
  | started (id port : ℕ)
  | ended (id port : ℕ)
  | completed (id word : ℕ)
  | taken (id : ℕ) (queued : Bool) (bytes : List ℕ)
  | returned (id : ℕ) (bytes : List ℕ)
  | probe (id port : ℕ)
  | probed (id port : ℕ) (ok : Bool)
  | booted (id port connected generation : ℕ)
  | scan (id port connected generation : ℕ)
  | forgot (id port : ℕ)
  | changed (id port connected generation : ℕ)
deriving DecidableEq

/-- `struct uhci_controller_info`. -/
structure UhciInfo where
  ioBase : ℕ
  gsi : ℕ
  status : ℕ
  interrupts : ℕ
  lastStatus : ℕ
  portStatus : ℕ → ℕ
  reports : ℕ
  dropped : ℕ

/-- `struct uhci_report`. -/
structure UhciReport where
  length : ℕ
  data : ℕ → ℕ

/-- The bytes of a report. -/
def UhciReport.bytes (r : UhciReport) : List ℕ := (List.range r.length).map r.data

/-- `struct uhci_controller`; `frames` says that its schedule has been built. -/
structure UhciController where
  frames : Bool
  queue : ℕ → UhciReport
  producer : ℕ
  consumer : ℕ
  address : ℕ
  endpoint : ℕ
  lowSpeed : ℕ
  packet : ℕ
  toggle : ℕ
  active : Bool
  port : ℕ

/-- `struct usb_mouse_interface`. -/
structure UsbMouseInterface where
  configuration : ℕ
  interfaceNumber : ℕ
  endpoint : ℕ
  packet : ℕ
  interval : ℕ

/-- `struct usb_mouse_port`. -/
structure UsbMousePort where
  status : ℕ
  address : ℕ
  lowSpeed : ℕ
  vendor : ℕ
  product : ℕ
  interface : UsbMouseInterface
  scheduledInterval : ℕ

/-- One entry of `hotplug`. -/
structure Hotplug where
  generation : ℕ
  connected : ℕ
  attempted : ℕ

/-- The variables of `UsbHost.c` and `UsbMouse.c`, the answers of the hardware,
the status words of the interrupt descriptors, what the driver did and the
reports made so far. -/
structure Usb where
  hw : ℕ → UsbReg → ℕ
  time : ℕ
  routeMask : ℕ
  unclaimedInterrupts : ℕ
  unclaimedStreak : ℕ → ℕ
  td : ℕ → ℕ
  log : List UsbEvent
  ticksPerMs : ℕ
  hotplugTime : ℕ
  info : ℕ → UhciInfo
  controllers : ℕ → UhciController
  polls : ℕ
  pollCompletions : ℕ
  lastTd : ℕ → ℕ
  portGeneration : ℕ → ℕ → ℕ
  reported : List (ℕ × UsbReport)
  initialized : Bool
  mouseCount : ℕ
  bootMouseCount : ℕ
  mousePort : ℕ → ℕ → UsbMousePort
  hotplug : ℕ → ℕ → Hotplug
  configurationBuffer : ℕ → ℕ

/-- Programs of the USB drivers. -/
abbrev UsbM (α : Type) : Type := StateT Usb Option α

/-! ### Access to the state -/

/-- What the hardware answers now. -/
def Usb.answer (s : Usb) (r : UsbReg) : ℕ := s.hw s.time r % 2 ^ r.width

/-- Read from the hardware. -/
def usbIn (r : UsbReg) : UsbM ℕ := modifyGet fun s => (s.answer r, { s with time := s.time + 1 })

/-- Read the status word of the interrupt descriptor: the controller leaves it
alone unless it is active. -/
def readTd (id : ℕ) : UsbM ℕ :=
  modifyGet fun s =>
    let word := if s.td id &&& uhciActive = 0 then s.td id else s.answer (.interruptTd id)
    let seen := s.td id &&& uhciActive ≠ 0 ∧ word &&& uhciActive = 0
    (word, { s with
      time := s.time + 1
      td := Function.update s.td id word
      log := s.log ++ if seen then [.completed id word] else [] })

/-- Write to registers and descriptors, in this order. -/
def usbOut (events : List UsbEvent) : UsbM Unit :=
  modify fun s => { s with log := s.log ++ events }

/-- `out16` to a port register. -/
def outPort (id port value : ℕ) : UsbM Unit := usbOut [.port id port value]

/-- Write the status word of the interrupt descriptor. -/
def writeTd (id word : ℕ) : UsbM Unit :=
  modify fun s => { s with
    td := Function.update s.td id word
    log := s.log ++ [.interruptStatus id word] }

def modifyInfo (id : ℕ) (f : UhciInfo → UhciInfo) : UsbM Unit :=
  modify fun s => { s with info := Function.update s.info id (f (s.info id)) }

def modifyController (id : ℕ) (f : UhciController → UhciController) : UsbM Unit :=
  modify fun s => { s with controllers := Function.update s.controllers id (f (s.controllers id)) }

def setPortStatus (id port value : ℕ) : UsbM Unit :=
  modifyInfo id fun i => { i with portStatus := Function.update i.portStatus port value }

def setStatus (id status : ℕ) : UsbM Unit := modifyInfo id fun i => { i with status := status }

/-- `report_callback(id, event, ...)`. -/
def reportCallback (id : ℕ) (event : UsbReport) : UsbM Unit :=
  modify fun s => { s with reported := s.reported ++ [(id, event)] }

/-- The end of `stop` when the controller does not halt. -/
def kpanic {α : Type} : UsbM α := fun _ => none

/-! ### Words -/

/-- `uhci_token`. -/
def uhciToken (pid address endpoint toggle length : ℕ) : ℕ :=
  if pid ≠ 0x69 ∧ pid ≠ 0xE1 ∧ pid ≠ 0x2D ∨ 127 < address ∨ 15 < endpoint ∨ 1 < toggle ∨
      64 < length then 0xFFFFFFFF
  else pid ||| address <<< 8 ||| endpoint <<< 15 ||| toggle <<< 19 |||
    (sub32 length 1 &&& 0x7FF) <<< 21

/-- `uhci_interval`. -/
def uhciInterval (ms : ℕ) : ℕ := if ms = 0 ∨ 255 < ms then 0 else 2 ^ Nat.log2 ms

/-- `uhci_completed_length`. -/
def uhciCompletedLength (status requested : ℕ) : ℤ :=
  if status &&& uhciActive ≠ 0 then -2
  else if status &&& uhciErrors ≠ 0 then -1
  else
    let actual := ((status &&& 0x7FF) + 1) &&& 0x7FF
    if actual ≤ requested then actual else -1

/-- `uhci_port_update`. -/
def uhciPortUpdate (previous clear set : ℕ) : ℕ :=
  (previous &&& (2 ^ 32 - 1 - (0x080A ||| clear))) ||| set

/-! ### Streams -/

/-- `stop`. -/
def uhciStop (id : ℕ) : UsbM Unit := do
  usbOut [.command id 0]
  if (← usbIn (.halted id)) = 0 then
    usbOut [.interruptEnable id 0]
    kpanic
  else return ()

/-- The status word of a descriptor that waits for a report. -/
def armedWord (low : ℕ) : ℕ :=
  0x7FF ||| uhciActive ||| uhciIoc ||| 3 <<< 27 ||| 1 <<< 29 ||| low <<< 26

/-- `arm_interrupt`. -/
def armInterrupt (id : ℕ) : UsbM Unit := do
  let c := (← get).controllers id
  usbOut [.interruptToken id (uhciToken 0x69 c.address c.endpoint c.toggle c.packet)]
  writeTd id (armedWord c.lowSpeed)
  usbOut [.interruptQh id true]

/-- The copy of a report for `usb_uhci_read_report`. -/
def queueReport (id : ℕ) (report : UhciReport) : UsbM Unit := do
  let c := (← get).controllers id
  usbOut [.taken id (decide (sub32 c.producer c.consumer < uhciReportCount)) report.bytes]
  if sub32 c.producer c.consumer < uhciReportCount then
    modifyController id fun c => { c with
      queue := Function.update c.queue (c.producer &&& (uhciReportCount - 1)) report
      producer := (c.producer + 1) % 2 ^ 32 }
  else modifyInfo id fun i => { i with dropped := (i.dropped + 1) % 2 ^ 32 }

/-- The end of `service_controller`: a completed report of `length` bytes. -/
def serviceReport (id length : ℕ) (fromIrq : Bool) : UsbM Unit := do
  modify fun s => if fromIrq then s else
    { s with pollCompletions := (s.pollCompletions + 1) % 2 ^ 32 }
  modifyInfo id fun i => { i with reports := (i.reports + 1) % 2 ^ 32 }
  let s ← get
  let bytes := fun i => s.answer (.interruptData id i)
  reportCallback id (.data (fun i => UInt8.ofNat (bytes i)) length)
  queueReport id ⟨length, fun i => if i < length then bytes i else 0⟩
  modifyController id fun c => { c with toggle := c.toggle ^^^ 1 }
  armInterrupt id

/-- A stream ends in `service_controller`. -/
def endStream (id : ℕ) : UsbM Unit := do
  let c := (← get).controllers id
  usbOut (if c.active then [.ended id c.port] else [])
  modifyController id fun c => { c with active := false }
  reportCallback id .disconnected

/-- The part of `service_controller` behind the test for a stream. -/
def serviceStream (id usbsts : ℕ) (fromIrq : Bool) : UsbM Bool := do
  let c := (← get).controllers id
  let port ← usbIn (.port id c.port)
  setPortStatus id c.port port
  let td ← readTd id
  modify fun s => { s with lastTd := Function.update s.lastTd id td }
  if port &&& 5 ≠ 5 ∨ port &&& 2 ≠ 0 then
    setStatus id uhciDisconnected
    usbOut [.interruptQh id false]
    endStream id
    return true
  else if td &&& uhciActive ≠ 0 then return usbsts &&& 0x1F ≠ 0
  else if uhciCompletedLength td c.packet < 0 then
    setStatus id uhciTransferError
    usbOut [.interruptQh id false]
    endStream id
    return true
  else
    usbOut [.interruptQh id false]
    if ((← get).info id).status ≠ uhciReady then
      endStream id
      return true
    else
      serviceReport id (uhciCompletedLength td c.packet).toNat fromIrq
      return true

/-- Disable the interrupt of a controller in its PCI command register. -/
def pciDisableInterrupt (id : ℕ) : UsbM Unit := do
  let command ← usbIn (.pciCommand id)
  usbOut [.pciCommand id (command ||| 0x400)]

/-- `service_controller`. -/
def serviceController (id : ℕ) (fromIrq : Bool) : UsbM Bool := do
  let s ← get
  if (s.controllers id).frames = false ∨ (s.info id).status = uhciControllerError then return false
  else
    let status ← usbIn (.status id)
    modifyInfo id fun i => if status &&& 0x1F = 0 then i else
      { i with
        interrupts := if fromIrq then (i.interrupts + 1) % 2 ^ 32 else i.interrupts
        lastStatus := status }
    usbOut (if status &&& 0x1F = 0 then [] else [.status id (status &&& 0x1F)])
    if status &&& 0x18 ≠ 0 then
      usbOut [.interruptEnable id 0, .command id 0]
      pciDisableInterrupt id
      setStatus id uhciControllerError
      endStream id
      return true
    else if (s.controllers id).active = false then return status &&& 0x1F ≠ 0
    else serviceStream id status fromIrq

/-- The controllers below `id` on the line `gsi`: whether one of them asked for
the interrupt. -/
def interruptControllers (gsi : ℕ) : ℕ → UsbM Bool
  | 0 => return false
  | id + 1 => do
    let claimed ← interruptControllers gsi id
    if ((← get).info id).gsi = gsi then
      let asked ← serviceController id true
      return claimed || asked
    else return claimed

/-- The storm protection of `usb_host_interrupt`: mask the line `gsi`. -/
def maskRoute (gsi : ℕ) : UsbM Unit := do
  let redirection ← usbIn (.redirection gsi)
  usbOut [.redirection gsi (redirection ||| 0x10000)]
  modify fun s => { s with routeMask := s.routeMask &&& (2 ^ 32 - 1 - 1 <<< (gsi - 16)) }

/-- `usb_host_interrupt` for the line `gsi`. -/
def usbHostInterrupt (gsi : ℕ) : UsbM Unit := do
  let claimed ← interruptControllers gsi uhciControllerCount
  if claimed = true then
    modify fun s => { s with unclaimedStreak := Function.update s.unclaimedStreak (gsi - 16) 0 }
  else
    let streak := ((← get).unclaimedStreak (gsi - 16) + 1) % 2 ^ 32
    modify fun s =>
      { s with
        unclaimedInterrupts := (s.unclaimedInterrupts + 1) % 2 ^ 32
        unclaimedStreak := Function.update s.unclaimedStreak (gsi - 16) streak }
    if streak < 32 then return () else maskRoute gsi

/-- The readings of the ports at the end of a turn of `usb_host_poll`. -/
def pollPort (id port : ℕ) : UsbM Unit := do
  let value ← usbIn (.port id port)
  setPortStatus id port value
  modify fun s =>
    let count := (s.portGeneration id port + 1) % 2 ^ 32
    let generation := Function.update (s.portGeneration id) port count
    if value &&& 2 = 0 then s
    else { s with portGeneration := Function.update s.portGeneration id generation }
  if value &&& 0x080A = 0 then return ()
  else outPort id port ((uhciPortUpdate value 0 0 ||| (value &&& 0x080A)) % 2 ^ 16)

/-- The stop of a controller whose report is complete. -/
def pollPause (id : ℕ) : UsbM Bool := do
  if ((← get).controllers id).active = false then return false
  else if (← readTd id) &&& uhciActive = 0 then
    usbOut [.interruptEnable id 0]
    uhciStop id
    return true
  else return false

/-- The restart of a controller that has been stopped for its report. -/
def pollResume (id : ℕ) (paused : Bool) : UsbM Unit := do
  let c := (← get).controllers id
  usbOut (if paused && c.active then [.command id usbRun, .interruptEnable id 0x0D] else [])

/-- The recovery of a controller whose stream ended. -/
def pollRecover (id : ℕ) : UsbM Unit := do
  let status := ((← get).info id).status
  if status = uhciDisconnected ∨ status = uhciTransferError then
    usbOut [.interruptEnable id 0]
    uhciStop id
    usbOut [.controlQh id false, .interruptQh id false]
    writeTd id 0
    modifyController id fun c => { c with producer := 0, consumer := 0 }
    usbOut [.frames id 0]
    setStatus id uhciReady
    usbOut [.status id 0x1F, .command id usbRun, .interruptEnable id 0x0D]
  else return ()

/-- One turn of `usb_host_poll`: the bit of the controller in the mask. -/
def pollController (id : ℕ) : UsbM Bool := do
  let s ← get
  if (s.controllers id).frames = false ∨ (s.info id).status = uhciControllerError then return false
  else
    let paused ← pollPause id
    let _ ← serviceController id false
    if ((← get).info id).status = uhciControllerError then return false
    else
      pollResume id paused
      pollRecover id
      pollPort id 0
      pollPort id 1
      return ((← get).controllers id).active

/-- The turns of `usb_host_poll` for the controllers below `id`. -/
def pollControllers : ℕ → UsbM (ℕ → Bool)
  | 0 => return fun _ => false
  | id + 1 => do
    let active ← pollControllers id
    let a ← pollController id
    return Function.update active id a

/-- `usb_host_poll`: the controllers with a stream. -/
def usbHostPoll : UsbM (ℕ → Bool) := do
  if (← get).ticksPerMs = 0 then return fun _ => false
  else
    modify fun s => { s with polls := (s.polls + 1) % 2 ^ 32 }
    pollControllers uhciControllerCount

/-- `usb_uhci_hotplug_due`. -/
def usbUhciHotplugDue : UsbM Bool := do
  if (← get).ticksPerMs = 0 then return false
  else
    let now ← usbIn .tsc
    let s ← get
    if sub32 now s.hotplugTime < s.ticksPerMs * 100 % 2 ^ 32 then return false
    else
      modify fun s => { s with hotplugTime := now }
      return true

/-! ### Ports and transfers -/

/-- `usb_uhci_disable_port`. -/
def usbUhciDisablePort (id port : ℕ) : UsbM Unit := do
  let s ← get
  if uhciControllerCount ≤ id ∨ 1 < port ∨ (s.info id).ioBase = 0 ∨
      (s.controllers id).active = true then return ()
  else
    let value ← usbIn (.port id port)
    outPort id port (uhciPortUpdate value 0x204 0 % 2 ^ 16)
    setPortStatus id port (← usbIn (.port id port))

/-- `usb_uhci_reset_port`: 0 absent or failed, 1 full speed, 2 low speed. -/
def usbUhciResetPort (id port : ℕ) : UsbM ℕ := do
  let s ← get
  if uhciControllerCount ≤ id ∨ 1 < port ∨ (s.info id).status ≠ uhciReady then return 0
  else if (s.controllers id).active = true then return 0
  else
    let value ← usbIn (.port id port)
    if value &&& 1 = 0 then return 0
    else
      outPort id port (uhciPortUpdate value 4 0x200 % 2 ^ 16)
      outPort id port (uhciPortUpdate (← usbIn (.port id port)) 0x200 0 % 2 ^ 16)
      outPort id port (uhciPortUpdate (← usbIn (.port id port)) 0 4 % 2 ^ 16)
      let value ← usbIn (.port id port)
      setPortStatus id port value
      return if value &&& 5 = 5 then (if value &&& 0x100 ≠ 0 then 2 else 1) else 0

/-- `control_packet`. -/
def controlPacket (id pid address low toggle length : ℕ) : UsbM ℤ := do
  uhciStop id
  usbOut [.controlTd id pid address low toggle length, .controlQh id true, .command id usbRun]
  let td ← usbIn (.controlTd id)
  uhciStop id
  if (← usbIn (.status id)) &&& 0x18 ≠ 0 then
    setStatus id uhciControllerError
    pciDisableInterrupt id
    usbOut [.controlQh id false, .status id 0x1F]
    return -1
  else
    usbOut [.controlQh id false, .status id 0x1F]
    return uhciCompletedLength td length

/-- The data stage of `usb_uhci_control` from `received` bytes on: the bytes
received, or `none` after a failed packet, and the caller's buffer.  A packet
moves at least one byte, so `length` turns are enough. -/
def controlData (id address low packet length : ℕ) (isIn : Bool) :
    ℕ → ℕ → ℕ → (ℕ → ℕ) → UsbM (Option ℕ × (ℕ → ℕ))
  | 0, received, _, data => return (some received, data)
  | fuel + 1, received, toggle, data => do
    if length ≤ received then return (some received, data)
    else
      let count := min (length - received) packet
      usbOut (if isIn then [] else
        [.controlData id ((List.range count).map fun i => data (received + i))])
      let actual ← controlPacket id (if isIn then 0x69 else 0xE1) address low toggle count
      if actual < 0 then return (none, data)
      else
        let s ← get
        let arrived := fun i =>
          if received ≤ i ∧ i < received + actual.toNat then
            s.answer (.controlData id (i - received))
          else data i
        let data := if isIn then arrived else data
        let received := received + actual.toNat
        if actual.toNat < count then return (if isIn then some received else none, data)
        else controlData id address low packet length isIn fuel received (toggle ^^^ 1) data

/-- The three stages of `usb_uhci_control`: the result and the caller's buffer. -/
def controlStages (id address low packet : ℕ) (setup : ℕ → ℕ) (data : ℕ → ℕ) :
    UsbM (ℤ × (ℕ → ℕ)) := do
  let length := setup 6 ||| setup 7 <<< 8
  let isIn : Bool := setup 0 &&& 0x80 ≠ 0
  if (← controlPacket id 0x2D address low 0 8) ≠ 8 then return (-1, data)
  else
    match ← controlData id address low packet length isIn length 0 1 data with
    | (none, data) => return (-1, data)
    | (some received, data) =>
      let pid := if length ≠ 0 ∧ isIn then 0xE1 else 0x69
      if (← controlPacket id pid address low 1 0) ≠ 0 then return (-1, data)
      else return (received, data)

/-- `usb_uhci_control`: the result and the caller's buffer. -/
def usbUhciControl (id address low packet : ℕ) (setup : ℕ → ℕ) (data : ℕ → ℕ) :
    UsbM (ℤ × (ℕ → ℕ)) := do
  let s ← get
  let length := setup 6 ||| setup 7 <<< 8
  if uhciControllerCount ≤ id ∨ 127 < address ∨ 1 < low ∨ (s.info id).status ≠ uhciReady ∨
      packet ≠ 8 ∧ packet ≠ 16 ∧ packet ≠ 32 ∧ packet ≠ 64 ∨ low ≠ 0 ∧ packet ≠ 8 ∨
      usbConfigurationMaxBytes < length ∨ (s.controllers id).active = true then
    return (-1, data)
  else
    usbOut [.interruptEnable id 0, .controlData id ((List.range 8).map setup)]
    let result ← controlStages id address low packet setup data
    let status := ((← get).info id).status
    usbOut (if status = uhciReady then [.command id usbRun, .interruptEnable id 0x0D] else [])
    return result

/-- `usb_uhci_start_interrupt`. -/
def usbUhciStartInterrupt (id port address endpoint low packet ms : ℕ) : UsbM ℕ := do
  let s ← get
  if uhciControllerCount ≤ id ∨ 1 < port ∨ address < 1 ∨ 127 < address ∨ endpoint < 1 ∨
      15 < endpoint ∨ 1 < low ∨ packet = 0 ∨ 64 < packet ∨ low ≠ 0 ∧ 8 < packet ∨
      uhciInterval ms = 0 ∨ (s.info id).status ≠ uhciReady ∨ (s.controllers id).active = true then
    return 0
  else
    let value ← usbIn (.port id port)
    if value &&& 5 ≠ 5 ∨ (if value &&& 0x100 ≠ 0 then 1 else 0) ≠ low then return 0
    else
      uhciStop id
      outPort id port ((uhciPortUpdate value 0 0 ||| (value &&& 0x080A)) % 2 ^ 16)
      modifyController id fun c => { c with
        address := address, endpoint := endpoint, lowSpeed := low, packet := packet, toggle := 0,
        port := port, producer := 0, consumer := 0, active := true }
      usbOut [.started id port]
      reportCallback id .connected
      usbOut [.frames id (uhciInterval ms)]
      armInterrupt id
      usbOut [.status id 0x1F, .interruptEnable id 0x0D, .command id usbRun]
      return 1

/-- `usb_uhci_read_report`: the report, if there is one. -/
def usbUhciReadReport (id : ℕ) : UsbM (Option UhciReport) := do
  let c := (← get).controllers id
  if uhciControllerCount ≤ id ∨ c.consumer = c.producer then return none
  else
    let report := c.queue (c.consumer &&& (uhciReportCount - 1))
    usbOut [.returned id report.bytes]
    modifyController id fun c => { c with consumer := (c.consumer + 1) % 2 ^ 32 }
    return some report

end VirtualKernel
