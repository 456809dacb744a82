/-
Discovery of mice on the UHCI ports.

`usb_mouse_probe_port` configures the device on a port and starts its stream of
reports, `usb_mouse_initialize` does this for all ports at boot, and
`usb_mouse_service` polls the host and looks at the ports again now and then.
-/
import VirtualKernel.UsbHost

namespace VirtualKernel

open Lib

abbrev usbMouseFullSpeedIntervalMs : ℕ := 1

/-! `enum usb_mouse_status`. -/

abbrev usbMouseNotProbed : ℕ := 0
abbrev usbMouseAbsent : ℕ := 1
abbrev usbMouseNotSupported : ℕ := 2
abbrev usbMouseBadDescriptor : ℕ := 3
abbrev usbMouseControlFailed : ℕ := 4
abbrev usbMouseStartFailed : ℕ := 5
abbrev usbMouseStreaming : ℕ := 6

/-- `usb_mouse_poll_interval`. -/
def usbMousePollInterval (lowSpeed advertisedMs : ℕ) : ℕ :=
  if 1 < lowSpeed ∨ advertisedMs = 0 ∨ 255 < advertisedMs then 0
  else if lowSpeed = 0 ∧ usbMouseFullSpeedIntervalMs ≠ 0 ∧
      usbMouseFullSpeedIntervalMs < advertisedMs then usbMouseFullSpeedIntervalMs
  else advertisedMs

/-! ### Descriptors -/

/-- `read16`. -/
def read16 (bytes : ℕ → ℕ) (i : ℕ) : ℕ := bytes i ||| bytes (i + 1) <<< 8

/-- The variables of `usb_mouse_find_interface`. -/
structure InterfaceSearch where
  candidate : Bool
  number : ℕ
  haveInterface : Bool
  endpoints : ℕ
  expected : ℕ
  selected : Option UsbMouseInterface

/-- An interface descriptor. -/
def InterfaceSearch.interface (d : ℕ → ℕ) (st : InterfaceSearch) : Option InterfaceSearch :=
  if d 0 < 9 ∨ st.haveInterface ∧ st.endpoints ≠ st.expected then none
  else some { st with
    haveInterface := true
    endpoints := 0
    expected := d 4
    number := d 2
    candidate := decide (d 3 = 0 ∧ d 5 = 3 ∧ d 6 = 1 ∧ d 7 = 2) }

/-- An endpoint descriptor. -/
def InterfaceSearch.endpoint (configuration low : ℕ) (d : ℕ → ℕ) (st : InterfaceSearch) :
    Option InterfaceSearch :=
  if d 0 < 7 ∨ st.haveInterface = false ∨ st.expected < st.endpoints + 1 then none
  else
    let st := { st with endpoints := st.endpoints + 1 }
    let packet := read16 d 4
    if st.candidate ∧ st.selected = none ∧ d 2 &&& 0x80 ≠ 0 ∧ d 3 &&& 3 = 3 then
      if d 2 &&& 15 = 0 ∨ d 2 &&& 0x70 ≠ 0 ∨ packet < 3 ∨ (if low ≠ 0 then 8 else 64) < packet ∨
          d 6 = 0 ∨ low ≠ 0 ∧ d 6 < 10 then none
      else some { st with selected := some ⟨configuration, st.number, d 2 &&& 15, packet, d 6⟩ }
    else some st

/-- The loop of `usb_mouse_find_interface` from `offset`; every descriptor has at
least two bytes, so `length` turns are enough. -/
def findInterfaceLoop (data : ℕ → ℕ) (length low : ℕ) :
    ℕ → ℕ → InterfaceSearch → Option InterfaceSearch
  | 0, _, st => some st
  | fuel + 1, offset, st =>
    if length ≤ offset then some st
    else if length - offset < 2 then none
    else
      let d := fun i => data (offset + i)
      let size := d 0
      if size < 2 ∨ length - offset < size then none
      else
        let st :=
          if d 1 = 4 then st.interface d
          else if d 1 = 5 then st.endpoint (data 5) low d
          else if d 1 = 2 ∨ d 1 = 1 then none
          else some st
        st.bind (findInterfaceLoop data length low fuel (offset + size))

/-- `usb_mouse_find_interface`: `none` is the result -1, `some none` the result 0. -/
def usbMouseFindInterface (data : ℕ → ℕ) (length low : ℕ) : Option (Option UsbMouseInterface) :=
  if 1 < low ∨ length < 9 ∨ usbConfigurationMaxBytes < length ∨ data 0 ≠ 9 ∨ data 1 ≠ 2 ∨
      read16 data 2 ≠ length ∨ data 5 = 0 then none
  else
    match findInterfaceLoop data length low length 9 ⟨false, 0, false, 0, 0, none⟩ with
    | none => none
    | some st => if st.haveInterface ∧ st.endpoints ≠ st.expected then none else some st.selected

/-! ### Probing -/

/-- Change a record of `usb_mouse_state`. -/
def setMousePort (id port : ℕ) (f : UsbMousePort → UsbMousePort) : UsbM Unit :=
  modify fun s =>
    let records := Function.update (s.mousePort id) port (f (s.mousePort id port))
    { s with mousePort := Function.update s.mousePort id records }

/-- Set the stage of a probe. -/
def setStage (id port status : ℕ) : UsbM Unit :=
  setMousePort id port fun i => { i with status := status }

/-- `request`: the result and the caller's buffer. -/
def usbRequest (id address low packet type operation value index length : ℕ) (data : ℕ → ℕ) :
    UsbM (ℤ × (ℕ → ℕ)) :=
  usbUhciControl id address low packet (fun i => match i with
    | 0 => type % 256
    | 1 => operation % 256
    | 2 => value % 256
    | 3 => value / 256 % 256
    | 4 => index % 256
    | 5 => index / 256 % 256
    | 6 => length % 256
    | _ => length / 256 % 256) data

/-- The label `failed` of `usb_mouse_probe_port`. -/
def probeFailed (id port : ℕ) : UsbM Bool := do
  usbUhciDisablePort id port
  return false

/-- The end of a probe: select the interface and start the stream. -/
def probeStart (id port address low packet : ℕ) (interface : UsbMouseInterface) : UsbM Bool := do
  setMousePort id port fun i => { i with interface := interface, status := usbMouseControlFailed }
  let nothing : ℕ → ℕ := fun _ => 0
  if (← usbRequest id address low packet 0 9 interface.configuration 0 0 nothing).1 ≠ 0 then
    probeFailed id port
  else if (← usbRequest id address low packet 0x21 11 0 interface.interfaceNumber 0 nothing).1 ≠ 0
  then probeFailed id port
  else
    let _ ← usbRequest id address low packet 0x21 10 0 interface.interfaceNumber 0 nothing
    let interval := usbMousePollInterval low interface.interval
    setMousePort id port fun i => { i with
      status := usbMouseStartFailed, scheduledInterval := interval }
    if (← usbUhciStartInterrupt id port address interface.endpoint low interface.packet interval) = 0
    then probeFailed id port
    else
      setStage id port usbMouseStreaming
      return true

/-- The loop over the configurations, from `config` on. -/
def probeConfigurations (id port address low packet : ℕ) : ℕ → ℕ → UsbM Bool
  | 0, _ => do
    setStage id port usbMouseNotSupported
    probeFailed id port
  | remaining + 1, config => do
    setStage id port usbMouseControlFailed
    let (result, scratch) ← usbRequest id address low packet 0x80 6 (0x0200 ||| config) 0 9
      (← get).configurationBuffer
    modify fun s => { s with configurationBuffer := scratch }
    if result ≠ 9 then probeFailed id port
    else
      let length := read16 scratch 2
      setStage id port usbMouseBadDescriptor
      if scratch 0 ≠ 9 ∨ scratch 1 ≠ 2 ∨ length < 9 ∨ scratch 5 = 0 then probeFailed id port
      else if usbConfigurationMaxBytes < length then
        probeConfigurations id port address low packet remaining (config + 1)
      else
        setStage id port usbMouseControlFailed
        let (result, scratch) ← usbRequest id address low packet 0x80 6 (0x0200 ||| config) 0 length
          scratch
        modify fun s => { s with configurationBuffer := scratch }
        if result ≠ length then probeFailed id port
        else
          setStage id port usbMouseBadDescriptor
          match usbMouseFindInterface scratch length low with
          | none => probeFailed id port
          | some none => probeConfigurations id port address low packet remaining (config + 1)
          | some (some interface) => probeStart id port address low packet interface

/-- A probe from `SET_ADDRESS` on. -/
def probeAddress (id port low packet : ℕ) (device : ℕ → ℕ) : UsbM Bool := do
  setStage id port usbMouseControlFailed
  let address := port + 1
  if (← usbRequest id 0 low packet 0 5 address 0 0 fun _ => 0).1 ≠ 0 then probeFailed id port
  else
    setMousePort id port fun i => { i with address := address }
    let (result, device) ← usbRequest id address low packet 0x80 6 0x0100 0 18 device
    if result ≠ 18 then probeFailed id port
    else
      setStage id port usbMouseBadDescriptor
      if device 0 ≠ 18 ∨ device 1 ≠ 1 ∨ device 7 ≠ packet ∨ device 17 = 0 then probeFailed id port
      else
        setMousePort id port fun i => { i with
          vendor := read16 device 8, product := read16 device 10, status := usbMouseNotSupported }
        if device 4 = 9 ∨ 8 < device 17 then probeFailed id port
        else probeConfigurations id port address low packet (device 17) 0

/-- A probe from the reset of the port on. -/
def probeReset (id port : ℕ) : UsbM Bool := do
  setMousePort id port fun _ => ⟨usbMouseAbsent, 0, 0, 0, 0, ⟨0, 0, 0, 0, 0⟩, 0⟩
  let speed ← usbUhciResetPort id port
  if speed = 0 then probeFailed id port
  else
    let low := if speed = 2 then 1 else 0
    setMousePort id port fun i => { i with lowSpeed := low, status := usbMouseControlFailed }
    let (result, device) ← usbRequest id 0 low 8 0x80 6 0x0100 0 8 fun _ => 0
    if result ≠ 8 then probeFailed id port
    else
      setStage id port usbMouseBadDescriptor
      let packet := device 7
      if device 0 ≠ 18 ∨ device 1 ≠ 1 ∨ packet ≠ 8 ∧ packet ≠ 16 ∧ packet ≠ 32 ∧ packet ≠ 64 ∨
          low ≠ 0 ∧ packet ≠ 8 then probeFailed id port
      else probeAddress id port low packet device

/-- `usb_mouse_probe_port`. -/
def usbMouseProbePort (id port : ℕ) : UsbM Bool := do
  if uhciControllerCount ≤ id ∨ 1 < port then return false
  else
    usbOut [.probe id port]
    let ok ← probeReset id port
    usbOut [.probed id port ok]
    return ok

/-! ### Boot and hot plugging -/

def setHotplug (id port : ℕ) (f : Hotplug → Hotplug) : UsbM Unit :=
  modify fun s =>
    let entries := Function.update (s.hotplug id) port (f (s.hotplug id port))
    { s with hotplug := Function.update s.hotplug id entries }

/-- The entry of a port after the probes at boot. -/
def initializeHotplug (id port : ℕ) : UsbM Unit := do
  let s ← get
  let connected := (s.info id).portStatus port &&& 1
  let generation := s.portGeneration id port
  usbOut [.booted id port connected generation]
  setHotplug id port fun _ =>
    ⟨generation, connected, if (s.mousePort id port).status ≠ 0 then 1 else 0⟩

/-- Probe a port at boot and count its mouse. -/
def initializePort (id port : ℕ) : UsbM Bool := do
  if ← usbMouseProbePort id port then
    modify fun s => { s with mouseCount := (s.mouseCount + 1) % 2 ^ 32 }
    return true
  else return false

/-- The probes of a controller at boot: it can have one stream. -/
def initializePorts (id : ℕ) : UsbM Unit := do
  if ← initializePort id 0 then return ()
  else if ((← get).info id).status ≠ uhciReady then return ()
  else
    let _ ← initializePort id 1
    return ()

/-- One turn of `usb_mouse_initialize`. -/
def initializeController (id : ℕ) : UsbM Unit := do
  if ((← get).info id).status ≠ uhciReady then return ()
  else
    usbUhciDisablePort id 0
    usbUhciDisablePort id 1
    initializePorts id
    initializeHotplug id 0
    initializeHotplug id 1

/-- The turns of `usb_mouse_initialize` for the controllers below `id`. -/
def initializeControllers : ℕ → UsbM Unit
  | 0 => return ()
  | id + 1 => do
    initializeControllers id
    initializeController id

/-- `usb_mouse_initialize`. -/
def usbMouseInitialize : UsbM ℕ := do
  if (← get).initialized = true then return (← get).mouseCount
  else
    modify fun s => { s with initialized := true }
    initializeControllers uhciControllerCount
    modify fun s => { s with bootMouseCount := s.mouseCount }
    return (← get).mouseCount

/-- Forget a stream that has ended. -/
def scanForget (id port : ℕ) (active : Bool) : UsbM Unit := do
  if ((← get).mousePort id port).status = usbMouseStreaming ∧ active = false then
    usbOut [.forgot id port]
    setStage id port usbMouseAbsent
    setHotplug id port fun h => { h with connected := 0, attempted := 0 }
  else return ()

/-- Take note of a change of a port. -/
def scanChanged (id port generation connected : ℕ) : UsbM Unit := do
  usbOut [.changed id port connected generation]
  setHotplug id port fun _ => ⟨generation, connected, 0⟩
  if connected = 0 then setStage id port usbMouseAbsent else return ()

/-- A scan of one port: the bit of the controller in `active` afterwards. -/
def scanPort (id port : ℕ) (active : Bool) : UsbM Bool := do
  scanForget id port active
  let s ← get
  let connected := (s.info id).portStatus port &&& 1
  let generation := s.portGeneration id port
  let h := s.hotplug id port
  if (s.info id).status ≠ uhciReady then return active
  else
    usbOut [.scan id port connected generation]
    if connected ≠ h.connected ∨ generation ≠ h.generation then
      scanChanged id port generation connected
      return active
    else if connected = 0 ∨ active = true ∨ h.attempted ≠ 0 then return active
    else
      setHotplug id port fun h => { h with attempted := 1 }
      usbUhciDisablePort id 0
      usbUhciDisablePort id 1
      usbMouseProbePort id port

/-- The scan of one controller. -/
def scanController (id : ℕ) (active : Bool) : UsbM Bool := do
  let active ← scanPort id 0 active
  scanPort id 1 active

/-- The scans of the controllers below `id`: the number of mice. -/
def scanControllers (active : ℕ → Bool) : ℕ → UsbM ℕ
  | 0 => return 0
  | id + 1 => do
    let count ← scanControllers active id
    let a ← scanController id (active id)
    return count + a.toNat

/-- `usb_mouse_service`; the result says whether it scanned the ports. -/
def usbMouseService : UsbM Bool := do
  if (← get).initialized = false then return false
  else
    let active ← usbHostPoll
    if (← usbUhciHotplugDue) = false then return false
    else
      let count ← scanControllers active uhciControllerCount
      modify fun s => { s with mouseCount := count }
      return true

end VirtualKernel
