/-
The read-only disk transport of `Boot/BootStorage.c`, as the kernel builds it
(`KERNEL_STORAGE`).

`mem` is memory by linear address, one byte each, and every store of the driver
goes to it, the stores to controller registers included (these are also kept in
`issued`, with the port and PCI writes).  What the driver reads from a port, a
configuration space, a controller register or the time-stamp counter is the
answer `hw t r` of the hardware at time `t`.  A wait that polls until a time-out
is one answer, the value that ends it.  `none` is a panic.

While its schedule is enabled the EHCI controller may write any byte of the page
with the queue head and the descriptors (`dma t a`).  Into the buffer of an IN
descriptor it writes what the device sends (`incoming t i`), as many bytes as
the descriptor says that were moved; `bulks` are the bulk transfers that the
controller completed without an error, and `ataWords` the words that arrived at
the data ports of the ATA channels.
-/
import VirtualKernel.Lib.Runs
import VirtualKernel.Lib.Word

namespace VirtualKernel

open Lib

abbrev dmaBase : ℕ := 0x30050000
abbrev dmaSize : ℕ := 0x7000
abbrev transferBuffer : ℕ := 0x30052000
abbrev controlBuffer : ℕ := 0x30051000
abbrev cbwBuffer : ℕ := 0x30051400
abbrev cswBuffer : ℕ := 0x30051440
abbrev setupBuffer : ℕ := 0x30051480
abbrev periodicList : ℕ := 0x30056000
abbrev bootReport : ℕ := 0x3004F000
abbrev blocksPerRead : ℕ := 32
abbrev storageMmioBase : ℕ := 0x80C00000

/-- What the driver reads from the hardware: a port, an ATA data port, a word
of a configuration space, a register of the EHCI controller, the time-stamp
counter; and whether `map_page` succeeds. -/
inductive StorageReg
  | port (p : ℕ)
  | data (p : ℕ)
  | pci (device offset : ℕ)
  | mmio (a : ℕ)
  | tsc
  | mapped

/-- The bits of an answer. -/
def StorageReg.width : StorageReg → ℕ
  | .port _ => 8
  | .data _ => 16
  | .pci _ _ => 32
  | .mmio _ => 32
  | .tsc => 32
  | .mapped => 1

/-- What the driver does to the hardware: writes to ports, configuration spaces
and registers, loads from registers, requests on the control pipe, and the
opcodes of the command blocks on the bulk pipe, whether they arrive or not. -/
inductive StorageOut
  | port (p value : ℕ)
  | pci (device offset value : ℕ)
  | mmio (a value : ℕ)
  | load (a : ℕ)
  | setup (type request value index length : ℕ)
  | block (opcode : ℕ)
  deriving DecidableEq

/-- A bulk transfer that completed without an error: its direction, the length
that was asked for, the bytes that moved, and the contents of the buffer. -/
structure BulkTransfer where
  input : Bool
  buffer : ℕ
  length : ℕ
  moved : ℕ
  data : ℕ → UInt8

/-- `struct usb_storage_interface`. -/
structure UsbStorageInterface where
  configuration : ℕ
  interfaceNumber : ℕ
  bulkIn : ℕ
  bulkOut : ℕ
  deriving DecidableEq

/-- `struct storage_device_info`. -/
structure StorageDeviceInfo where
  type : ℕ
  sectorSize : ℕ
  blockCount : ℕ
  flags : ℕ
  model : ℕ → ℕ

/-- Memory, the hardware, and the static variables of `BootStorage.c` and
`Storage.c`. `mmioPte` is the page-table entry of `STORAGE_MMIO`. -/
structure Storage where
  hw : ℕ → StorageReg → ℕ
  dma : ℕ → ℕ → Option UInt8
  incoming : ℕ → ℕ → UInt8
  time : ℕ
  issued : List StorageOut
  bulks : List BulkTransfer
  ataWords : List ℕ
  mem : ℕ → UInt8
  cr3 : ℕ
  mmioPte : ℕ
  ehci : ℕ
  ticksPerMs : ℕ
  usbAddress : ℕ
  usbTag : ℕ
  lastBlock : ℕ
  toggleIn : ℕ
  toggleOut : ℕ
  transportDead : Bool
  usbInterface : UsbStorageInterface
  ataPort : ℕ
  ataDevice : ℕ
  devices : ℕ → StorageDeviceInfo
  initialized : Bool
  discovered : Bool
  deviceMask : ℕ
  mappedMmio : ℕ
  ataDead : ℕ → Bool
  usbDiscovered : Bool
  companionTarget : ℕ
  companionsReady : Bool
  companionPorts : ℕ
  companionKeep : ℕ

/-- Programs of the storage driver. -/
abbrev StorageM (α : Type) : Type := StateT Storage Option α

/-! ### Memory -/

/-- The DMA area. -/
def InDma (a : ℕ) : Prop := dmaBase ≤ a ∧ a < dmaBase + dmaSize

instance (a : ℕ) : Decidable (InDma a) := inferInstanceAs (Decidable (_ ∧ _))

/-- The page of the queue head and the descriptors. -/
def InSchedule (a : ℕ) : Prop := dmaBase ≤ a ∧ a < dmaBase + 0x1000

instance (a : ℕ) : Decidable (InSchedule a) := inferInstanceAs (Decidable (_ ∧ _))

/-- The 32-bit word at `a`. -/
def word (m : ℕ → UInt8) (a : ℕ) : ℕ :=
  (m a).toNat + 2 ^ 8 * (m (a + 1)).toNat + 2 ^ 16 * (m (a + 2)).toNat + 2 ^ 24 * (m (a + 3)).toNat

/-- Memory with the `n` bytes from `a` on replaced. -/
def overwrite (m : ℕ → UInt8) (a n : ℕ) (bytes : ℕ → UInt8) (b : ℕ) : UInt8 :=
  if a ≤ b ∧ b < a + n then bytes (b - a) else m b

theorem overwrite_of_mem {m bytes : ℕ → UInt8} {a n b : ℕ} (h : a ≤ b) (h' : b < a + n) :
    overwrite m a n bytes b = bytes (b - a) := if_pos ⟨h, h'⟩

theorem overwrite_of_lt {m bytes : ℕ → UInt8} {a n i : ℕ} (h : i < n) :
    overwrite m a n bytes (a + i) = bytes i := by
  rw [overwrite_of_mem (by omega) (by omega), Nat.add_sub_cancel_left]

theorem overwrite_of_disjoint {m bytes : ℕ → UInt8} {a n b : ℕ} (h : b < a ∨ a + n ≤ b) :
    overwrite m a n bytes b = m b := if_neg (by omega)

/-- A word that a store does not touch. -/
theorem word_overwrite {m bytes : ℕ → UInt8} {a n b : ℕ} (h : b + 4 ≤ a ∨ a + n ≤ b) :
    word (overwrite m a n bytes) b = word m b := by
  have hm : ∀ k < 4, overwrite m a n bytes (b + k) = m (b + k) := fun k hk =>
    overwrite_of_disjoint (by omega)
  simp only [word, hm 1 (by decide), hm 2 (by decide), hm 3 (by decide),
    overwrite_of_disjoint (show b < a ∨ a + n ≤ b by omega)]

/-- Store `n` bytes from `a` on. -/
def storeBytes (a n : ℕ) (bytes : ℕ → UInt8) : StorageM Unit :=
  modify fun s => { s with mem := overwrite s.mem a n bytes }

/-- Store the bytes of a list. -/
def storeList (a : ℕ) (bytes : List ℕ) : StorageM Unit :=
  storeBytes a bytes.length fun i => UInt8.ofNat (bytes.getD i 0)

/-- Store a 16-bit or a 32-bit word. -/
def store16 (a value : ℕ) : StorageM Unit := storeBytes a 2 fun i => UInt8.ofNat (value >>> (8 * i))

def store32 (a value : ℕ) : StorageM Unit := storeBytes a 4 fun i => UInt8.ofNat (value >>> (8 * i))

/-- The value of a byte of the driver's buffers. -/
def loadByte (a : ℕ) : StorageM ℕ := return ((← get).mem a).toNat

def loadWord (a : ℕ) : StorageM ℕ := return word (← get).mem a

/-- `zero`. -/
def zeroBytes (destination size : ℕ) : StorageM Unit := storeBytes destination size fun _ => 0

/-! ### The hardware -/

/-- What the hardware answers now. -/
def Storage.answer (s : Storage) (r : StorageReg) : ℕ := s.hw s.time r % 2 ^ r.width

/-- Read from the hardware. -/
def ask (r : StorageReg) : StorageM ℕ :=
  modifyGet fun s => (s.answer r, { s with time := s.time + 1 })

def issue (o : StorageOut) : StorageM Unit := modify fun s => { s with issued := s.issued ++ [o] }

def in8 (port : ℕ) : StorageM ℕ := ask (.port port)

def out8 (port value : ℕ) : StorageM Unit := issue (.port port (value % 2 ^ 8))

def pciRead (device offset : ℕ) : StorageM ℕ := ask (.pci device offset)

def pciWrite (device offset value : ℕ) : StorageM Unit := issue (.pci device offset value)

def tsc : StorageM ℕ := ask .tsc

/-- Load a register of the controller. -/
def mmioRead (a : ℕ) : StorageM ℕ := do
  issue (.load a)
  ask (.mmio a)

/-- `ehci[index]`. -/
def ehciRead (index : ℕ) : StorageM ℕ := do
  mmioRead ((← get).ehci + 4 * index)

/-- `ehci[index] = value`. -/
def ehciWrite (index value : ℕ) : StorageM Unit := do
  let a := (← get).ehci + 4 * index
  issue (.mmio a value)
  store32 a value

/-- `&descriptors[index]`. -/
abbrev descriptor (index : ℕ) : ℕ := dmaBase + 0x100 + 64 * index

/-- The bytes that a descriptor has not moved. -/
def remaining (m : ℕ → UInt8) (index : ℕ) : ℕ := word m (descriptor index + 8) >>> 16 &&& 0x7FFF

/-- The controller writes to its schedule. -/
def controllerRuns : StorageM Unit :=
  modify fun s => { s with
    mem := fun a => if InSchedule a then (s.dma s.time a).getD (s.mem a) else s.mem a
    time := s.time + 1 }

/-- The controller fills the buffer of the IN descriptor `index`, `n` bytes at
`target`, as far as the descriptor says. -/
def controllerDelivers (target n index : ℕ) : StorageM Unit :=
  modify fun s => { s with
    mem := overwrite s.mem target (n - remaining s.mem index) (s.incoming s.time)
    time := s.time + 1 }

/-- A word of the DMA area, read while the schedule is enabled. -/
def dmaWord (a : ℕ) : StorageM ℕ := do
  controllerRuns
  loadWord a

/-- `BOOT_REPORT[index] = value`. -/
def report (index value : ℕ) : StorageM Unit := store32 (bootReport + 4 * index) value

/-- `fail`, which is a panic in the kernel. -/
def storageFail {α : Type} : StorageM α := fun _ => none

/-- `for (i = 0; i < n; ++i)`. -/
def upTo : ℕ → (ℕ → StorageM Unit) → StorageM Unit
  | 0, _ => return ()
  | n + 1, body => do
    upTo n body
    body n

/-! ### Parsers -/

/-- `storage_read_cdb_valid`. -/
def storageReadCdbValid (command : List ℕ) (bytes : ℕ) : Bool :=
  if command.length = 6 ∧ command.getD 0 0 = 0x00 then bytes = 0
  else if command.length = 6 ∧ command.getD 0 0 = 0x03 then bytes = 18 ∧ command.getD 4 0 = 18
  else if command.length = 10 ∧ command.getD 0 0 = 0x25 then bytes = 8
  else if command.length = 10 ∧ command.getD 0 0 = 0x28 then
    let blocks := command.getD 7 0 <<< 8 ||| command.getD 8 0
    0 < blocks ∧ blocks ≤ 32 ∧ bytes = blocks * 512
  else false

/-- The loop of `boot_parse_usb_configuration` at `offset`.  A descriptor is
at least two bytes long, so `size` turns are enough. -/
def parseDescriptors (data : ℕ → ℕ) (size : ℕ) :
    ℕ → ℕ → Bool → UsbStorageInterface → Option UsbStorageInterface
  | 0, _, _, _ => none
  | fuel + 1, offset, storage, candidate =>
    if size ≤ offset then
      if storage = false ∨ candidate.bulkIn = 0 ∨ candidate.bulkOut = 0 then none
      else some candidate
    else
      let length := data offset
      let d := fun i => data (offset + i)
      if length < 2 ∨ size - offset < length then none
      else if d 1 = 4 then
        if length < 9 then none
        else if storage ∧ candidate.bulkIn ≠ 0 ∧ candidate.bulkOut ≠ 0 then some candidate
        else
          parseDescriptors data size fuel (offset + length)
            (d 3 = 0 ∧ d 4 = 2 ∧ d 5 = 8 ∧ d 6 = 6 ∧ d 7 = 0x50)
            { candidate with interfaceNumber := d 2, bulkIn := 0, bulkOut := 0 }
      else if d 1 = 5 ∧ storage then
        if length < 7 then none
        else if d 3 &&& 3 ≠ 2 ∨ d 2 &&& 15 = 0 ∨ d 2 &&& 0x70 ≠ 0 ∨ (d 4 ||| d 5 <<< 8) ≠ 512 then
          none
        else if d 2 &&& 0x80 ≠ 0 then
          if candidate.bulkIn ≠ 0 then none
          else parseDescriptors data size fuel (offset + length) storage
            { candidate with bulkIn := d 2 }
        else if candidate.bulkOut ≠ 0 then none
        else parseDescriptors data size fuel (offset + length) storage
          { candidate with bulkOut := d 2 }
      else parseDescriptors data size fuel (offset + length) storage candidate

/-- `boot_parse_usb_configuration`; `none` is the answer 0, which leaves
`*result` alone. -/
def bootParseUsbConfiguration (data : ℕ → ℕ) (size : ℕ) : Option UsbStorageInterface :=
  if size < 9 ∨ data 0 ≠ 9 ∨ data 1 ≠ 2 ∨ (data 2 ||| data 3 <<< 8) ≠ size ∨ data 5 = 0 then none
  else parseDescriptors data size size 9 false ⟨data 5, 0, 0, 0⟩

/-! ### Waits and the controller -/

/-- The end of `calibrate_timer`, with the last reading of the gate. -/
def timerResult (original last ticks : ℕ) : StorageM Unit := do
  modify fun s => { s with ticksPerMs := ticks }
  out8 0x61 original
  if last &&& 0x20 = 0 ∨ ticks < 10000 ∨ 4000000 < ticks then storageFail else return ()

/-- `calibrate_timer`. -/
def calibrateTimer : StorageM Unit := do
  let original ← in8 0x61
  out8 0x61 (original &&& 0xFC)
  out8 0x43 0xB0
  out8 0x42 23864
  out8 0x42 (23864 >>> 8)
  let start ← tsc
  out8 0x61 ((original &&& 0xFD) ||| 1)
  let last ← in8 0x61
  let stop ← tsc
  timerResult original last (sub32 stop start / 20)

/-- `delay`. -/
def delay (_ms : ℕ) : StorageM Unit := do
  let _ ← tsc
  return ()

/-- `wait_register`. -/
def waitRegister (offset mask value : ℕ) : StorageM Bool := do
  let last ← ehciRead (offset / 4)
  return last &&& mask = value

/-- `stop_controller`. -/
def stopController : StorageM Unit := do
  if (← get).ehci = 0 then return ()
  else
    ehciWrite 0 0
    if (← waitRegister 4 (1 <<< 12) (1 <<< 12)) = false then storageFail else ehciWrite 2 0

/-- `make_qtd`. -/
def makeQtd (index pid toggle buffer length next : ℕ) : StorageM Unit := do
  let q := descriptor index
  zeroBytes q 64
  store32 q next
  store32 (q + 4) 1
  store32 (q + 8) ((toggle <<< 31 ||| length <<< 16 ||| 3 <<< 10 ||| pid <<< 8 ||| 0x80) % 2 ^ 32)
  store32 (q + 12) buffer
  upTo 4 fun i => store32 (q + 16 + 4 * i) ((pageAddr buffer + (i + 1) * 4096) % 2 ^ 32)

/-- The last turn of the loop of `transfer`: whether the transfer succeeded. -/
def transferPoll (last : ℕ) : StorageM Bool := do
  if (← ehciRead 1) &&& 1 <<< 4 ≠ 0 then return false
  else if (← dmaWord (dmaBase + 24)) &&& 0x7C ≠ 0 then return false
  else if (← dmaWord (descriptor last + 8)) &&& 0x80 ≠ 0 then return false
  else return (← dmaWord (descriptor last + 8)) &&& 0x7C = 0

/-- The queue head of `transfer`. -/
def queueHead (endpoint packetSize : ℕ) : StorageM Unit := do
  zeroBytes dmaBase 96
  store32 dmaBase (dmaBase ||| 2)
  store32 (dmaBase + 4) (((← get).usbAddress ||| endpoint <<< 8 ||| 2 <<< 12 ||| 1 <<< 14 |||
    1 <<< 15 ||| packetSize <<< 16 ||| 8 <<< 28) % 2 ^ 32)
  store32 (dmaBase + 8) (1 <<< 30)
  store32 (dmaBase + 16) (descriptor 0)
  store32 (dmaBase + 20) 1

/-- The end of a failed `transfer`. -/
def transferFailed : StorageM Bool := do
  report 4 (← ehciRead 1)
  report 5 (← loadWord (dmaBase + 24))
  modify fun s => { s with transportDead := true }
  return false

/-- `transfer` up to the request to stop the schedule: whether the transfer
succeeded. -/
def transferRun (endpoint packetSize last : ℕ) : StorageM Bool := do
  queueHead endpoint packetSize
  ehciWrite 6 dmaBase
  ehciWrite 0 (1 ||| 1 <<< 5)
  let _ ← tsc
  let success ← transferPoll last
  ehciWrite 0 1
  controllerRuns
  return success

/-- `transfer`, for a schedule whose IN descriptor `index` has `n` bytes at
`target`. -/
def transfer (endpoint packetSize last target n index : ℕ) : StorageM Bool := do
  if (← get).transportDead then return false
  else
    let success ← transferRun endpoint packetSize last
    controllerDelivers target n index
    if (← waitRegister 4 (1 <<< 15) 0) = false then storageFail
    else if success then return true
    else transferFailed

/-- The data stage of `control`. -/
def controlStage (type length : ℕ) : StorageM Unit := do
  if length = 0 then return ()
  else
    makeQtd 1 (if type &&& 0x80 ≠ 0 then 1 else 0) 1 controlBuffer length (descriptor 2)
    store32 (descriptor 1 + 4) (descriptor 2)

/-- `control`. -/
def control (type request value index length : ℕ) : StorageM Bool := do
  issue (.setup type request value index length)
  storeList setupBuffer
    [type, request, value, value >>> 8, index, index >>> 8, length, length >>> 8]
  let status := if length = 0 then 1 else 2
  makeQtd 0 2 0 setupBuffer 8 (descriptor 1)
  controlStage type length
  makeQtd status (if length ≠ 0 ∧ type &&& 0x80 ≠ 0 then 0 else 1) 1 0 0 1
  let incoming := if type &&& 0x80 ≠ 0 then length else 0
  if (← transfer 0 64 status controlBuffer incoming 1) = false then return false
  else return length = 0 ∨ remaining (← get).mem 1 = 0

/-- The configurations of `enumerate_storage` from `index` on. -/
def enumerateConfigurations : ℕ → ℕ → StorageM Bool
  | 0, _ => return false
  | n + 1, index => do
    if (← control 0x80 6 (0x200 ||| index) 0 9) = false then return false
    else
      let size := (← loadByte (controlBuffer + 2)) ||| (← loadByte (controlBuffer + 3)) <<< 8
      if size < 9 ∨ 1024 < size then enumerateConfigurations n (index + 1)
      else if (← control 0x80 6 (0x200 ||| index) 0 size) = false then return false
      else
        let m := (← get).mem
        match bootParseUsbConfiguration (fun i => (m (controlBuffer + i)).toNat) size with
        | none => enumerateConfigurations n (index + 1)
        | some parsed =>
          modify fun s => { s with usbInterface := parsed }
          if (← control 0 9 parsed.configuration 0 0) = false then return false
          else
            delay 10
            return true

/-- `enumerate_storage`. -/
def enumerateStorage : StorageM Bool := do
  report 1 4
  modify fun s => { s with usbAddress := 0, transportDead := false, toggleIn := 0, toggleOut := 0 }
  if (← control 0x80 6 0x100 0 18) = false then return false
  else if (← loadByte (controlBuffer + 7)) ≠ 64 then return false
  else
    let configurations ← loadByte (controlBuffer + 17)
    let length ← loadByte controlBuffer
    let kind ← loadByte (controlBuffer + 1)
    if length ≠ 18 ∨ kind ≠ 1 ∨ configurations = 0 then return false
    else if (← control 0 5 1 0 0) = false then return false
    else
      modify fun s => { s with usbAddress := 1 }
      delay 2
      report 1 5
      enumerateConfigurations configurations 0

/-- `*toggle ^= ...` at the end of `bulk`. -/
def flipToggle (input : Bool) (length : ℕ) : StorageM Unit :=
  modify fun s =>
    if input then { s with toggleIn := s.toggleIn ^^^ ((length + 511) / 512 &&& 1) }
    else { s with toggleOut := s.toggleOut ^^^ ((length + 511) / 512 &&& 1) }

/-- The record of a completed transfer. -/
def recordBulk (input : Bool) (buffer length : ℕ) : StorageM Unit :=
  modify fun s => { s with
    bulks := s.bulks ++ [⟨input, buffer, length, length - remaining s.mem 0, fun i => s.mem (buffer + i)⟩] }

/-- The end of `bulk`, behind a transfer that completed. -/
def bulkDone (input : Bool) (length : ℕ) : StorageM Bool := do
  if remaining (← get).mem 0 ≠ 0 then
    modify fun s => { s with transportDead := true }
    return false
  else
    flipToggle input length
    return true

/-- The command block that an OUT stage hands to the controller. -/
def issueBlock (input : Bool) (buffer : ℕ) : StorageM Unit := do
  let s ← get
  if input ∨ s.transportDead then return () else issue (.block (s.mem (buffer + 15)).toNat)

/-- `bulk`. -/
def bulk (input : Bool) (buffer length : ℕ) : StorageM Bool := do
  let s ← get
  let endpoint := (if input then s.usbInterface.bulkIn else s.usbInterface.bulkOut) &&& 15
  makeQtd 0 (if input then 1 else 0) (if input then s.toggleIn else s.toggleOut) buffer length 1
  issueBlock input buffer
  if (← transfer endpoint 512 0 buffer (if input then length else 0) 0) = false then return false
  else
    recordBulk input buffer length
    bulkDone input length

/-- `be32`. -/
def be32 (a : ℕ) : StorageM ℕ := do
  return (← loadByte a) <<< 24 ||| (← loadByte (a + 1)) <<< 16 ||| (← loadByte (a + 2)) <<< 8 |||
    (← loadByte (a + 3))

/-- `put_be32`. -/
def putBe32 (value : ℕ) : List ℕ :=
  [value >>> 24 % 2 ^ 8, value >>> 16 % 2 ^ 8, value >>> 8 % 2 ^ 8, value % 2 ^ 8]

/-- The data stage of `scsi`. -/
def scsiData (length : ℕ) : StorageM Bool := do
  if length = 0 then return true else bulk true transferBuffer length

/-- The check of the status block of `scsi`. -/
def scsiStatus (length : ℕ) : StorageM ℤ := do
  let signature ← loadWord cswBuffer
  let tag ← loadWord (cswBuffer + 4)
  let residue ← loadWord (cswBuffer + 8)
  let status ← loadByte (cswBuffer + 12)
  if signature ≠ 0x53425355 ∨ tag ≠ (← get).usbTag ∨ length < residue ∨ 1 < status then
    modify fun s => { s with transportDead := true }
    return -1
  else if status = 1 then return 0
  else if residue ≠ 0 then
    modify fun s => { s with transportDead := true }
    return -1
  else return 1

/-- The data and the status of `scsi`. -/
def scsiAnswer (length : ℕ) : StorageM ℤ := do
  if (← scsiData length) = false then return -1
  else if (← bulk true cswBuffer 13) = false then return -1
  else scsiStatus length

/-- The command block of `scsi`. -/
def putCbw (command : List ℕ) (length : ℕ) : StorageM Unit := do
  zeroBytes cbwBuffer 31
  store32 cbwBuffer 0x43425355
  modify fun s => { s with usbTag := add32 s.usbTag 1 }
  store32 (cbwBuffer + 4) (← get).usbTag
  store32 (cbwBuffer + 8) length
  storeList (cbwBuffer + 12) [0x80]
  storeList (cbwBuffer + 14) [command.length]
  storeList (cbwBuffer + 15) command

/-- `scsi`: 1 success, 0 check condition, -1 dead transport. -/
def scsi (command : List ℕ) (length : ℕ) : StorageM ℤ := do
  if storageReadCdbValid command length = false then return -1
  else
    putCbw command length
    if (← bulk false cbwBuffer 31) = false then return -1 else scsiAnswer length

/-- The attempts of `storage_ready`. -/
def storageReadyAttempts : ℕ → StorageM Bool
  | 0 => return false
  | n + 1 => do
    let result ← scsi [0, 0, 0, 0, 0, 0] 0
    if result < 0 then return false
    else if result = 1 then
      if (← scsi [0x25, 0, 0, 0, 0, 0, 0, 0, 0, 0] 8) ≠ 1 then return false
      else if (← be32 (transferBuffer + 4)) ≠ 512 then return false
      else
        let last ← be32 transferBuffer
        modify fun s => { s with lastBlock := last }
        return 4095 ≤ last ∧ last ≠ 0xFFFFFFFF
    else if (← scsi [3, 0, 0, 0, 18, 0] 18) < 0 then return false
    else
      delay 100
      storageReadyAttempts n

/-- `storage_ready`. -/
def storageReady : StorageM Bool := do
  report 1 6
  storageReadyAttempts 30

/-- `usb_read`. -/
def usbRead (lba blocks : ℕ) : StorageM Bool := do
  let last := (← get).lastBlock
  if blocks = 0 ∨ blocksPerRead < blocks ∨ last < lba ∨ last - lba < blocks - 1 then return false
  else
    let command := [0x28, 0] ++ putBe32 lba ++ [0, blocks >>> 8 % 2 ^ 8, blocks % 2 ^ 8, 0]
    return (← scsi command (blocks * 512)) = 1

/-! ### ATA -/

/-- `ata_wait`. -/
def ataWait (mask wanted : ℕ) : StorageM Bool := do
  let status ← in8 ((← get).ataPort + 7)
  return status ≠ 0 ∧ status ≠ 255 ∧ status &&& 0x80 = 0 ∧ status &&& 0x21 = 0 ∧
    status &&& mask = wanted

/-- Four reads of the alternate status, about 400 ns. -/
def ataSettle : StorageM Unit :=
  upTo 4 fun _ => do
    let _ ← in8 ((← get).ataPort + 0x206)
    return ()

/-- `inw` from the data port. -/
def inData : StorageM ℕ := do
  let value ← ask (.data (← get).ataPort)
  modify fun s => { s with ataWords := s.ataWords ++ [value] }
  return value

/-- One sector from the data port. -/
def ataSector (destination : ℕ) : StorageM Unit :=
  upTo 256 fun i => do
    let value ← inData
    store16 (destination + 2 * i) value

/-- The sectors of `ata_read` from `sector` on. -/
def ataSectors : ℕ → ℕ → StorageM Bool
  | 0, _ => return true
  | n + 1, sector => do
    ataSettle
    if (← ataWait 8 8) = false then return false
    else
      ataSector (transferBuffer + sector * 512)
      ataSectors n (sector + 1)

/-- `ata_read`. -/
def ataRead (lba blocks : ℕ) : StorageM Bool := do
  if blocks = 0 ∨ blocksPerRead < blocks ∨ 0x0FFFFFFF < lba ∨ 0x0FFFFFFF - lba < blocks - 1 then
    return false
  else
    let s ← get
    out8 (s.ataPort + 0x206) 2
    out8 (s.ataPort + 6) (0xE0 ||| s.ataDevice <<< 4 ||| lba >>> 24)
    ataSettle
    if (← ataWait 0xC0 0x40) = false then return false
    else
      out8 (s.ataPort + 2) blocks
      out8 (s.ataPort + 3) lba
      out8 (s.ataPort + 4) (lba >>> 8)
      out8 (s.ataPort + 5) (lba >>> 16)
      out8 (s.ataPort + 7) 0x20
      if (← ataSectors blocks 0) = false then return false
      else
        ataSettle
        ataWait 0x88 0

end VirtualKernel
