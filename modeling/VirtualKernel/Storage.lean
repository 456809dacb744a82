/-
The storage service of `Drivers/Storage/Storage.c`: discovery, the read-only
kernel calls and `storage_syscall`.

`find_usb_disk` and `start_controller` stand here and not with the transport,
because in the kernel they use the MMIO alias and the hand-over of ports.
`map_page` only replaces the entry of `STORAGE_MMIO` (`mmioPte`): the table
that holds it exists since `storage_initialize`.
-/
import VirtualKernel.StorageTransport

namespace VirtualKernel

open Lib

abbrev storageMaxBlocks : ℕ := 32
abbrev storageDeviceCount : ℕ := 5
abbrev storageUsb : ℕ := 1
abbrev storageAta : ℕ := 2
abbrev storageReadOnly : ℕ := 1
abbrev syscallStorageInfo : ℕ := 5
abbrev syscallStorageRead : ℕ := 6
abbrev syscallStorageDevices : ℕ := 7

/-! `enum storage_result`. -/

abbrev storageOk : ℕ := 0
abbrev storageNoDevice : ℕ := 0xFFFF0001
abbrev storageBadArgument : ℕ := 0xFFFF0002
abbrev storageIoError : ℕ := 0xFFFF0003
abbrev storageAccessDenied : ℕ := 0xFFFF0004
abbrev storageBadBuffer : ℕ := 0xFFFF0005
abbrev storageNotReady : ℕ := 0xFFFF0006

abbrev procPdWord : ℕ := 0
abbrev procSlotWord : ℕ := 14
abbrev procTypeWord : ℕ := 15
abbrev procStorageWord : ℕ := 17
abbrev tablePoolStart : ℕ := 0x30500000
abbrev tablePoolEnd : ℕ := 0x30800000

/-- The bytes of a `struct storage_device_info`. -/
def StorageDeviceInfo.bytes (d : StorageDeviceInfo) (i : ℕ) : UInt8 :=
  if i < 4 then UInt8.ofNat (d.type >>> (8 * i))
  else if i < 8 then UInt8.ofNat (d.sectorSize >>> (8 * (i - 4)))
  else if i < 12 then UInt8.ofNat (d.blockCount >>> (8 * (i - 8)))
  else if i < 16 then UInt8.ofNat (d.flags >>> (8 * (i - 12)))
  else UInt8.ofNat (d.model (i - 16))

/-- `sizeof(struct storage_device_info)`. -/
abbrev storageInfoSize : ℕ := 56

/-! ### Pure checks -/

/-- `storage_valid_range`. -/
def storageValidRange (capacity lba blocks : ℕ) : Bool :=
  blocks ≠ 0 ∧ blocks ≤ storageMaxBlocks ∧ lba < capacity ∧ blocks ≤ capacity - lba

/-- `storage_identify_capacity`. -/
def storageIdentifyCapacity (words : ℕ → ℕ) : ℕ :=
  if words 0 &&& 0x8004 ≠ 0 ∨ words 49 &&& 0x200 = 0 then 0
  else if words 106 &&& 0xC000 = 0x4000 ∧ words 106 &&& 0x1000 ≠ 0 ∧
      (words 117 ≠ 256 ∨ words 118 ≠ 0) then 0
  else
    let blocks := words 60 ||| words 61 <<< 16
    if 0x10000000 < blocks then 0x10000000 else blocks

/-- `storage_user_range`: the linear address, or 0. -/
def storageUserRange (slot offset size : ℕ) : ℕ :=
  if slot < 0x100000 ∨ 0x40000000 - 0xA00000 < slot ∨ size = 0 ∨ 0x500000 ≤ offset ∨
      0x500000 - offset < size then 0
  else add32 (add32 slot 0x400000) offset

/-- `storage_user_page_writable`. -/
def storageUserPageWritable (pde pte : ℕ) : Bool := pde &&& 0x87 = 7 ∧ pte &&& 0x207 = 0x207

/-- `valid_table`. -/
def validTable (physical : ℕ) : Bool :=
  tablePoolStart ≤ physical ∧ physical < tablePoolEnd ∧ physical &&& 4095 = 0

/-! ### The EHCI controller -/

/-- `storage_map_mmio_window`, for the alias of the driver. -/
def storageMapMmio (physical : ℕ) : StorageM ℕ := do
  let page := pageAddr physical
  let offset := physical &&& 0xFFF
  if page = 0 ∨ physical &&& 15 ≠ 0 ∨ 0xF00 < offset then return 0
  else if (← get).mappedMmio = page then return storageMmioBase + offset
  else if (← ask .mapped) = 0 then return 0
  else
    modify fun s => { s with mmioPte := page ||| 0x1B, mappedMmio := page }
    return storageMmioBase + offset

/-- `storage_handoff_ports` for one port. -/
def handoffPort (keepPort port : ℕ) : StorageM Unit := do
  if port = keepPort then return ()
  else
    let index := (0x44 + port * 4) / 4
    let value ← ehciRead index
    ehciWrite index ((value &&& (2 ^ 32 - 1 - (0x2A ||| 4))) ||| 1 <<< 13)
    let _ ← ehciRead index
    return ()

/-- `storage_handoff_ports`. -/
def storageHandoffPorts (ports keepPort : ℕ) : StorageM Unit := do
  let s ← get
  if s.companionTarget = 0 ∨ s.ehci = 0 then return ()
  else
    modify fun s => { s with companionPorts := ports, companionKeep := keepPort }
    upTo ports (handoffPort keepPort)
    modify fun s => { s with companionsReady := true }

/-- The BIOS hand-over in `start_controller`: the extended capabilities from
`extended` on, with the turns that remain. -/
def legacyHandoff (device : ℕ) : ℕ → ℕ → StorageM Bool
  | 0, _ => return true
  | n + 1, extended => do
    if extended = 0 then return true
    else if extended < 0x40 ∨ 0xF8 < extended ∨ extended &&& 3 ≠ 0 then return false
    else
      let legacy ← pciRead device extended
      let next := legacy >>> 8 &&& 255
      if legacy &&& 255 = 1 then
        pciWrite device extended (legacy ||| 1 <<< 24)
        let _ ← tsc
        if (← pciRead device extended) &&& 1 <<< 16 ≠ 0 then return false
        else
          pciWrite device (extended + 4) 0
          if n = 0 ∧ next ≠ 0 then return false else legacyHandoff device n next
      else if n = 0 ∧ next ≠ 0 then return false
      else legacyHandoff device n next

/-- The power-up of one root port in `start_controller`. -/
def powerPort (capability port : ℕ) : StorageM Unit := do
  let value := (← ehciRead (0x44 / 4 + port)) &&& (2 ^ 32 - 1 - 0x2A)
  let parameters ← mmioRead (capability + 4)
  ehciWrite (0x44 / 4 + port) (if parameters &&& 16 ≠ 0 then value ||| 1 <<< 12 else value)

/-- `ehci[4] = 0` where the controller has 64-bit addresses. -/
def clearSegment (capability : ℕ) : StorageM Unit := do
  if (← mmioRead (capability + 8)) &&& 1 ≠ 0 then ehciWrite 4 0 else return ()

/-- `start_controller` with both schedules set up: run the controller and take
over its ports. -/
def startSchedule : StorageM Unit := do
  upTo 1024 fun i => store32 (periodicList + 4 * i) 1
  ehciWrite 5 periodicList
  ehciWrite 6 dmaBase
  ehciWrite 0 1
  if (← waitRegister 4 (1 <<< 12) 0) = false then storageFail else ehciWrite (0x40 / 4) 1

/-- `start_controller` from the reset on, with `ehci` set. -/
def resetController (capability : ℕ) : StorageM ℕ := do
  stopController
  ehciWrite 0 2
  if (← waitRegister 0 2 0) = false then storageFail
  else
    ehciWrite 2 0
    ehciWrite 1 0x3F
    clearSegment capability
    startSchedule
    let ports := (← mmioRead (capability + 4)) &&& 15
    upTo ports (powerPort capability)
    delay 100
    return ports

/-- `start_controller`: the number of ports. -/
def startController (device : ℕ) : StorageM ℕ := do
  report 1 2
  report 2 device
  let bar ← pciRead device 0x10
  if bar &&& 7 ≠ 0 ∨ bar &&& 0xFFFFFFF0 < 0x80000000 ∨ bar = 0xFFFFFFFF then return 0
  else
    pciWrite device 4 (((← pciRead device 4) &&& 0xFFFF) ||| 6)
    let capability ← storageMapMmio (bar &&& 0xFFFFFFF0)
    if capability = 0 then return 0
    else
      let length := (← mmioRead capability) &&& 255
      if length < 0x10 ∨ 0x80 < length ∨ length &&& 3 ≠ 0 then return 0
      else
        let extended := (← mmioRead (capability + 8)) >>> 8 &&& 255
        if (← legacyHandoff device 48 extended) = false then return 0
        else
          modify fun s => { s with ehci := capability + length }
          resetController capability

/-! ### Discovery -/

/-- A device that answers on a port that was reset: `enumerate_storage` and
`storage_ready`. -/
def probePort (index : ℕ) : StorageM Bool := do
  let value ← ehciRead index
  if value &&& 5 = 5 ∧ value &&& 1 <<< 13 = 0 then
    if (← enumerateStorage) = false then return false else storageReady
  else return false

/-- One port of the loop of `find_usb_disk`: whether a disk was found. -/
def findOnPort (port : ℕ) : StorageM Bool := do
  let index := (0x44 + port * 4) / 4
  let value ← ehciRead index
  if value &&& 1 = 0 ∨ value &&& 1 <<< 13 ≠ 0 then return false
  else
    report 1 3
    report 3 (port + 1)
    ehciWrite index ((value &&& (2 ^ 32 - 1 - (0x2A ||| 4))) ||| 1 <<< 8)
    delay 50
    ehciWrite index ((← ehciRead index) &&& (2 ^ 32 - 1 - (0x2A ||| 1 <<< 8)))
    if (← waitRegister (0x44 + port * 4) (1 <<< 8) 0) = false then storageFail
    else
      delay 20
      if (← probePort index) then return true
      else
        ehciWrite index ((← ehciRead index) &&& (2 ^ 32 - 1 - (0x2A ||| 4)))
        return false

/-- The ports of `find_usb_disk`, `n` of them from `port` on: the port of the
disk. -/
def findOnPorts : ℕ → ℕ → StorageM (Option ℕ)
  | 0, _ => return none
  | n + 1, port => do
    if (← findOnPort port) then return some port else findOnPorts n (port + 1)

/-- The hand-over of the ports of a controller without a disk. -/
def handoffAll (ports : ℕ) : StorageM Unit := do
  if ports = 0 then return () else storageHandoffPorts ports 0xFFFFFFFF

/-- One controller of `find_usb_disk`. -/
def findOnController (device : ℕ) : StorageM Bool := do
  let ports ← startController device
  match ← findOnPorts ports 0 with
  | some port =>
    storageHandoffPorts ports port
    return true
  | none =>
    handoffAll ports
    stopController
    modify fun s => { s with ehci := 0 }
    return false

/-- `storage_usb_candidate` and the class of the device. -/
def usbCandidate (device : ℕ) : StorageM Bool := do
  let target := (← get).companionTarget
  if target ≠ 0 ∧ device ≠ target then return false
  else if (← pciRead device 0) &&& 0xFFFF = 0xFFFF then return false
  else return (← pciRead device 8) >>> 8 = 0x0C0320

/-- The `n` PCI functions of `find_usb_disk` from `device` on. -/
def findUsbDiskFrom : ℕ → ℕ → StorageM Bool
  | 0, _ => return false
  | n + 1, device => do
    if (← usbCandidate device) then
      if (← findOnController device) then return true else findUsbDiskFrom n (device + 0x100)
    else findUsbDiskFrom n (device + 0x100)

/-- `find_usb_disk`. -/
def findUsbDisk : StorageM Bool := findUsbDiskFrom 0x10000 0

/-- `identify_ata`. -/
def identifyAta : StorageM Bool := do
  let s ← get
  out8 (s.ataPort + 0x206) 2
  out8 (s.ataPort + 6) (0xA0 ||| s.ataDevice <<< 4)
  ataSettle
  let status ← in8 (s.ataPort + 7)
  if status = 0 ∨ status = 255 ∨ status &&& 0x88 ≠ 0 then return false
  else
    out8 (s.ataPort + 2) 0
    out8 (s.ataPort + 3) 0
    out8 (s.ataPort + 4) 0
    out8 (s.ataPort + 5) 0
    out8 (s.ataPort + 7) 0xEC
    ataSettle
    if (← ataWait 8 8) = false then return false
    else
      ataSector transferBuffer
      ataSettle
      ataWait 0x88 0

/-- The 16-bit words of the transfer buffer. -/
def identifyWords (m : ℕ → UInt8) (i : ℕ) : ℕ :=
  (m (transferBuffer + 2 * i)).toNat + (m (transferBuffer + 2 * i + 1)).toNat <<< 8

/-- The record of an ATA disk. -/
def ataInfo (words : ℕ → ℕ) (capacity : ℕ) : StorageDeviceInfo where
  type := storageAta
  sectorSize := 512
  blockCount := capacity
  flags := storageReadOnly
  model := fun i => if i % 2 = 0 then words (27 + i / 2) >>> 8 else words (27 + i / 2) % 2 ^ 8

/-- Enter a device in the table. -/
def addDevice (id : ℕ) (info : StorageDeviceInfo) : StorageM Unit :=
  modify fun s => { s with
    devices := Function.update s.devices id info
    deviceMask := s.deviceMask ||| 1 <<< id }

/-- One device of a channel in `discover_ata`. -/
def discoverAtaDevice (channel device : ℕ) : StorageM Unit := do
  modify fun s => { s with ataDevice := device }
  if (← identifyAta) = false then return ()
  else
    let words := identifyWords (← get).mem
    let capacity := storageIdentifyCapacity words
    if capacity = 0 then return () else addDevice (1 + channel * 2 + device) (ataInfo words capacity)

/-- One channel of a controller in `discover_ata`: the channels seen. -/
def discoverAtaChannel (mode seen channel : ℕ) : StorageM ℕ := do
  if mode &&& (if channel = 0 then 1 else 4) ≠ 0 ∨ seen.testBit channel then return seen
  else
    modify fun s => { s with ataPort := if channel = 0 then 0x1F0 else 0x170 }
    upTo 2 (discoverAtaDevice channel)
    modify fun s => { s with ataDevice := 2 }
    return seen ||| 1 <<< channel

/-- One PCI function of `discover_ata`. -/
def discoverAtaFunction (pci seen : ℕ) : StorageM ℕ := do
  if (← pciRead pci 0) &&& 0xFFFF = 0xFFFF then return seen
  else
    let code ← pciRead pci 8
    if code >>> 16 ≠ 0x0101 then return seen
    else if (← pciRead pci 4) &&& 1 = 0 then return seen
    else
      let mode := code >>> 8 &&& 255
      let seen ← discoverAtaChannel mode seen 0
      discoverAtaChannel mode seen 1

/-- The `n` PCI functions of `discover_ata` from `pci` on. -/
def discoverAtaFrom : ℕ → ℕ → ℕ → StorageM Unit
  | 0, _, _ => return ()
  | n + 1, pci, seen => do
    let seen ← discoverAtaFunction pci seen
    discoverAtaFrom n (pci + 0x100) seen

/-- `discover_ata`. -/
def discoverAta : StorageM Unit := discoverAtaFrom 0x10000 0 0

/-- The characters of the model of a USB disk, padded with blanks. -/
def usbModel (i : ℕ) : ℕ := ("USB mass storage".toList.map Char.toNat).getD i 0x20

/-- `discover_usb`. -/
def discoverUsb : StorageM Unit := do
  if (← get).usbDiscovered then return ()
  else
    modify fun s => { s with usbDiscovered := true }
    calibrateTimer
    zeroBytes dmaBase dmaSize
    if (← findUsbDisk) then
      let blocks := add32 (← get).lastBlock 1
      addDevice 0 ⟨storageUsb, 512, blocks, storageReadOnly, usbModel⟩
    else return ()

/-- `discover_storage`. -/
def discoverStorage : StorageM Unit := do
  if (← get).discovered then return ()
  else
    modify fun s => { s with discovered := true }
    discoverUsb
    discoverAta

/-! ### Kernel calls -/

/-- `storage_initialize` as far as the driver's own variables go; the page tables
and the pointer that it publishes for the SYSENTER handler are the kernel's. -/
def storageInitializeDriver : StorageM Unit := do
  if (← get).initialized then return ()
  else if (← ask .mapped) = 0 then storageFail
  else modify fun s => { s with mmioPte := 0x3004F000 ||| 0x003, initialized := true }

/-- `companions_ready ? ticks_per_ms : 0`. -/
def companionsResult : StorageM ℕ := do
  let s ← get
  return if s.companionsReady then s.ticksPerMs else 0

/-- `storage_prepare_usb_companions`. -/
def storagePrepareUsbCompanions (ehciPci : ℕ) : StorageM ℕ := do
  let s ← get
  if s.initialized = false ∨ s.usbDiscovered then companionsResult
  else
    modify fun s => { s with companionTarget := ehciPci }
    discoverUsb
    companionsResult

/-- `storage_refresh_usb_companions` for one port. -/
def refreshPort (keep port : ℕ) : StorageM Unit := do
  if port = keep then return ()
  else
    let index := (0x44 + port * 4) / 4
    let value ← ehciRead index
    if value &&& 0x2001 = 1 then
      ehciWrite index ((value &&& (2 ^ 32 - 1 - (0x2A ||| 4))) ||| 0x2000)
      let _ ← ehciRead index
      return ()
    else return ()

/-- `storage_refresh_usb_companions`. -/
def storageRefreshUsbCompanions : StorageM Unit := do
  let s ← get
  if s.companionsReady ∧ s.ehci ≠ 0 then upTo s.companionPorts (refreshPort s.companionKeep)
  else return ()

/-- `storage_device_mask`. -/
def storageDeviceMask : StorageM ℕ := do
  if (← get).initialized then
    discoverStorage
    return (← get).deviceMask
  else return (← get).deviceMask

/-- `storage_get_info`. -/
def storageGetInfo (device info : ℕ) : StorageM ℕ := do
  if (← get).initialized = false then return storageNotReady
  else if info = 0 ∨ storageDeviceCount ≤ device then return storageBadArgument
  else
    discoverStorage
    let s ← get
    if s.deviceMask.testBit device then
      storeBytes info storageInfoSize (s.devices device).bytes
      return storageOk
    else return storageNoDevice

/-- The transport of `storage_read` for an ATA disk. -/
def readAta (device lba blocks : ℕ) : StorageM Bool := do
  modify fun s => { s with
    ataPort := if 2 < device then 0x170 else 0x1F0
    ataDevice := (device - 1) &&& 1 }
  if (← ataRead lba blocks) then return true
  else
    let first := (device - 1) / 2 * 2
    modify fun s => { s with
      ataDead := Function.update (Function.update s.ataDead first true) (first + 1) true }
    return false

/-- The transport of `storage_read`. -/
def readTransport (device lba blocks : ℕ) : StorageM Bool := do
  if device = 0 then usbRead lba blocks
  else if (← get).ataDead (device - 1) then return false
  else readAta device lba blocks

/-- `memcpy(buffer, TRANSFER_BUFFER, size)`. -/
def copyOut (buffer size : ℕ) : StorageM Unit := do
  let m := (← get).mem
  storeBytes buffer size fun i => m (transferBuffer + i)

/-- `storage_read`. -/
def storageRead (device lba blocks buffer : ℕ) : StorageM ℕ := do
  if (← get).initialized = false then return storageNotReady
  else if buffer = 0 ∨ storageDeviceCount ≤ device ∨ blocks = 0 ∨ storageMaxBlocks < blocks then
    return storageBadArgument
  else
    discoverStorage
    let s ← get
    if s.deviceMask.testBit device = false then return storageNoDevice
    else if storageValidRange (s.devices device).blockCount lba blocks = false then
      return storageBadArgument
    else if (← readTransport device lba blocks) then
      copyOut buffer (blocks * 512)
      return storageOk
    else return storageIoError

/-! ### System calls -/

/-- A word of the process object at `process`. -/
def processWord (m : ℕ → UInt8) (process i : ℕ) : ℕ := word m (process + 4 * i)

/-- The entries of the directory `pd` for a page, as `user_output` reads them. -/
def pdeOf (m : ℕ → UInt8) (pd page : ℕ) : ℕ := word m (pd + 4 * (page >>> 22))

def pteOf (m : ℕ → UInt8) (pd page : ℕ) : ℕ :=
  word m (pageAddr (pdeOf m pd page) + 4 * (page >>> 12 &&& 1023))

/-- The test of one page in `user_output`. -/
def userPage (m : ℕ → UInt8) (pd page : ℕ) : Bool :=
  let pde := pdeOf m pd page
  pde &&& 0x87 = 7 ∧ validTable (pageAddr pde) ∧ storageUserPageWritable pde (pteOf m pd page)

/-- The page loop of `user_output` from `page` to `last`, for at most `fuel`
turns. -/
def userPages (m : ℕ → UInt8) (pd last : ℕ) : ℕ → ℕ → Option Bool
  | 0, _ => none
  | fuel + 1, page =>
    if page ≤ last then
      if userPage m pd page then userPages m pd last fuel (add32 page 4096) else some false
    else some true

/-- `user_output`: the linear address, or 0.  A loop over more pages than there
are goes on for ever. -/
def userOutput (process offset size : ℕ) : StorageM ℕ := do
  let s ← get
  let linear := storageUserRange (processWord s.mem process procSlotWord) offset size
  let pd := processWord s.mem process procPdWord
  if linear = 0 ∨ processWord s.mem process procTypeWord ≠ 0 ∨ validTable pd = false ∨
      pageAddr s.cr3 ≠ pd then return 0
  else
    let stop := sub32 (add32 linear size) 1
    match userPages s.mem pd (pageAddr stop) (2 ^ 20 + 1) (pageAddr linear) with
    | none => fun _ => none
    | some false => return 0
    | some true => return linear

/-- `struct storage_registers`. -/
structure StorageRegisters where
  edi : ℕ
  esi : ℕ
  ebp : ℕ
  ignoredEsp : ℕ
  ebx : ℕ
  edx : ℕ
  ecx : ℕ
  eax : ℕ

/-- The number of bytes that a request writes. -/
def StorageRegisters.size (r : StorageRegisters) : ℕ :=
  if r.eax = syscallStorageInfo then storageInfoSize else 512

/-- `storage_syscall` behind the check of the buffer. -/
def storageService (r : StorageRegisters) (buffer : ℕ) : StorageM ℕ := do
  if buffer = 0 then return storageBadBuffer
  else if r.eax = syscallStorageInfo then storageGetInfo r.ebx buffer
  else storageRead r.ebx r.esi 1 buffer

/-- `storage_syscall`. -/
def storageSyscall (r : StorageRegisters) (owner : ℕ) : StorageM ℕ := do
  let s ← get
  if s.initialized = false then return storageNotReady
  else if owner = 0 then return storageAccessDenied
  else if processWord s.mem owner procStorageWord ≠ 1 ∨
      processWord s.mem owner procTypeWord ≠ 0 then return storageAccessDenied
  else if r.eax = syscallStorageDevices then storageDeviceMask
  else if r.eax ≠ syscallStorageInfo ∧ r.eax ≠ syscallStorageRead then return storageBadArgument
  else
    let buffer ← userOutput owner r.edi r.size
    storageService r buffer

end VirtualKernel
