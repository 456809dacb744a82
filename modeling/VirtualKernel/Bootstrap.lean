/-
The bootstrap.

`bootstrap_load_images` looks for the disk that it was loaded from, behind a USB
controller or at an IDE channel, and loads the payloads of its manifest.  What it
shows on the screen is left out.  `BootSpare` says what a routine leaves alone: the
manifest and the memory of the payloads lie behind the driver's own memory, and
registers are nowhere near them.

* **`bootstrap_returns`** — there are disks with which the bootstrap of a built image returns;
* **`bootstrap_loads`** — when the bootstrap of a built image returns, both payloads
  have the checksums of what was built, so neither was damaged within 32 bits.
-/
import VirtualKernel.BootImage
import VirtualKernel.StorageAnswers
import VirtualKernel.StorageSearch

namespace VirtualKernel

open Lib

abbrev bootstrapBase : ℕ := 0x30000000
abbrev manifestBase : ℕ := 0x30000800
abbrev bootSectorBase : ℕ := 0x7C00
abbrev highBase : ℕ := 0x34000000
abbrev interruptsBase : ℕ := 0x32000000
abbrev bootBssStart : ℕ := 0x30040000

/-- The extent of the variables, below the report. -/
structure BootBss where
  size : ℕ
  fits : bootBssStart + size ≤ bootReport

/-! ### The search -/

/-- `equal`. -/
def equalBytes (a b size : ℕ) : StorageM Bool := do
  let m := (← get).mem
  return ∀ i < size, m (a + i) = m (b + i)

/-- The stage in the report, behind a USB controller. -/
def reportMatching (backend : ℕ) : StorageM Unit := if backend = 1 then report 1 7 else return ()

/-- `matches_boot_image`. -/
def matchesBootImage (backend : ℕ) : StorageM Bool := do
  reportMatching backend
  if (← readBlocks backend 0 1) = false then return false
  else if (← equalBytes transferBuffer bootSectorBase 16) = false then return false
  else if (← loadByte (transferBuffer + 510)) ≠ 0x55 then return false
  else if (← loadByte (transferBuffer + 511)) ≠ 0xAA then return false
  else if (← readBlocks backend 5 1) = false then return false
  else equalBytes transferBuffer manifestBase 40

/-- `start_controller` of the bootstrap, where the registers are not mapped. -/
def bootStartController (device : ℕ) : StorageM ℕ := do
  report 1 2
  report 2 device
  let bar ← pciRead device 0x10
  if bar &&& 7 ≠ 0 ∨ bar &&& 0xFFFFFFF0 < 0x80000000 ∨ bar = 0xFFFFFFFF then return 0
  else
    pciWrite device 4 (((← pciRead device 4) &&& 0xFFFF) ||| 6)
    -- paging is off here, and the registers are where they are
    let capability := bar &&& 0xFFFFFFF0
    let length := (← mmioRead capability) &&& 255
    if length < 0x10 ∨ 0x80 < length ∨ length &&& 3 ≠ 0 then return 0
    else
      let extended := (← mmioRead (capability + 8)) >>> 8 &&& 255
      if (← legacyHandoff device 48 extended) = false then return 0
      else
        modify fun s => { s with ehci := add32 capability length }
        resetController capability

/-- A port with a disk that is the boot disk. -/
def bootProbePort (index : ℕ) : StorageM Bool := do
  if (← probePort index) = false then return false else matchesBootImage 1

/-- One port of `find_usb_disk`. -/
def bootFindOnPort (port : ℕ) : StorageM Bool := do
  let index := (0x44 + port * 4) / 4
  let value ← ehciRead index
  if value &&& 1 = 0 ∨ value &&& 1 <<< 13 ≠ 0 then return false
  else
    report 1 3
    report 3 (port + 1)
    ehciWrite index ((value &&& (2 ^ 32 - 1 - (0x2A ||| 4))) ||| 1 <<< 8)
    delay 50
    ehciWrite index ((← ehciRead index) &&& (2 ^ 32 - 1 - (0x2A ||| 1 <<< 8)))
    if (← waitRegister (0x44 + port * 4) (1 <<< 8) 0) = false then storageFail
    else
      delay 20
      if (← bootProbePort index) then return true
      else
        ehciWrite index ((← ehciRead index) &&& (2 ^ 32 - 1 - (0x2A ||| 4)))
        return false

/-- The `n` ports of `find_usb_disk` from `port` on. -/
def bootFindOnPorts : ℕ → ℕ → StorageM Bool
  | 0, _ => return false
  | n + 1, port => do
    if (← bootFindOnPort port) then return true else bootFindOnPorts n (port + 1)

/-- One controller of `find_usb_disk`. -/
def bootFindOnController (device : ℕ) : StorageM Bool := do
  let ports ← bootStartController device
  if (← bootFindOnPorts ports 0) then return true
  else
    stopController
    modify fun s => { s with ehci := 0 }
    return false

/-- The class of a USB 2.0 controller. -/
def bootUsbCandidate (device : ℕ) : StorageM Bool := do
  if (← pciRead device 0) &&& 0xFFFF = 0xFFFF then return false
  else return (← pciRead device 8) >>> 8 = 0x0C0320

/-- The `n` PCI functions of `find_usb_disk` from `device` on. -/
def bootFindUsbDiskFrom : ℕ → ℕ → StorageM Bool
  | 0, _ => return false
  | n + 1, device => do
    if (← bootUsbCandidate device) then
      if (← bootFindOnController device) then return true else bootFindUsbDiskFrom n (device + 0x100)
    else bootFindUsbDiskFrom n (device + 0x100)

/-- The devices of a channel of `find_ide_disk`, `n` of them from `device` on. -/
def findOnChannel : ℕ → ℕ → StorageM Bool
  | 0, device => do
    modify fun s => { s with ataDevice := device }
    return false
  | n + 1, device => do
    modify fun s => { s with ataDevice := device }
    if (← matchesBootImage 2) then return true else findOnChannel n (device + 1)

/-- The channels of `find_ide_disk`, `n` of them from `channel` on. -/
def findOnChannels (mode : ℕ) : ℕ → ℕ → StorageM Bool
  | 0, _ => return false
  | n + 1, channel => do
    if mode &&& (if channel = 0 then 1 else 4) ≠ 0 then findOnChannels mode n (channel + 1)
    else
      modify fun s => { s with ataPort := if channel = 0 then 0x1F0 else 0x170 }
      if (← findOnChannel 2 0) then return true else findOnChannels mode n (channel + 1)

/-- The programming interface of an IDE controller that is switched on. -/
def ideMode (device : ℕ) : StorageM (Option ℕ) := do
  if (← pciRead device 0) &&& 0xFFFF = 0xFFFF then return none
  else
    let classCode ← pciRead device 8
    if classCode >>> 16 ≠ 0x0101 then return none
    else if (← pciRead device 4) &&& 1 = 0 then return none
    else return some (classCode >>> 8 &&& 255)

/-- The `n` PCI functions of `find_ide_disk` from `device` on. -/
def findIdeDiskFrom : ℕ → ℕ → StorageM Bool
  | 0, _ => return false
  | n + 1, device => do
    match ← ideMode device with
    | none => findIdeDiskFrom n (device + 0x100)
    | some mode =>
      if (← findOnChannels mode 2 0) then return true else findIdeDiskFrom n (device + 0x100)

/-! ### The entry -/

/-- The variables start as zero. -/
def clearBootBss (bss : BootBss) : StorageM Unit := do
  zeroBytes bootBssStart bss.size
  modify fun s => { s with
    ehci := 0, ticksPerMs := 0, usbAddress := 0, usbTag := 0, lastBlock := 0, toggleIn := 0
    toggleOut := 0, transportDead := false, usbInterface := ⟨0, 0, 0, 0⟩, ataPort := 0
    ataDevice := 0 }

/-- `find_usb_disk` and `find_ide_disk`: the value of `backend`. -/
def findBootDisk : StorageM ℕ := do
  if (← bootFindUsbDiskFrom 0x10000 0) then return 1
  else if (← findIdeDiskFrom 0x10000 0) then return 2
  else storageFail

/-- Load the payloads of the manifest. -/
def loadPayloads (backend : ℕ) : StorageM Unit := do
  let m := manifestAt (← get).mem manifestBase
  loadImage backend m.highLba m.highSectors highBase (BitVec.ofNat 32 m.highCrc)
  let m := manifestAt (← get).mem manifestBase
  loadImage backend m.interruptsLba m.interruptsSectors interruptsBase
    (BitVec.ofNat 32 m.interruptsCrc)

/-- `bootstrap_load_images`. -/
def bootstrapLoadImages (bss : BootBss) : StorageM Unit := do
  clearBootBss bss
  zeroBytes bootReport 32
  report 0 0x42535452
  report 1 1
  zeroBytes dmaBase 0x7000
  if bootManifestValid (manifestAt (← get).mem manifestBase) = false then storageFail
  else
    calibrateTimer
    let backend ← findBootDisk
    report 7 backend
    loadPayloads backend
    stopController
    report 1 8

/-! ### What the bootstrap leaves alone -/

/-- The manifest and the memory of the payloads. -/
def BootKept (a : ℕ) : Prop :=
  manifestBase ≤ a ∧ a < manifestBase + 40 ∨ interruptsBase ≤ a ∧ a < highBase + 256 * 512

/-- Where the registers of a controller can be. -/
def Registers (e : ℕ) : Prop := e < 0x1000 ∨ 0x80000000 ≤ e

/-- `ehci` stays at registers, and the addresses `K` keep their bytes. -/
def BootSpare (K : ℕ → Prop) (s t : Storage) : Prop :=
  Registers s.ehci → Registers t.ehci ∧ ∀ a, K a → t.mem a = s.mem a

instance {K : ℕ → Prop} : IsPreorder Storage (BootSpare K) where
  refl _ h := ⟨h, fun _ _ => rfl⟩
  trans _ _ _ h h' hs :=
    ⟨(h' (h hs).1).1, fun a ha => ((h' (h hs).1).2 a ha).trans ((h hs).2 a ha)⟩

theorem own_not_kept {a : ℕ} (h : Own a) : ¬BootKept a := by
  simp only [Own, InDma, BootKept, dmaBase, dmaSize, bootReport, storageMmioBase, manifestBase,
    interruptsBase, highBase] at h ⊢
  omega

/-- The memory of the driver, and the registers of the controller at `e`. -/
def BootArea (e a : ℕ) : Prop := Own a ∨ e ≤ a ∧ a < e + 128

theorem Registers.area_not_kept {e a : ℕ} (he : Registers e) (h : BootArea e a) : ¬BootKept a := by
  rcases h with h | h
  · exact own_not_kept h
  · simp only [Registers, BootKept, manifestBase, interruptsBase, highBase] at he ⊢
    omega

theorem Registers.room {e : ℕ} (he : Registers e) : DriverRoom e (BootArea e) where
  far := by
    rw [Registers] at he
    omega
  dma := fun _ h h' => Or.inl (own_dma h h')
  report := fun _ h h' => Or.inl (own_report _ h h')
  registers := fun _ hi => Or.inr ⟨by omega, by omega⟩

section

variable {K : ℕ → Prop} {α : Type} {m : StorageM α} {l : Level} {k : Bool}

/-- A change of variables. -/
theorem spare_vars {g : Storage → Storage} (h : ∀ s, (g s).ehci = s.ehci ∧ (g s).mem = s.mem) :
    Within (BootSpare K) (modify g : StorageM Unit) :=
  within_modify fun s hs => ⟨by rw [(h s).1]; exact hs, fun a _ => congrFun (h s).2 a⟩

variable (hK : ∀ a, K a → BootKept a)

include hK

/-- A routine that stays in memory of the driver. -/
theorem spare_frame {A : ℕ → Prop} {P : StorageOut → Prop} (hA : ∀ a, A a → ¬BootKept a)
    (h : Within (DriverFrame l A P) m) : Within (BootSpare K) m :=
  h.mono fun _ _ hst hs =>
    ⟨by rw [ehci_eq_of_part hst.part]; exact hs, fun a ha => hst.mem a fun h => hA a h (hK a ha)⟩

theorem spare_quiet (h : Within (Quiet Own) m) : Within (BootSpare K) m :=
  spare_frame hK (fun _ => own_not_kept) h

/-- A routine that uses the controller at `ehci`. -/
theorem spare_ehci (h : ∀ e, Registers e → Within (EhciFrame l (BootArea e) k e) m) :
    Within (BootSpare K) m := by
  intro s r t hr hs
  have hst := h s.ehci hs s r t hr rfl
  exact ⟨by rw [ehci_eq_of_part hst.part]; exact hs,
    fun a ha => hst.mem a fun h => hs.area_not_kept h (hK a ha)⟩

theorem spare_read {index : ℕ} (h : index < 32) : Within (BootSpare K) (ehciRead index) :=
  spare_ehci (l := .wire) (k := true) hK fun _ _ => frame_ehciRead h

theorem spare_wait {offset : ℕ} (mask value : ℕ) (h : offset < 128) :
    Within (BootSpare K) (waitRegister offset mask value) :=
  spare_ehci (l := .wire) (k := true) hK fun _ _ => frame_waitRegister mask value h

theorem spare_write {index : ℕ} (value : ℕ) (h : index < 32) :
    Within (BootSpare K) (ehciWrite index value) :=
  spare_ehci (l := .wire) (k := true) hK fun _ he => frame_ehciWrite he.room.registers value h

theorem spare_stopController : Within (BootSpare K) stopController :=
  spare_ehci (l := .wire) (k := true) hK fun _ he => frame_stopController he.room

/-- A read from the disk leaves the manifest and the payloads alone. -/
theorem spare_readBlocks (backend lba blocks : ℕ) :
    Within (BootSpare K) (readBlocks backend lba blocks) := by
  refine within_ite (fun _ => ?_) fun _ => ?_
  · exact spare_ehci (k := true) hK fun _ he => frame_usbRead he.room lba blocks
  · intro s r t hr hs
    have hst := frame_ataRead s lba blocks r t hr
    exact ⟨by rw [ehci_eq_of_part hst.part]; exact hs, fun a ha =>
      hst.mem a fun h => own_not_kept h (hK a ha)⟩

/-! The search. -/

theorem spare_matchesBootImage (backend : ℕ) : Within (BootSpare K) (matchesBootImage backend) := by
  have hequal : ∀ a b size, Within (BootSpare K) (equalBytes a b size) := fun a b size =>
    within_bind within_get fun _ => within_pure _
  refine within_bind (within_ite (fun _ => spare_quiet hK (quiet_report own_report _ (by decide)))
    fun _ => within_pure _) fun _ => ?_
  refine within_bind (spare_readBlocks hK _ _ _) fun _ => within_ite (fun _ => within_pure _) fun _ => ?_
  refine within_bind (hequal _ _ _) fun _ => within_ite (fun _ => within_pure _) fun _ => ?_
  refine within_bind (spare_quiet hK (quiet_loadByte _)) fun _ => ?_
  refine within_ite (fun _ => within_pure _) fun _ => ?_
  refine within_bind (spare_quiet hK (quiet_loadByte _)) fun _ => ?_
  refine within_ite (fun _ => within_pure _) fun _ => ?_
  refine within_bind (spare_readBlocks hK _ _ _) fun _ => ?_
  exact within_ite (fun _ => within_pure _) fun _ => hequal _ _ _

theorem spare_bootProbePort {index : ℕ} (h : index < 32) : Within (BootSpare K) (bootProbePort index) := by
  refine within_bind (spare_ehci hK fun _ he => frame_probePort he.room h) fun _ => ?_
  exact within_ite (fun _ => within_pure _) fun _ => spare_matchesBootImage hK _

theorem spare_bootFindOnPort {port : ℕ} (h : port < 15) : Within (BootSpare K) (bootFindOnPort port) := by
  have hi : (0x44 + port * 4) / 4 < 32 := by omega
  refine within_bind (spare_read hK hi) fun _ => within_ite (fun _ => within_pure _) fun _ => ?_
  refine within_bind (spare_quiet hK (quiet_report own_report _ (by decide))) fun _ => ?_
  refine within_bind (spare_quiet hK (quiet_report own_report _ (by decide))) fun _ => ?_
  refine within_bind (spare_write hK _ hi) fun _ => ?_
  refine within_bind (spare_quiet hK (quiet_delay _)) fun _ => ?_
  refine within_bind (spare_read hK hi) fun _ => within_bind (spare_write hK _ hi) fun _ => ?_
  refine within_bind (spare_wait hK _ _ (by omega)) fun _ => within_ite (fun _ => within_none) fun _ => ?_
  refine within_bind (spare_quiet hK (quiet_delay _)) fun _ => ?_
  refine within_bind (spare_bootProbePort hK hi) fun _ => within_ite (fun _ => within_pure _) fun _ => ?_
  refine within_bind (spare_read hK hi) fun _ => within_bind (spare_write hK _ hi) fun _ => ?_
  exact within_pure _

theorem spare_bootFindOnPorts {n port : ℕ} (h : port + n ≤ 15) :
    Within (BootSpare K) (bootFindOnPorts n port) := by
  induction n generalizing port with
  | zero => exact within_pure _
  | succ n ih =>
    refine within_bind (spare_bootFindOnPort hK (by omega)) fun _ => ?_
    exact within_ite (fun _ => within_pure _) fun _ => ih (by omega)

theorem spare_capability (c : ℕ) : Within (BootSpare K) (mmioRead c) :=
  within_bind (spare_vars fun _ => ⟨rfl, rfl⟩) fun _ => spare_quiet hK (quiet_ask _)

theorem spare_resetController (c : ℕ) : Within (BootSpare K) (resetController c) := by
  have hp : periodicList = 0x30056000 := rfl
  refine within_bind (spare_stopController hK) fun _ => ?_
  refine within_bind (spare_write hK _ (by decide)) fun _ => ?_
  refine within_bind (spare_wait hK _ _ (by decide)) fun _ => within_ite (fun _ => within_none) fun _ => ?_
  refine within_bind (spare_write hK _ (by decide)) fun _ => ?_
  refine within_bind (spare_write hK _ (by decide)) fun _ => within_bind ?_ fun _ => ?_
  · refine within_bind (spare_capability hK _) fun _ => ?_
    exact within_ite (fun _ => spare_write hK _ (by decide)) fun _ => within_pure _
  refine within_bind ?_ fun _ => within_bind (spare_capability hK _) fun parameters => ?_
  · refine within_bind (within_upTo fun i hi => spare_quiet hK (quiet_store32 _ ?_)) fun _ => ?_
    · exact own_range (by omega) (by omega)
    refine within_bind (spare_write hK _ (by decide)) fun _ => ?_
    refine within_bind (spare_write hK _ (by decide)) fun _ => ?_
    refine within_bind (spare_write hK _ (by decide)) fun _ => ?_
    refine within_bind (spare_wait hK _ _ (by decide)) fun _ => ?_
    exact within_ite (fun _ => within_none) fun _ => spare_write hK _ (by decide)
  have hports : parameters &&& 15 ≤ 15 := Nat.and_le_right
  refine within_bind (within_upTo fun port hport => ?_) fun _ =>
    within_bind (spare_quiet hK (quiet_delay _)) fun _ => within_pure _
  refine within_bind (spare_read hK (by omega)) fun _ => within_bind (spare_capability hK _) fun _ => ?_
  exact spare_write hK _ (by omega)

omit hK in
/-- A controller lies in the upper half of the address space, or its registers wrap around. -/
theorem registers_add32 {bar length : ℕ} (hbar : 0x80000000 ≤ bar &&& 0xFFFFFFF0)
    (hlength : length ≤ 0x80) : Registers (add32 (bar &&& 0xFFFFFFF0) length) := by
  have hle : bar &&& 0xFFFFFFF0 ≤ 0xFFFFFFF0 := Nat.and_le_right
  rw [Registers, add32]
  omega

omit hK in
theorem spare_pciWrite (device offset value : ℕ) : Within (BootSpare K) (pciWrite device offset value) :=
  spare_vars fun _ => ⟨rfl, rfl⟩

theorem spare_bootStartController (device : ℕ) : Within (BootSpare K) (bootStartController device) := by
  refine within_bind (spare_quiet hK (quiet_report own_report _ (by decide))) fun _ => ?_
  refine within_bind (spare_quiet hK (quiet_report own_report _ (by decide))) fun _ => ?_
  refine within_bind (spare_quiet hK (quiet_ask _)) fun bar => ?_
  refine within_ite (fun _ => within_pure _) fun hbar => ?_
  refine within_bind (spare_quiet hK (quiet_ask _)) fun _ => ?_
  refine within_bind (spare_pciWrite _ _ _) fun _ => ?_
  refine within_bind (spare_capability hK _) fun length => ?_
  refine within_ite (fun _ => within_pure _) fun hlength => ?_
  refine within_bind (spare_capability hK _) fun _ => ?_
  refine within_bind (spare_frame hK (fun _ => own_not_kept)
    (frame_legacyHandoff (P := fun _ => True) (fun _ _ _ => trivial) _ _ _)) fun _ => ?_
  refine within_ite (fun _ => within_pure _) fun _ => within_bind (within_modify fun s _ => ?_) fun _ =>
    spare_resetController hK _
  push Not at hbar hlength
  exact ⟨registers_add32 hbar.2.1 hlength.2.1, fun _ _ => rfl⟩

omit hK in
/-- At most 15 ports are found. -/
theorem bootStartController_ports (device : ℕ) (s : Storage) :
    Ensures (bootStartController device) s fun ports _ => ports ≤ 15 := by
  refine ensures_last fun _ _ => ensures_last fun _ _ => ensures_last fun _ _ => ?_
  refine ensures_ite (fun _ => ensures_pure (Nat.zero_le _)) fun _ => ?_
  refine ensures_last fun _ _ => ensures_last fun _ _ => ensures_last fun _ _ => ?_
  refine ensures_ite (fun _ => ensures_pure (Nat.zero_le _)) fun _ => ?_
  refine ensures_last fun _ _ => ensures_last fun _ _ => ?_
  refine ensures_ite (fun _ => ensures_pure (Nat.zero_le _)) fun _ => ?_
  exact ensures_last fun _ _ => resetController_ports _ _

theorem spare_bootFindOnController (device : ℕ) :
    Within (BootSpare K) (bootFindOnController device) := by
  intro s r t hr
  refine (?_ : Ensures (bootFindOnController device) s fun _ t => BootSpare K s t) r t hr
  refine ensures_bind (((spare_bootStartController hK device).ensures s).and
    (bootStartController_ports device s)) fun ports u hu => ?_
  refine Ensures.mono (Within.ensures (T := BootSpare K) ?_ u) fun _ v hv => trans_of (BootSpare K) hu.1 hv
  refine within_bind (spare_bootFindOnPorts hK (by have := hu.2; omega)) fun _ => ?_
  refine within_ite (fun _ => within_pure _) fun _ => ?_
  refine within_bind (spare_stopController hK) fun _ => ?_
  refine within_bind (within_modify fun s _ => ?_) fun _ => within_pure _
  exact ⟨Or.inl (show 0 < 0x1000 by decide), fun _ _ => rfl⟩

theorem spare_bootFindUsbDiskFrom (n device : ℕ) :
    Within (BootSpare K) (bootFindUsbDiskFrom n device) := by
  induction n generalizing device with
  | zero => exact within_pure _
  | succ n ih =>
    refine within_bind ?_ fun _ => within_ite (fun _ => ?_) fun _ => ih _
    · refine within_bind (spare_quiet hK (quiet_ask _)) fun _ => within_ite (fun _ => within_pure _) fun _ => ?_
      exact within_bind (spare_quiet hK (quiet_ask _)) fun _ => within_pure _
    · exact within_bind (spare_bootFindOnController hK _) fun _ =>
        within_ite (fun _ => within_pure _) fun _ => ih _

theorem spare_findOnChannel (n device : ℕ) : Within (BootSpare K) (findOnChannel n device) := by
  induction n generalizing device with
  | zero => exact within_bind (spare_vars fun _ => ⟨rfl, rfl⟩) fun _ => within_pure _
  | succ n ih =>
    refine within_bind (spare_vars fun _ => ⟨rfl, rfl⟩) fun _ => ?_
    exact within_bind (spare_matchesBootImage hK _) fun _ =>
      within_ite (fun _ => within_pure _) fun _ => ih _

theorem spare_findOnChannels (mode n channel : ℕ) : Within (BootSpare K) (findOnChannels mode n channel) := by
  induction n generalizing channel with
  | zero => exact within_pure _
  | succ n ih =>
    refine within_ite (fun _ => ih _) fun _ => ?_
    refine within_bind (spare_vars fun _ => ⟨rfl, rfl⟩) fun _ => ?_
    exact within_bind (spare_findOnChannel hK _ _) fun _ =>
      within_ite (fun _ => within_pure _) fun _ => ih _

theorem spare_ideMode (device : ℕ) : Within (BootSpare K) (ideMode device) := by
  refine within_bind (spare_quiet hK (quiet_ask _)) fun _ => within_ite (fun _ => within_pure _) fun _ => ?_
  refine within_bind (spare_quiet hK (quiet_ask _)) fun _ => within_ite (fun _ => within_pure _) fun _ => ?_
  exact within_bind (spare_quiet hK (quiet_ask _)) fun _ =>
    within_ite (fun _ => within_pure _) fun _ => within_pure _

theorem spare_findIdeDiskFrom (n device : ℕ) : Within (BootSpare K) (findIdeDiskFrom n device) := by
  induction n generalizing device with
  | zero => exact within_pure _
  | succ n ih =>
    refine within_bind (spare_ideMode hK _) fun mode => ?_
    cases mode with
    | none => exact ih _
    | some mode =>
      exact within_bind (spare_findOnChannels hK _ _ _) fun _ =>
        within_ite (fun _ => within_pure _) fun _ => ih _

theorem spare_findBootDisk : Within (BootSpare K) findBootDisk := by
  refine within_bind (spare_bootFindUsbDiskFrom hK _ _) fun _ => within_ite (fun _ => within_pure _) fun _ => ?_
  refine within_bind (spare_findIdeDiskFrom hK _ _) fun _ => ?_
  exact within_ite (fun _ => within_pure _) fun _ => within_none

/-! Loading. -/

omit hK in
theorem spare_copyOut {buffer size : ℕ} (hd : ∀ a, K a → a < buffer ∨ buffer + size ≤ a) :
    Within (BootSpare K) (copyOut buffer size) := by
  refine within_bind within_get fun u => within_modify fun s hs => ⟨hs, fun a ha => ?_⟩
  show overwrite s.mem buffer size (fun i => u.mem (transferBuffer + i)) a = s.mem a
  exact overwrite_of_disjoint (hd a ha)

/-- `load_image` writes its destination. -/
theorem spare_loadImageFrom {backend lba sectors destination : ℕ}
    (hd : ∀ a, K a → a < destination ∨ destination + sectors * 512 ≤ a) (turns loaded : ℕ) :
    Within (BootSpare K) (loadImageFrom backend lba sectors destination turns loaded) := by
  induction turns generalizing loaded with
  | zero => exact within_pure _
  | succ turns ih =>
    refine within_ite (fun hlt => ?_) fun _ => within_pure _
    have hcount : (if blocksPerRead < sectors - loaded then blocksPerRead else sectors - loaded) ≤
        sectors - loaded := by
      split_ifs <;> omega
    dsimp only
    generalize (if blocksPerRead < sectors - loaded then blocksPerRead else sectors - loaded) = count
      at hcount
    refine within_bind (spare_quiet hK (quiet_report own_report _ (by decide))) fun _ => ?_
    refine within_bind (spare_readBlocks hK _ _ _) fun _ => within_ite (fun _ => within_none) fun _ => ?_
    refine within_bind (spare_copyOut fun a ha => ?_) fun _ => ih _
    have hout := hd a ha
    omega

theorem spare_loadImage {backend lba sectors destination : ℕ}
    (hd : ∀ a, K a → a < destination ∨ destination + sectors * 512 ≤ a) (crc : BitVec 32) :
    Within (BootSpare K) (loadImage backend lba sectors destination crc) :=
  within_bind (spare_loadImageFrom hK hd _ _) fun _ => within_bind within_get fun _ =>
    within_ite (fun _ => within_none) fun _ => within_pure _

end

/-! ### The payloads -/

theorem word_congr {f g : ℕ → UInt8} {a b : ℕ} (h : ∀ i < 4, f (a + i) = g (b + i)) :
    word f a = word g b := by
  rw [word, word, h 1 (by decide), h 2 (by decide), h 3 (by decide),
    show f a = g b from h 0 (by decide)]

/-- Equal bytes are equal manifests. -/
theorem manifestAt_congr {f g : ℕ → UInt8} {a b : ℕ} (h : ∀ i < 40, f (a + i) = g (b + i)) :
    manifestAt f a = manifestAt g b := by
  have hword : ∀ k ≤ 36, word f (a + k) = word g (b + k) := fun k hk => word_congr fun i hi => by
    rw [Nat.add_assoc, Nat.add_assoc]
    exact h _ (by omega)
  have h0 : word f a = word g b := hword 0 (by decide)
  simp only [manifestAt, h0, hword _ (show 4 ≤ 36 by decide), hword _ (show 8 ≤ 36 by decide),
    hword _ (show 12 ≤ 36 by decide), hword _ (show 16 ≤ 36 by decide),
    hword _ (show 20 ≤ 36 by decide), hword _ (show 24 ≤ 36 by decide),
    hword _ (show 28 ≤ 36 by decide), hword _ (show 32 ≤ 36 by decide),
    hword _ (show 36 ≤ 36 by decide)]

/-- The registers are nowhere near, and the manifest and the payloads are as they were in `s`. -/
structure BootState (s u : Storage) : Prop where
  registers : Registers u.ehci
  mem : ∀ a, BootKept a → u.mem a = s.mem a

theorem BootState.next {α : Type} {m : StorageM α} {s u : Storage} (h : BootState s u)
    (hm : Within (BootSpare BootKept) m) : Ensures m u fun _ v => BootState s v :=
  fun r v hr => ⟨(hm u r v hr h.registers).1, fun a ha =>
    ((hm u r v hr h.registers).2 a ha).trans (h.mem a ha)⟩

theorem BootState.manifest {s u : Storage} (h : BootState s u) :
    manifestAt u.mem manifestBase = manifestAt s.mem manifestBase :=
  manifestAt_congr fun i hi => h.mem _ (Or.inl ⟨by omega, by omega⟩)

theorem clearBootBss_spec (bss : BootBss) (s : Storage) :
    Ensures (clearBootBss bss) s fun _ u => BootState s u := by
  have hfits : 0x30040000 + bss.size ≤ 0x3004F000 := bss.fits
  refine ensures_modify_bind (ensures_modify ⟨Or.inl (show 0 < 0x1000 by decide), fun a ha => ?_⟩)
  simp only [BootKept, manifestBase, interruptsBase, highBase] at ha
  have hout : a < bootBssStart ∨ bootBssStart + bss.size ≤ a := by
    show a < 0x30040000 ∨ 0x30040000 + bss.size ≤ a
    omega
  show overwrite s.mem bootBssStart bss.size (fun _ => 0) a = s.mem a
  exact overwrite_of_disjoint hout

/-- Both payloads have the checksums of the manifest; the second is loaded below the first. -/
theorem loadPayloads_spec {s : Storage} (hreg : Registers s.ehci) (backend : ℕ)
    (hvalid : bootManifestValid (manifestAt s.mem manifestBase) = true) :
    Ensures (loadPayloads backend) s fun _ t => Registers t.ehci ∧
      manifestAt t.mem manifestBase = manifestAt s.mem manifestBase ∧
      bootCrc32 (fun i => t.mem (highBase + i)) (highSectors * 512) =
        BitVec.ofNat 32 (manifestAt s.mem manifestBase).highCrc ∧
      bootCrc32 (fun i => t.mem (interruptsBase + i)) (intSectors * 512) =
        BitVec.ofNat 32 (manifestAt s.mem manifestBase).interruptsCrc := by
  rw [bootManifestValid, decide_eq_true_eq] at hvalid
  obtain ⟨-, -, -, -, -, hhigh, -, hint⟩ := hvalid
  have hmanifest : ∀ a, manifestBase ≤ a ∧ a < manifestBase + 40 → BootKept a := fun a => Or.inl
  have hboth : ∀ a, (manifestBase ≤ a ∧ a < manifestBase + 40 ∨ highBase ≤ a ∧ a < highBase + 256 * 512) →
      BootKept a := by
    rintro a (ha | ha)
    · exact Or.inl ha
    · exact Or.inr ⟨Nat.le_trans (by decide) ha.1, ha.2⟩
  refine ensures_get_bind ?_
  dsimp only
  rw [hhigh]
  refine ensures_bind (((spare_loadImage hmanifest ?_ _).ensures s).and
    (loadImage_crc _ _ _ _ _ s)) fun _ u hu => ensures_get_bind ?_
  · exact fun a ha => Or.inl (Nat.lt_trans ha.2 (by decide))
  obtain ⟨hspare, hcrc⟩ := hu
  have hsame : manifestAt u.mem manifestBase = manifestAt s.mem manifestBase :=
    manifestAt_congr fun i hi => (hspare hreg).2 _ ⟨by omega, by omega⟩
  rw [hsame, hint]
  refine (((spare_loadImage hboth ?_ _).ensures u).and (loadImage_crc _ _ _ _ _ u)).mono ?_
  · rintro a (ha | ha)
    · exact Or.inl (Nat.lt_trans ha.2 (by decide))
    · exact Or.inr (Nat.le_trans (by decide) ha.1)
  -- the second payload is loaded below the first, which keeps its bytes
  rintro _ t ⟨hspare', hcrc'⟩
  obtain ⟨ht, hmem⟩ := hspare' (hspare hreg).1
  refine ⟨ht, (manifestAt_congr fun i hi => hmem _ (Or.inl ⟨by omega, by omega⟩)).trans hsame, ?_, hcrc'⟩
  rw [← hcrc]
  refine congrArg _ (crcBytes_congr fun i hi => hmem _ (Or.inr ⟨by omega, ?_⟩))
  exact Nat.add_lt_add_left hi highBase

/-- **The bootstrap accepts what its manifest says.** -/
theorem bootstrapLoadImages_spec (bss : BootBss) (s : Storage) :
    Ensures (bootstrapLoadImages bss) s fun _ t =>
      bootManifestValid (manifestAt s.mem manifestBase) = true ∧
      manifestAt t.mem manifestBase = manifestAt s.mem manifestBase ∧
      bootCrc32 (fun i => t.mem (highBase + i)) (highSectors * 512) =
        BitVec.ofNat 32 (manifestAt s.mem manifestBase).highCrc ∧
      bootCrc32 (fun i => t.mem (interruptsBase + i)) (intSectors * 512) =
        BitVec.ofNat 32 (manifestAt s.mem manifestBase).interruptsCrc := by
  have hK : ∀ a, BootKept a → BootKept a := fun _ ha => ha
  have hreport : ∀ {index : ℕ} (value : ℕ), index < 8 → Within (BootSpare BootKept) (report index value) :=
    fun value h => spare_quiet hK (quiet_report own_report value h)
  refine ensures_bind (clearBootBss_spec bss s) fun _ a ha => ?_
  refine ensures_bind (ha.next (spare_quiet hK (quiet_storeBytes _ fun i hi =>
    own_report _ (by omega) (by omega)))) fun _ b hb => ?_
  refine ensures_bind (hb.next (hreport _ (by decide))) fun _ c hc => ?_
  refine ensures_bind (hc.next (hreport _ (by decide))) fun _ d hd => ?_
  refine ensures_bind (hd.next (spare_quiet hK (quiet_storeBytes _ (own_range (by decide) (by decide)))))
    fun _ e he => ensures_get_bind (ensures_ite (fun _ => ensures_none) fun hvalid => ?_)
  rw [he.manifest, Bool.not_eq_false] at hvalid
  refine ensures_bind (he.next (spare_frame hK (fun _ => own_not_kept) frame_calibrateTimer))
    fun _ f hf => ?_
  refine ensures_bind (hf.next (spare_findBootDisk hK)) fun backend g hg => ?_
  refine ensures_bind (hg.next (hreport _ (by decide))) fun _ h hh => ?_
  -- only the two loads write to the memory of the payloads
  refine ensures_bind (loadPayloads_spec hh.registers backend (by rw [hh.manifest]; exact hvalid))
    fun _ u hu => ?_
  obtain ⟨hreg, hmanifest, hhigh, hint⟩ := hu
  rw [hh.manifest] at hmanifest hhigh hint
  have hu : BootState u u := ⟨hreg, fun _ _ => rfl⟩
  refine ensures_bind (hu.next (spare_stopController hK)) fun _ v hv => ?_
  refine (hv.next (hreport _ (by decide))).mono fun _ t ht => ?_
  refine ⟨hvalid, ht.manifest.trans hmanifest, ?_, ?_⟩
  · rw [← hhigh]
    refine congrArg _ (crcBytes_congr fun i hi => ht.mem _ (Or.inr ⟨?_, Nat.add_lt_add_left hi _⟩))
    exact Nat.le_trans (by decide) (Nat.le_add_right highBase i)
  · rw [← hint]
    refine congrArg _ (crcBytes_congr fun i hi => ht.mem _ (Or.inr ⟨Nat.le_add_right _ _, ?_⟩))
    exact Nat.lt_of_lt_of_le (Nat.add_lt_add_left hi _) (by decide)

/-! ### A disk that lets the bootstrap return -/

/-- The memory below the variables, with the bootstrap and the boot sector, is what it was,
and so is the base of the controller. -/
structure BootIntact (s t : Storage) : Prop where
  low : ∀ a < bootBssStart, t.mem a = s.mem a
  ehci : t.ehci = s.ehci

theorem BootIntact.refl (s : Storage) : BootIntact s s := ⟨fun _ _ => rfl, rfl⟩

theorem BootIntact.trans {s t u : Storage} (h : BootIntact s t) (h' : BootIntact t u) : BootIntact s u :=
  ⟨fun a ha => (h'.low a ha).trans (h.low a ha), h'.ehci.trans h.ehci⟩

theorem Untouched.intact {s t : Storage} (h : Untouched s t) : BootIntact s t :=
  ⟨fun _ _ => by rw [h.mem], h.ehci⟩

theorem Filled.intact {s t : Storage} {a n : ℕ} {bytes : ℕ → UInt8} (h : Filled s t a n bytes)
    (ha : bootBssStart ≤ a) : BootIntact s t :=
  ⟨fun b hb => h.outside b (Or.inl (Nat.lt_of_lt_of_le hb ha)), h.ehci⟩

section Returning

variable {s : Storage}

theorem possible_report (index value : ℕ) : Possible (report index value) s fun _ t => BootIntact s t :=
  (possible_storeBytes _ _ _).mono fun _ _ h => h.intact (Nat.le_trans (by decide) (Nat.le_add_right _ _))

theorem possible_equalBytes {a b size : ℕ} (h : ∀ i < size, s.mem (a + i) = s.mem (b + i)) :
    Possible (equalBytes a b size) s fun ok t => ok = true ∧ s = t :=
  possible_get_bind (fun _ => rfl) (possible_pure ⟨decide_eq_true h, rfl⟩)

/-- A byte that is as expected. -/
theorem possible_expect {a v : ℕ} (h : (s.mem a).toNat = v) {rest : StorageM Bool}
    {Q : Bool → Storage → Prop} (hrest : Possible rest s Q) :
    Possible (loadByte a >>= fun byte => if byte ≠ v then return false else rest) s Q := by
  refine possible_bind (Q := fun byte t => byte = v ∧ s = t)
    (possible_get_bind (fun _ => rfl) (possible_pure ⟨h, rfl⟩)) ?_
  rintro _ t ⟨rfl, rfl⟩
  rwa [if_neg (not_not.mpr rfl)]

/-- **A disk may be the boot disk**: it answers with what the bootstrap finds in memory. -/
theorem possible_matchesBootImage :
    Possible (matchesBootImage 2) s fun ok t => ok = true ∧ BootIntact s t := by
  have hread : ∀ (u : Storage) (lba : ℕ), lba < 2 ^ 27 → ∀ bytes, Possible (readBlocks 2 lba 1) u
      fun ok t => ok = true ∧ Filled u t transferBuffer (512 * 1) bytes := fun u lba hlba bytes =>
    possible_ataRead (by decide) (by decide) (by omega) bytes
  refine possible_bind (possible_pure (Q := fun _ t => s = t) rfl) ?_
  rintro _ _ rfl
  -- sector 0 begins like the boot sector in memory, and ends with the signature
  refine possible_test (hread s 0 (by decide) fun i => if i < 16 then s.mem (bootSectorBase + i)
    else if i = 510 then 0x55 else 0xAA) fun t ht => ?_
  refine possible_test (possible_equalBytes fun i hi => ?_) ?_
  · rw [ht.inside i (by omega), if_pos hi, ht.outside _ (Or.inl ?_)]
    simp only [bootSectorBase, transferBuffer]
    omega
  rintro _ rfl
  refine possible_expect (by rw [ht.inside 510 (by decide)]; rfl) ?_
  refine possible_expect (by rw [ht.inside 511 (by decide)]; rfl) ?_
  -- sector 5 holds the manifest
  refine possible_test (hread t 5 (by decide) fun i => t.mem (manifestBase + i)) fun u hu => ?_
  refine (possible_equalBytes fun i hi => ?_).mono ?_
  · rw [hu.inside i (by omega), hu.outside _ (Or.inl ?_)]
    simp only [manifestBase, transferBuffer]
    omega
  rintro ok _ ⟨rfl, rfl⟩
  exact ⟨rfl, (ht.intact (by decide)).trans (hu.intact (by decide))⟩

/-- No PCI function need be a USB controller. -/
theorem possible_bootFindUsbDiskFrom (n : ℕ) : ∀ (s : Storage) (device : ℕ),
    Possible (bootFindUsbDiskFrom n device) s fun found t => found = false ∧ BootIntact s t := by
  induction n with
  | zero => exact fun s device => possible_pure ⟨rfl, .refl s⟩
  | succ n ih =>
    intro s device
    have hcandidate : Possible (bootUsbCandidate device) s fun found t => found = false ∧ Untouched s t := by
      refine possible_bind (possible_pciRead device 0 (v := 0x70108086) (by decide)) ?_
      rintro _ t ⟨rfl, ht⟩
      refine possible_bind (possible_pciRead device 8 (v := 0x01010000) (by decide)) ?_
      rintro _ u ⟨rfl, hu⟩
      exact possible_pure ⟨rfl, ht.trans hu⟩
    refine possible_bind hcandidate ?_
    rintro _ t ⟨rfl, ht⟩
    rw [if_neg Bool.false_ne_true]
    exact (ih t _).mono fun _ u hu => ⟨hu.1, ht.intact.trans hu.2⟩

/-- The first of them may be an IDE controller with the boot disk at its first channel. -/
theorem possible_findIdeDiskFrom (n device : ℕ) :
    Possible (findIdeDiskFrom (n + 1) device) s fun found t => found = true ∧ BootIntact s t := by
  have hmode : Possible (ideMode device) s fun mode t => mode = some 0 ∧ Untouched s t := by
    refine possible_bind (possible_pciRead device 0 (v := 0x70108086) (by decide)) ?_
    rintro _ t ⟨rfl, ht⟩
    refine possible_bind (possible_pciRead device 8 (v := 0x01010000) (by decide)) ?_
    rintro _ u ⟨rfl, hu⟩
    refine possible_bind (possible_pciRead device 4 (v := 5) (by decide)) ?_
    rintro _ v ⟨rfl, hv⟩
    exact possible_pure ⟨rfl, (ht.trans hu).trans hv⟩
  have hchannel : ∀ u : Storage, Possible (findOnChannels 0 2 0) u
      fun found t => found = true ∧ BootIntact u t := by
    intro u
    refine possible_bind (Q := fun _ t => Untouched u t) (possible_modify (fun _ => rfl) rfl ⟨rfl, rfl⟩)
      fun _ t ht => ?_
    refine possible_bind (Q := fun found v => found = true ∧ BootIntact t v) ?_ ?_
    · refine possible_bind (Q := fun _ v => Untouched t v) (possible_modify (fun _ => rfl) rfl ⟨rfl, rfl⟩)
        fun _ v hv => possible_bind possible_matchesBootImage ?_
      rintro _ w ⟨rfl, hw⟩
      exact possible_pure ⟨rfl, hv.intact.trans hw⟩
    · rintro _ v ⟨rfl, hv⟩
      exact possible_pure ⟨rfl, ht.intact.trans hv⟩
  refine possible_bind hmode ?_
  rintro _ t ⟨rfl, ht⟩
  refine possible_bind (hchannel t) ?_
  rintro _ u ⟨rfl, hu⟩
  exact possible_pure ⟨rfl, ht.intact.trans hu⟩

theorem possible_findBootDisk :
    Possible findBootDisk s fun backend t => backend = 2 ∧ BootIntact s t := by
  refine possible_bind (possible_bootFindUsbDiskFrom _ _ _) ?_
  rintro _ t ⟨rfl, ht⟩
  refine possible_bind (possible_findIdeDiskFrom 0xFFFF 0) ?_
  rintro _ u ⟨rfl, hu⟩
  exact possible_pure ⟨rfl, ht.trans hu⟩

/-- **A disk may hold any payload**, and then `load_image` loads it: the induction is on the
turns that are left. -/
theorem possible_loadImageFrom {lba sectors destination : ℕ} (hlba : lba + sectors ≤ 2 ^ 28)
    (hd : interruptsBase ≤ destination) (payload : ℕ → UInt8) (turns : ℕ) :
    ∀ (s : Storage) (loaded : ℕ), sectors - loaded ≤ turns → loaded ≤ sectors →
      (∀ i < loaded * 512, s.mem (destination + i) = payload i) →
      Possible (loadImageFrom 2 lba sectors destination turns loaded) s fun _ t =>
        (∀ i < sectors * 512, t.mem (destination + i) = payload i) ∧ BootIntact s t := by
  induction turns with
  | zero =>
    intro s loaded hturns hle hmem
    obtain rfl : loaded = sectors := by omega
    exact possible_pure ⟨hmem, .refl s⟩
  | succ turns ih =>
    intro s loaded hturns hle hmem
    by_cases hlt : loaded < sectors
    swap
    · obtain rfl : loaded = sectors := by omega
      rw [loadImageFrom, if_neg hlt]
      exact possible_pure ⟨hmem, .refl s⟩
    rw [loadImageFrom, if_pos hlt]
    dsimp only
    generalize hcount : (if blocksPerRead < sectors - loaded then blocksPerRead else sectors - loaded) = count
    have h1 : 1 ≤ count ∧ count ≤ blocksPerRead ∧ count ≤ sectors - loaded := by
      have hblocks : blocksPerRead = 32 := rfl
      rw [← hcount]
      split_ifs <;> omega
    have hadd : add32 lba loaded = lba + loaded := add32_of_lt (by omega)
    rw [hadd]
    -- the report and the buffer lie below the destination
    refine possible_bind (possible_storeBytes _ _ _) fun _ t ht => ?_
    refine possible_test (possible_ataRead h1.1 h1.2.1 (by omega) fun i => payload (loaded * 512 + i))
      fun u hu => ?_
    have hcopy : Possible (copyOut (destination + loaded * 512) (count * 512)) u fun _ v =>
        Filled u v (destination + loaded * 512) (count * 512) fun i => u.mem (transferBuffer + i) :=
      possible_get_bind (fun _ => rfl) (possible_storeBytes _ _ _)
    refine possible_bind hcopy fun _ v hv => ?_
    have hlow : BootIntact s v := by
      refine ((ht.intact ?_).trans (hu.intact (by decide))).trans (hv.intact ?_)
      · exact Nat.le_trans (by decide) (Nat.le_add_right _ _)
      · exact Nat.le_trans (Nat.le_trans (by decide) hd) (Nat.le_add_right _ _)
    refine (ih v (loaded + count) (by omega) (by omega) fun i hi => ?_).mono
      fun _ w hw => ⟨hw.1, hlow.trans hw.2⟩
    by_cases hold : i < loaded * 512
    · have hreport : bootReport + 4 * 6 + 4 ≤ destination := Nat.le_trans (by decide) hd
      have hbuffer : transferBuffer + 512 * blocksPerRead ≤ destination := Nat.le_trans (by decide) hd
      rw [hv.outside _ (by omega), hu.outside _ (by omega), ht.outside _ (by omega), hmem i hold]
    · have hnew := hv.inside (i - loaded * 512) (by omega)
      rw [hu.inside _ (by omega)] at hnew
      rwa [show destination + loaded * 512 + (i - loaded * 512) = destination + i by omega,
        show loaded * 512 + (i - loaded * 512) = i by omega] at hnew

theorem possible_loadImage {lba sectors destination : ℕ} {crc : BitVec 32} (hlba : lba + sectors ≤ 2 ^ 28)
    (hsectors : sectors * 512 < 2 ^ 32) (hd : interruptsBase ≤ destination) {payload : ℕ → UInt8}
    (hcrc : bootCrc32 payload (sectors * 512) = crc) :
    Possible (loadImage 2 lba sectors destination crc) s fun _ t => BootIntact s t := by
  refine possible_bind (possible_loadImageFrom hlba hd payload sectors s 0 (by omega) (by omega)
    fun i hi => absurd hi (by omega)) fun _ t ht => possible_get_bind (fun _ => rfl) ?_
  have hsame : bootCrc32 (fun i => t.mem (destination + i)) (sectors * 512 % 2 ^ 32) = crc := by
    rw [Nat.mod_eq_of_lt hsectors, ← hcrc, bootCrc32, bootCrc32, crcBytes_congr ht.1]
  dsimp only
  rw [if_neg (not_not.mpr hsame)]
  exact possible_pure ht.2

/-- **The bootstrap can return**: a disk may answer with the manifest in memory and with
payloads of its checksums. -/
theorem possible_bootstrapLoadImages (bss : BootBss) {m : BootManifest} {high interrupts : ℕ → UInt8}
    (hm : manifestAt s.mem manifestBase = m) (hvalid : bootManifestValid m = true)
    (hhigh : bootCrc32 high (highSectors * 512) = BitVec.ofNat 32 m.highCrc)
    (hinterrupts : bootCrc32 interrupts (intSectors * 512) = BitVec.ofNat 32 m.interruptsCrc) :
    Possible (bootstrapLoadImages bss) s fun _ _ => True := by
  have hkept : ∀ t : Storage, (∀ a < bootBssStart, t.mem a = s.mem a) →
      manifestAt t.mem manifestBase = m := fun t ht => by
    refine (manifestAt_congr fun i hi => ht _ ?_).trans hm
    exact Nat.lt_of_lt_of_le (Nat.add_lt_add_left hi _) (by decide)
  have hfields := hvalid
  rw [bootManifestValid, decide_eq_true_eq] at hfields
  obtain ⟨-, -, -, -, hl, hs, hl', hs'⟩ := hfields
  -- the variables start as zero
  have hclear : Possible (clearBootBss bss) s fun _ t => BootIntact { s with ehci := 0 } t :=
    possible_bind (possible_storeBytes _ _ _) fun _ t ht => possible_modify (fun _ => rfl) rfl
      ⟨fun a ha => ht.outside a (Or.inl ha), rfl⟩
  refine possible_bind hclear fun _ a ha => ?_
  refine possible_bind (possible_storeBytes _ _ _) fun _ b hb => ?_
  refine possible_bind (possible_report 0 _) fun _ c hc => ?_
  refine possible_bind (possible_report 1 _) fun _ d hd => ?_
  refine possible_bind (possible_storeBytes _ _ _) fun _ e he => possible_get_bind (fun _ => rfl) ?_
  have h₁ : BootIntact { s with ehci := 0 } e :=
    ((ha.trans (hb.intact (by decide))).trans (hc.trans hd)).trans (he.intact (by decide))
  rw [hkept e h₁.low, hvalid, if_neg Bool.false_ne_true.symm]
  -- the timer ticks two million times in 20 ms
  have htimer : Possible calibrateTimer e fun _ t => BootIntact e t := by
    refine possible_bind (possible_in8 _ (v := 0) (by decide)) ?_
    rintro _ t₁ ⟨rfl, h₁⟩
    refine possible_out8_bind fun t₂ h₂ => possible_out8_bind fun t₃ h₃ => ?_
    refine possible_out8_bind fun t₄ h₄ => possible_out8_bind fun t₅ h₅ => ?_
    refine possible_bind (possible_tsc (v := 0) (by decide)) ?_
    rintro _ t₆ ⟨rfl, h₆⟩
    refine possible_out8_bind fun t₇ h₇ => ?_
    refine possible_bind (possible_in8 _ (v := 0x20) (by decide)) ?_
    rintro _ t₈ ⟨rfl, h₈⟩
    refine possible_bind (possible_tsc (v := 2000000) (by decide)) ?_
    rintro _ t₉ ⟨rfl, h₉⟩
    refine possible_bind (Q := fun _ t => Untouched t₉ t) (possible_modify (fun _ => rfl) rfl ⟨rfl, rfl⟩)
      fun _ t₁₀ h₁₀ => possible_out8_bind fun t h => possible_pure (Untouched.intact ?_)
    exact (((((h₁.trans h₂).trans (h₃.trans h₄)).trans (h₅.trans h₆)).trans (h₇.trans h₈)).trans
      (h₉.trans h₁₀)).trans h
  refine possible_bind htimer fun _ f hf => possible_bind possible_findBootDisk ?_
  rintro _ g ⟨rfl, hg⟩
  refine possible_bind (possible_report 7 _) fun _ h hh => ?_
  have h₂ : BootIntact { s with ehci := 0 } h := ((h₁.trans hf).trans hg).trans hh
  -- the two payloads
  have hload : Possible (loadPayloads 2) h fun _ t => BootIntact h t := by
    refine possible_get_bind (fun _ => rfl) ?_
    rw [hkept h h₂.low]
    dsimp only
    rw [hl, hs]
    refine possible_bind (possible_loadImage (by decide) (by decide) (by decide) hhigh) fun _ t ht => ?_
    refine possible_get_bind (fun _ => rfl) ?_
    rw [hkept t (h₂.trans ht).low, hl', hs']
    exact (possible_loadImage (by decide) (by decide) (by decide) hinterrupts).mono fun _ u hu => ht.trans hu
  refine possible_bind hload fun _ t ht => ?_
  have hehci : t.ehci = 0 := (h₂.trans ht).ehci
  refine possible_bind (Q := fun _ _ => True) (possible_get_bind (fun _ => rfl) ?_) fun _ u _ =>
    (possible_report 1 8).mono fun _ _ _ => trivial
  rw [if_pos hehci]
  exact possible_pure trivial

end Returning

/-! ### What was built -/

/-- What is handed over: the manifest, and payloads with the checksums of `high` and
`interrupts`, padded with zeros, so that neither differs from them only within 32 bits. -/
structure PayloadsLoaded (m : BootManifest) (high interrupts : List UInt8) (t : Storage) : Prop where
  manifest : manifestAt t.mem manifestBase = m
  highCrc : bootCrc32 (fun i => t.mem (highBase + i)) (highSectors * 512) =
    bootCrc32 (fun i => high.getD i 0) (highSectors * 512)
  interruptsCrc : bootCrc32 (fun i => t.mem (interruptsBase + i)) (intSectors * 512) =
    bootCrc32 (fun i => interrupts.getD i 0) (intSectors * 512)
  highWhole : ∀ start,
    ¬Burst (fun i => high.getD i 0) (fun i => t.mem (highBase + i)) (highSectors * 512) start
  interruptsWhole : ∀ start,
    ¬Burst (fun i => interrupts.getD i 0) (fun i => t.mem (interruptsBase + i)) (intSectors * 512) start

section Built

variable {boot code storage high interrupts setup image : List UInt8} {m : BootManifest} {s : Storage}

/-- The manifest of the build is in memory: it is at 800h in the bootstrap, which is byte 0 of
sector 5. -/
theorem manifest_in_memory (hm : buildManifest high interrupts = some m)
    (hs : assembleSetup code m storage = some setup)
    (hi : buildImage boot setup high interrupts = some image)
    (hboot : ∀ i < setupSectors * 512,
      s.mem (bootstrapBase + i) = image.getD (setupStartLba * 512 + i) 0) :
    manifestAt s.mem manifestBase = m := by
  refine (manifestAt_congr fun i hi' => ?_).trans (image_manifest hm hs hi)
  have hlt : 0x800 + i < 64 * 512 := by omega
  have hbyte : s.mem (0x30000000 + (0x800 + i)) = image.getD (1 * 512 + (0x800 + i)) 0 :=
    hboot _ hlt
  have hbase : 0x30000000 + (0x800 + i) = 0x30000800 + i := by omega
  have hsector : 1 * 512 + (0x800 + i) = 5 * 512 + i := by omega
  rwa [hbase, hsector] at hbyte

/-- **The bootstrap of a built image can return**: on some hardware it does. -/
theorem bootstrap_returns (hm : buildManifest high interrupts = some m)
    (hs : assembleSetup code m storage = some setup)
    (hi : buildImage boot setup high interrupts = some image) (bss : BootBss)
    (hboot : ∀ i < setupSectors * 512,
      s.mem (bootstrapBase + i) = image.getD (setupStartLba * 512 + i) 0) :
    ∃ hw t, (bootstrapLoadImages bss).run (s.on hw) = some ((), t) := by
  have hfields := buildManifest_eq hm
  have hcrc : ∀ payload size, bootCrc32 payload size =
      BitVec.ofNat 32 (bootCrc32 payload size).toNat := fun _ _ => by
    rw [BitVec.ofNat_toNat, BitVec.setWidth_eq]
  have hvalid : bootManifestValid m = true := by
    rw [hfields]
    rfl
  have hhigh : bootCrc32 (fun i => high.getD i 0) (highSectors * 512) = BitVec.ofNat 32 m.highCrc := by
    rw [hfields]
    exact hcrc _ _
  have hinterrupts : bootCrc32 (fun i => interrupts.getD i 0) (intSectors * 512) =
      BitVec.ofNat 32 m.interruptsCrc := by
    rw [hfields]
    exact hcrc _ _
  obtain ⟨hw, _, t, hrun, -⟩ := (possible_bootstrapLoadImages bss
    (manifest_in_memory hm hs hi hboot) hvalid hhigh hinterrupts).run
  exact ⟨hw, _, hrun⟩

end Built

/-- **The bootstrap hands over what was built.**  Let the bootstrap of a built image lie in
memory, as the boot sector loads it.  Whatever disks there are and whatever they answer,
the bootstrap returns only with the payloads that were built, as far as the checksums tell. -/
theorem bootstrap_loads {boot code storage high interrupts setup image : List UInt8}
    {m : BootManifest} (hm : buildManifest high interrupts = some m)
    (hs : assembleSetup code m storage = some setup)
    (hi : buildImage boot setup high interrupts = some image) (bss : BootBss) {s : Storage}
    (hboot : ∀ i < setupSectors * 512,
      s.mem (bootstrapBase + i) = image.getD (setupStartLba * 512 + i) 0) :
    Ensures (bootstrapLoadImages bss) s fun _ t => PayloadsLoaded m high interrupts t := by
  have hmanifest := manifest_in_memory hm hs hi hboot
  refine (bootstrapLoadImages_spec bss s).mono ?_
  rintro - t ⟨-, hsame, hhigh, hint⟩
  rw [hmanifest] at hsame hhigh hint
  rw [buildManifest_eq hm] at hhigh hint
  simp only [BitVec.ofNat_toNat, BitVec.setWidth_eq] at hhigh hint
  exact ⟨hsame, hhigh, hint, fun _ h => h.bootCrc32_ne hhigh.symm, fun _ h => h.bootCrc32_ne hint.symm⟩

/-- The image with a kernel of zeros, on a disk from which it is loaded. -/
theorem bootstrap_loads_blank : ∃ m s t,
    buildManifest (List.replicate (highSectors * 512) 0) [0x90] = some m ∧
    (bootstrapLoadImages ⟨0x100, by decide⟩).run s = some ((), t) ∧
    PayloadsLoaded m (List.replicate (highSectors * 512) 0) [0x90] t := by
  obtain ⟨m, setup, image, hm, hs, hi⟩ := exists_blankImage
  have hboot : ∀ i < setupSectors * 512,
      image.getD (setupStartLba * 512 + (bootstrapBase + i - bootstrapBase)) 0 =
        image.getD (setupStartLba * 512 + i) 0 := fun i _ => by
    rw [Nat.add_sub_cancel_left]
  obtain ⟨hw, t, hrun⟩ := bootstrap_returns
    (s := { usbStick with mem := fun a => image.getD (setupStartLba * 512 + (a - bootstrapBase)) 0 })
    hm hs hi ⟨0x100, by decide⟩ hboot
  exact ⟨m, _, t, hm, hrun, bootstrap_loads hm hs hi ⟨0x100, by decide⟩ hboot () t hrun⟩

end VirtualKernel
