/-
System calls of the storage driver.

`userOutput_spec` says exactly which buffers of a process `user_output` accepts:
those inside its data segment, all of whose pages are mapped in its own
directory as present, user, writable and owned.  From it and
`storageSyscall_spec` follows **`syscall_writes_caller`**: a system call writes
outside the memory of the driver only if it succeeds, and then only the answer,
to a buffer of this kind.
-/
import VirtualKernel.StorageRuns

namespace VirtualKernel

open Lib

variable {s t : Storage}

/-! ### The pages of a buffer -/

/-- A page that `user_output` accepts: present, user and writable at both levels,
not a large page, owned, with its table in the pool. -/
structure UserMapped (m : ℕ → UInt8) (pd page : ℕ) : Prop where
  entry : pdeOf m pd page &&& 0x87 = 7
  table : tablePoolStart ≤ pageAddr (pdeOf m pd page) ∧ pageAddr (pdeOf m pd page) < tablePoolEnd
  page : pteOf m pd page &&& 0x207 = 0x207

theorem and_4095 (a : ℕ) : a &&& 4095 = a % 4096 := Nat.and_two_pow_sub_one_eq_mod a 12

theorem userPage_iff (m : ℕ → UInt8) (pd page : ℕ) :
    userPage m pd page = true ↔ UserMapped m pd page := by
  have halign : pageAddr (pdeOf m pd page) &&& 4095 = 0 := by
    rw [and_4095]
    exact pageAddr_aligned _
  simp only [userPage, validTable, storageUserPageWritable, Bool.decide_and, Bool.and_eq_true,
    decide_eq_true_eq]
  constructor
  · rintro ⟨hentry, ⟨hlo, hhi, -⟩, -, hpage⟩
    exact ⟨hentry, ⟨hlo, hhi⟩, hpage⟩
  · rintro ⟨hentry, ⟨hlo, hhi⟩, hpage⟩
    exact ⟨hentry, ⟨hlo, hhi, halign⟩, hentry, hpage⟩

/-- The page loop ends, and answers for all pages from `page` to `last`. -/
theorem userPages_spec (m : ℕ → UInt8) (pd : ℕ) {last : ℕ} (hlast : last + 8192 ≤ 2 ^ 32)
    (fuel : ℕ) {page : ℕ} (halign : 4096 ∣ page) (hfuel : last < page + 4096 * fuel)
    (hpage : page ≤ last + 4096) :
    ∃ r, userPages m pd last (fuel + 1) page = some r ∧
      (r = true ↔ ∀ p, 4096 ∣ p → page ≤ p → p ≤ last → UserMapped m pd p) := by
  induction fuel generalizing page with
  | zero =>
    rw [userPages, if_neg (by omega)]
    exact ⟨true, rfl, fun _ p _ hp hpl => by omega, fun _ => rfl⟩
  | succ fuel ih =>
    rw [userPages]
    by_cases hle : page ≤ last
    · rw [if_pos hle]
      by_cases hmap : UserMapped m pd page
      · rw [if_pos ((userPage_iff m pd page).mpr hmap), add32_of_lt (by omega)]
        obtain ⟨r, hr, hiff⟩ := ih (Nat.dvd_add halign (Nat.dvd_refl 4096)) (by omega)
          (by omega)
        refine ⟨r, hr, hiff.trans ⟨fun h p hp hge hpl => ?_, fun h p hp hge hpl => h p hp (by omega) hpl⟩⟩
        rcases Nat.eq_or_lt_of_le hge with rfl | hlt
        · exact hmap
        · refine h p hp ?_ hpl
          obtain ⟨a, rfl⟩ := hp
          obtain ⟨b, rfl⟩ := halign
          omega
      · rw [if_neg fun h => hmap ((userPage_iff m pd page).mp h)]
        exact ⟨false, rfl, fun h => by simp at h, fun h => absurd (h page halign le_rfl hle) hmap⟩
    · rw [if_neg hle]
      exact ⟨true, rfl, fun _ p _ hp hpl => by omega, fun _ => rfl⟩

/-! ### Buffers of a process -/

/-- The linear address of the offset `offset` in the data segment of a process. -/
def dataAddress (m : ℕ → UInt8) (process offset : ℕ) : ℕ :=
  processWord m process procSlotWord + 0x400000 + offset

/-- A buffer of `size` bytes at `offset` in the data segment of the process that
is running, which it may write. -/
structure UserBuffer (s : Storage) (process offset size : ℕ) : Prop where
  slot : 0x100000 ≤ processWord s.mem process procSlotWord ∧
    processWord s.mem process procSlotWord ≤ 0x40000000 - 0xA00000
  segment : 0 < size ∧ offset + size ≤ 0x500000
  type : processWord s.mem process procTypeWord = 0
  directory : validTable (processWord s.mem process procPdWord) = true
  running : pageAddr s.cr3 = processWord s.mem process procPdWord
  pages : ∀ page, 4096 ∣ page → dataAddress s.mem process offset < page + 4096 →
    page < dataAddress s.mem process offset + size →
    UserMapped s.mem (processWord s.mem process procPdWord) page

theorem storageUserRange_pos {slot offset size : ℕ}
    (h : 0x100000 ≤ slot ∧ slot ≤ 0x40000000 - 0xA00000) (h' : 0 < size ∧ offset + size ≤ 0x500000) :
    storageUserRange slot offset size = slot + 0x400000 + offset := by
  unfold storageUserRange
  rw [if_neg (by omega), add32_of_lt (show slot + 0x400000 < 2 ^ 32 by omega), add32_of_lt (by omega)]

theorem storageUserRange_zero {slot offset size : ℕ}
    (h : ¬((0x100000 ≤ slot ∧ slot ≤ 0x40000000 - 0xA00000) ∧ 0 < size ∧ offset + size ≤ 0x500000)) :
    storageUserRange slot offset size = 0 := if_pos (by omega)

/-- **`user_output`** returns, and accepts exactly the buffers of the process. -/
theorem userOutput_spec (process offset size : ℕ) (s : Storage) :
    ∃ r, (userOutput process offset size).run s = some (r, s) ∧
      (r ≠ 0 ↔ UserBuffer s process offset size) ∧ (r ≠ 0 → r = dataAddress s.mem process offset) := by
  by_cases hrange : (0x100000 ≤ processWord s.mem process procSlotWord ∧
      processWord s.mem process procSlotWord ≤ 0x40000000 - 0xA00000) ∧ 0 < size ∧ offset + size ≤ 0x500000
  swap
  · refine ⟨0, ?_, ⟨fun h => absurd rfl h, fun h => absurd ⟨h.slot, h.segment⟩ hrange⟩, fun h => absurd rfl h⟩
    refine run_bind_eq_some.mpr ⟨s, s, rfl, ?_⟩
    dsimp only
    rw [if_pos (Or.inl (storageUserRange_zero hrange))]
    rfl
  have hlinear : storageUserRange (processWord s.mem process procSlotWord) offset size =
      dataAddress s.mem process offset := storageUserRange_pos hrange.1 hrange.2
  have hpos : dataAddress s.mem process offset ≠ 0 := by
    unfold dataAddress
    omega
  have hsmall : dataAddress s.mem process offset + size ≤ 0x40000000 - 0x100000 := by
    unfold dataAddress
    omega
  by_cases hproc : processWord s.mem process procTypeWord = 0 ∧
      validTable (processWord s.mem process procPdWord) = true ∧
      pageAddr s.cr3 = processWord s.mem process procPdWord
  swap
  · refine ⟨0, ?_, ⟨fun h => absurd rfl h, fun h => absurd ⟨h.type, h.directory, h.running⟩ hproc⟩,
      fun h => absurd rfl h⟩
    refine run_bind_eq_some.mpr ⟨s, s, rfl, ?_⟩
    dsimp only
    rw [if_pos]
    · rfl
    · by_contra hn
      push Not at hn
      exact hproc ⟨hn.2.1, by simpa using hn.2.2.1, hn.2.2.2⟩
  obtain ⟨htype, hpd, hcr3⟩ := hproc
  -- the loop over the pages
  have hstop : sub32 (add32 (dataAddress s.mem process offset) size) 1 =
      dataAddress s.mem process offset + size - 1 := by
    rw [add32_of_lt (by omega), sub32_of_le (by omega) (by omega)]
  have hlast : pageAddr (dataAddress s.mem process offset + size - 1) =
      (dataAddress s.mem process offset + size - 1) / 4096 * 4096 := pageAddr_eq (by omega)
  have hfirst : pageAddr (dataAddress s.mem process offset) =
      dataAddress s.mem process offset / 4096 * 4096 := pageAddr_eq (by omega)
  obtain ⟨r, hr, hiff⟩ := @userPages_spec s.mem (processWord s.mem process procPdWord)
    (pageAddr (dataAddress s.mem process offset + size - 1)) (by omega) (2 ^ 20)
    (pageAddr (dataAddress s.mem process offset)) (Nat.dvd_of_mod_eq_zero (pageAddr_aligned _))
    (by omega) (by omega)
  have hrun : (userOutput process offset size).run s =
      some (if r then dataAddress s.mem process offset else 0, s) := by
    refine run_bind_eq_some.mpr ⟨s, s, rfl, ?_⟩
    dsimp only
    rw [hlinear, if_neg (by
      push Not
      exact ⟨hpos, htype, by simpa using hpd, hcr3⟩)]
    rw [hstop, hr]
    cases r <;> rfl
  have hbuffer : r = true ↔ UserBuffer s process offset size := by
    rw [hiff]
    constructor
    · refine fun h => ⟨hrange.1, hrange.2, htype, hpd, hcr3, fun page hp hlo hhi => h page hp ?_ ?_⟩
      · obtain ⟨k, rfl⟩ := hp
        omega
      · obtain ⟨k, rfl⟩ := hp
        omega
    · refine fun h page hp hlo hhi => h.pages page hp ?_ ?_
      · omega
      · omega
  refine ⟨_, hrun, ?_, fun h => ?_⟩
  · rw [← hbuffer]
    cases r with
    | false => simp
    | true => simpa using hpos
  · cases r with
    | false => exact absurd rfl h
    | true => rfl

/-! ### System calls -/

/-- **A system call writes only the caller's own memory, and only on success.**
In every run, for every register image, process object and contents of memory:
a call that does not succeed, or that is not a request for information or for a
sector, changes no byte outside the memory of the driver.  A request that
succeeds came from a process with the permission, for a buffer that it may write
in its data segment, and changed exactly this buffer: to the record of the disk
or to the sector that arrived.  `user_output` always returns, and accepts every
buffer of this kind. -/
theorem syscall_writes_caller {s₀ : Storage} (h₀ : StorageBoot s₀) (h : StorageRun s₀ s)
    (r : StorageRegisters) (owner : ℕ) :
    (∀ a t, (storageSyscall r owner).run s = some (a, t) →
      (a ≠ storageOk ∨ r.eax ≠ syscallStorageInfo ∧ r.eax ≠ syscallStorageRead →
        ∀ b, ¬Own b → t.mem b = s.mem b) ∧
      (a = storageOk → r.eax = syscallStorageInfo ∨ r.eax = syscallStorageRead →
        processWord s.mem owner procStorageWord = 1 ∧ UserBuffer s owner r.edi r.size ∧
        (∀ b, ¬Own b → ¬(dataAddress s.mem owner r.edi ≤ b ∧ b < dataAddress s.mem owner r.edi + r.size) →
          t.mem b = s.mem b) ∧
        (r.eax = syscallStorageInfo →
          ∀ i < 56, t.mem (dataAddress s.mem owner r.edi + i) = (t.devices r.ebx).bytes i) ∧
        (r.eax = syscallStorageRead → ∃ d data, discoverStorage.run s = some ((), d) ∧
          Received r.ebx r.esi 1 d t data ∧
          ∀ i < 512, t.mem (dataAddress s.mem owner r.edi + i) = data i))) ∧
    ∀ offset size, ∃ buffer, (userOutput owner offset size).run s = some (buffer, s) ∧
      (buffer ≠ 0 ↔ UserBuffer s owner offset size) ∧
      (buffer ≠ 0 → buffer = dataAddress s.mem owner offset ∧ buffer + size < 2 ^ 32) := by
  have hs := (h.served h₀.inv).inv
  refine ⟨fun a t hr => ?_, fun offset size => ?_⟩
  · have hpost := storageSyscall_spec hs r owner a t hr
    refine ⟨hpost.refused, fun ha hop => ?_⟩
    obtain ⟨buffer, h0, hout, hperm, -, hrest, hinfo, hread⟩ := hpost.answered ha hop
    obtain ⟨b, hb, hiff, heq⟩ := userOutput_spec owner r.edi r.size s
    obtain rfl : buffer = b := (Prod.mk.inj (Option.some.inj (hout.symm.trans hb))).1
    have hbuffer := heq h0
    subst hbuffer
    refine ⟨hperm, hiff.mp h0, hrest, fun h5 => ?_, fun h6 => ?_⟩
    · have hsize : r.size = 56 := if_pos h5
      rw [hsize] at hinfo
      exact hinfo h5
    · have hsize : r.size = 512 := if_neg (by rw [h6]; decide)
      rw [hsize] at hread
      exact hread h6
  · obtain ⟨b, hb, hiff, heq⟩ := userOutput_spec owner offset size s
    refine ⟨b, hb, hiff, fun h0 => ⟨heq h0, ?_⟩⟩
    have hbuf := hiff.mp h0
    obtain ⟨h1, h2⟩ := hbuf.slot
    obtain ⟨h3, h4⟩ := hbuf.segment
    rw [heq h0, dataAddress]
    omega

/-! ### The report of the bootstrap -/

/-- PCI functions that are not there are passed over. -/
theorem findUsbDiskFrom_absent {n device : ℕ} (h0 : s.companionTarget = 0)
    (h : ∀ τ, ∀ d ≥ device, s.hw τ (.pci d 0) = 0xFFFFFFFF) :
    (findUsbDiskFrom n device).run s = some (false, { s with time := s.time + n }) := by
  induction n generalizing s device with
  | zero => rfl
  | succ n ih =>
    have hc : (usbCandidate device).run s = some (false, { s with time := s.time + 1 }) := by
      show (if s.companionTarget ≠ 0 ∧ device ≠ s.companionTarget then _ else _ : StorageM Bool).run s = _
      rw [if_neg fun h => h.1 h0]
      refine run_bind_eq_some.mpr ⟨s.answer (.pci device 0), { s with time := s.time + 1 }, rfl, ?_⟩
      rw [if_pos]
      · rfl
      · rw [Storage.answer, h _ _ le_rfl]
        show 0xFFFFFFFF % 2 ^ 32 &&& 0xFFFF = 0xFFFF
        decide
    rw [findUsbDiskFrom, StateT.run_bind, hc]
    refine (ih (s := { s with time := s.time + 1 }) h0 fun τ d hd => h τ d (by omega)).trans ?_
    simp [Nat.add_assoc, Nat.add_comm 1 n]

/-- Memory with a process that may read disks (its object at 30100000h) and has
one page of data. -/
def callerMemory (a : ℕ) : UInt8 :=
  UInt8.ofNat ((
    if a / 4 * 4 = 0x30100000 then 0x30500000
    else if a / 4 * 4 = 0x30100038 then 0x100000
    else if a / 4 * 4 = 0x30100044 then 1
    else if a / 4 * 4 = 0x30500004 then 0x30501007
    else if a / 4 * 4 = 0x30501400 then 0x600207
    else 0) >>> (8 * (a % 4)))

/-- A machine without disks, whose EHCI controller has no memory BAR, behind the
start of the driver. -/
def noDisk : Storage :=
  { coldStorage with
    hw := fun t r => match r with
      | .port _ => 0x20
      | .pci device offset =>
        if device ≠ 0 then 0xFFFFFFFF
        else if offset = 8 then 0x0C032000 else if offset = 0x10 then 1 else 0
      | .tsc => 1000000 * t
      | .mapped => 1
      | _ => 0
    mem := callerMemory
    cr3 := 0x30500000 }

def noDiskReady : Storage :=
  { noDisk with mmioPte := 0x3004F000 ||| 0x003, initialized := true, time := 1 }

/-- The request for the first sector of the USB disk. -/
def firstSector : StorageRegisters := ⟨0, 0, 0, 0, 0, 0, 0, syscallStorageRead⟩

theorem noDisk_search :
    ∃ s₁ s₂ t, calibrateTimer.run { noDiskReady with discovered := true, usbDiscovered := true } =
        some ((), s₁) ∧
      (zeroBytes dmaBase dmaSize).run s₁ = some ((), s₂) ∧ (findUsbDiskFrom 1 0).run s₂ = some (false, t) ∧
      t.companionTarget = 0 ∧ t.deviceMask = 0 ∧ (t.mem 0x3004F004).toNat = 2 ∧ t.hw = noDisk.hw := by
  have hrun : ((do
      calibrateTimer
      zeroBytes dmaBase dmaSize
      let found ← findUsbDiskFrom 1 0
      let s ← get
      return (found, [s.companionTarget, s.deviceMask, (s.mem 0x3004F004).toNat]) :
      StorageM (Bool × List ℕ)).run
        { noDiskReady with discovered := true, usbDiscovered := true }).map Prod.fst =
      some (false, [0, 0, 2]) := by
    decide +kernel
  obtain ⟨⟨x, y⟩, hx, hr⟩ := Option.map_eq_some_iff.mp hrun
  obtain ⟨_, s₁, h₁, hx⟩ := run_bind_eq_some.mp hx
  obtain ⟨_, s₂, h₂, hx⟩ := run_bind_eq_some.mp hx
  obtain ⟨found, t, h₃, hx⟩ := run_bind_eq_some.mp hx
  obtain ⟨_, _, hget, hx⟩ := run_bind_eq_some.mp hx
  obtain ⟨rfl, rfl⟩ := Prod.mk.inj (Option.some.inj hget)
  obtain ⟨rfl, rfl⟩ := Prod.mk.inj (Option.some.inj hx)
  simp only [Prod.mk.injEq, List.cons.injEq, and_true] at hr
  obtain ⟨rfl, htarget, hmask, hmem⟩ := hr
  refine ⟨s₁, s₂, _, h₁, h₂, h₃, htarget, hmask, hmem, ?_⟩
  have hf := frame_calibrateTimer _ _ _ h₁
  have h1 : s₁.hw = noDisk.hw := eq_of_part hf.part Storage.hw fun _ => rfl
  have h0 : s₁.ehci = 0 := ehci_eq_of_part hf.part
  have h1p : s₁.companionPorts = 0 := eq_of_part hf.part Storage.companionPorts fun _ => rfl
  obtain ⟨-, rfl⟩ := Prod.mk.inj (Option.some.inj h₂)
  have hs := (findUsbDiskFrom_search 1 0 (s := { s₁ with mem := overwrite s₁.mem dmaBase dmaSize fun _ => 0 })
    ⟨Or.inl h0, by rw [h1p]; decide⟩ h0 _ _ h₃).1
  exact (hs.eq Storage.hw fun _ => rfl).trans h1

/-- Discovery on this machine finds nothing, and notes the controller that it
tried in the report. -/
theorem noDisk_discover :
    ∃ t, discoverStorage.run noDiskReady = some ((), t) ∧ t.deviceMask = 0 ∧ (t.mem 0x3004F004).toNat = 2 := by
  obtain ⟨s₁, s₂, t, h₁, h₂, h₃, htarget, hmask, hmem, hhw⟩ := noDisk_search
  have habsent : ∀ τ, ∀ d ≥ 0x100, t.hw τ (.pci d 0) = 0xFFFFFFFF := by
    intro τ d hd
    rw [hhw]
    exact if_pos (show d ≠ 0 by omega)
  have hfind : findUsbDisk.run s₂ = some (false, { t with time := t.time + 65535 }) := by
    obtain ⟨b, v, hc, h₃⟩ := run_bind_eq_some.mp h₃
    refine run_bind_eq_some.mpr ⟨b, v, hc, ?_⟩
    cases b with
    | false =>
      obtain ⟨-, rfl⟩ := Prod.mk.inj (Option.some.inj h₃)
      exact findUsbDiskFrom_absent htarget habsent
    | true =>
      obtain ⟨f, w, hf, h₃⟩ := run_bind_eq_some.mp h₃
      refine run_bind_eq_some.mpr ⟨f, w, hf, ?_⟩
      cases f with
      | false =>
        obtain ⟨-, rfl⟩ := Prod.mk.inj (Option.some.inj h₃)
        exact findUsbDiskFrom_absent htarget habsent
      | true => exact absurd (Prod.mk.inj (Option.some.inj h₃)).1 (by decide)
  have husb : discoverUsb.run { noDiskReady with discovered := true } =
      some ((), { t with time := t.time + 65535 }) := by
    refine run_bind_eq_some.mpr ⟨_, _, rfl, run_bind_eq_some.mpr ⟨(), _, rfl, ?_⟩⟩
    refine run_bind_eq_some.mpr ⟨(), s₁, h₁, run_bind_eq_some.mpr ⟨(), s₂, h₂, ?_⟩⟩
    exact run_bind_eq_some.mpr ⟨false, _, hfind, rfl⟩
  -- the first function is not an IDE controller, and the others are not there
  have hata : discoverAta.run { t with time := t.time + 65535 } =
      some ((), { t with time := t.time + 65535 + 1 + 1 + 65535 }) := by
    have hfirst : (discoverAtaFunction 0 0).run { t with time := t.time + 65535 } =
        some (0, { t with time := t.time + 65535 + 1 + 1 }) := by
      refine run_bind_eq_some.mpr ⟨0, { t with time := t.time + 65535 + 1 }, ?_, ?_⟩
      · show some (t.hw _ _ % _, _) = _
        rw [hhw]
        rfl
      refine run_bind_eq_some.mpr ⟨0x0C032000, { t with time := t.time + 65535 + 1 + 1 }, ?_, rfl⟩
      show some (t.hw _ _ % _, _) = _
      rw [hhw]
      rfl
    refine run_bind_eq_some.mpr ⟨0, _, hfirst, ?_⟩
    exact discoverAtaFrom_absent (s := { t with time := t.time + 65535 + 1 + 1 }) habsent
  refine ⟨{ t with time := t.time + 65535 + 1 + 1 + 65535 }, ?_, hmask, hmem⟩
  refine run_bind_eq_some.mpr ⟨_, _, rfl, run_bind_eq_some.mpr ⟨(), _, rfl, ?_⟩⟩
  exact run_bind_eq_some.mpr ⟨(), _, husb, hata⟩

/-- The process of this machine has a buffer at the start of its data. -/
theorem noDisk_userOutput : (userOutput 0x30100000 0 512).run noDiskReady = some (0x500000, noDiskReady) := by
  obtain ⟨b, hb, -, -⟩ := userOutput_spec 0x30100000 0 512 noDiskReady
  have hval : ((userOutput 0x30100000 0 512).run noDiskReady).map Prod.fst = some 0x500000 := by
    decide +kernel
  rw [hb] at hval ⊢
  rw [show b = 0x500000 from Option.some.inj hval]

/-- **A refused request can change the report**: on a machine without disks the
request for a sector answers that there is no device, and a word outside the
DMA area and the MMIO alias has changed. -/
theorem syscall_changes_report :
    ∃ s t, StorageRun noDisk s ∧ (storageSyscall firstSector 0x30100000).run s = some (storageNoDevice, t) ∧
      ¬InDma 0x3004F004 ∧ ¬(storageMmioBase ≤ 0x3004F004 ∧ 0x3004F004 < storageMmioBase + 4096) ∧
      t.mem 0x3004F004 ≠ s.mem 0x3004F004 := by
  obtain ⟨t, hdisc, hmask, hmem⟩ := noDisk_discover
  refine ⟨noDiskReady, t, .step .nil (.start rfl), ?_, by decide, by decide, fun heq => ?_⟩
  · have hread : (storageRead 0 0 1 0x500000).run noDiskReady = some (storageNoDevice, t) := by
      refine run_bind_eq_some.mpr ⟨_, _, rfl, run_bind_eq_some.mpr ⟨(), t, hdisc, ?_⟩⟩
      refine run_bind_eq_some.mpr ⟨t, t, rfl, ?_⟩
      rw [if_pos (by rw [hmask]; decide)]
      rfl
    refine run_bind_eq_some.mpr ⟨_, _, rfl, ?_⟩
    have hperm : ¬(processWord noDiskReady.mem 0x30100000 procStorageWord ≠ 1 ∨
        processWord noDiskReady.mem 0x30100000 procTypeWord ≠ 0) := by
      decide +kernel
    rw [if_neg (by decide), if_neg (by decide), if_neg hperm, if_neg (by decide), if_neg (by decide)]
    exact run_bind_eq_some.mpr ⟨0x500000, noDiskReady, noDisk_userOutput, hread⟩
  · rw [heq] at hmem
    exact absurd hmem (by decide +kernel)

/-- The buffer of this process, as an instance. -/
theorem syscall_writes_caller_noDisk :
    ∃ buffer, (userOutput 0x30100000 0 512).run noDiskReady = some (buffer, noDiskReady) ∧
      buffer ≠ 0 ∧ UserBuffer noDiskReady 0x30100000 0 512 ∧ buffer = 0x500000 := by
  obtain ⟨buffer, hrun, hiff, -⟩ := (syscall_writes_caller (show StorageBoot noDisk from
    ⟨rfl, rfl, rfl, rfl, rfl, rfl, fun _ => rfl, rfl, rfl, rfl, rfl⟩) (.step .nil (.start rfl))
    firstSector 0x30100000).2 0 512
  have hb : buffer = 0x500000 := (Prod.mk.inj (Option.some.inj (hrun.symm.trans noDisk_userOutput))).1
  have h0 : buffer ≠ 0 := by omega
  exact ⟨buffer, hrun, h0, hiff.mp h0, hb⟩

end VirtualKernel
