/-
Sequences of calls of the storage driver.

`Served` is what every call does to the state and to the hardware, as far as the
dead marks and the flags that seal discovery go: it is transitive, so it holds
over every run (`StorageRun.served`).  `storageRead_spec` says in addition what a
read does to memory.  From both follows **`dead_transport_unused`**: a transport
that failed is never used again, and a read gives its caller exactly the data
that arrived for it, or nothing.
-/
import VirtualKernel.StorageCalls

namespace VirtualKernel

open Lib

variable {e : ℕ} {s t u : Storage}

/-! ### What a transfer stores -/

/-- Everything that was done to the hardware satisfies `P`. -/
def Issues (P : StorageOut → Prop) (s t : Storage) : Prop :=
  ∃ new, t.issued = s.issued ++ new ∧ ∀ o ∈ new, P o

variable {P Q : StorageOut → Prop}

instance : IsPreorder Storage (Issues P) where
  refl _ := exists_append_self rfl
  trans _ _ _ h h' := exists_append_trans h h'

theorem Issues.and (h : Issues P s t) (h' : Issues Q s t) : Issues (fun o => P o ∧ Q o) s t := by
  obtain ⟨new, hn, hp⟩ := h
  obtain ⟨new', hn', hq⟩ := h'
  obtain rfl : new' = new := List.append_cancel_left (hn'.symm.trans hn)
  exact ⟨new', hn, fun o ho => ⟨hp o ho, hq o ho⟩⟩

theorem Issues.mono (h : Issues P s t) (hPQ : ∀ o, P o → Q o) : Issues Q s t := by
  obtain ⟨new, hn, hp⟩ := h
  exact ⟨new, hn, fun o ho => hPQ o (hp o ho)⟩

theorem Issues.nil (h : t.issued = s.issued) : Issues P s t := exists_append_self h

theorem issues_quiet {α : Type} {A : ℕ → Prop} {m : StorageM α} (h : Within (Quiet A) m) :
    Within (Issues P) m :=
  h.mono fun _ _ hst => Issues.mono hst.issued fun _ ho => ho.elim

theorem issues_modify {g : Storage → Storage} (h : ∀ s, (g s).issued = s.issued) :
    Within (Issues P) (modify g : StorageM Unit) := within_modify fun s => Issues.nil (h s)

theorem issues_issue {o : StorageOut} (h : P o) : Within (Issues P) (issue o) :=
  within_modify fun _ => ⟨[o], rfl, by simpa using h⟩

/-- A transfer stores the address of the list and switches the schedule on and
off. -/
def TransferOut : StorageOut → Prop
  | .mmio _ value => value = dmaBase ∨ value = 0x21 ∨ value = 1
  | .load _ => True
  | .block _ => True
  | _ => False

theorem transferOut_ehciRead (index : ℕ) : Within (Issues TransferOut) (ehciRead index) :=
  within_bind within_get fun _ => within_bind (issues_issue trivial) fun _ =>
    issues_quiet (quiet_ask (A := fun _ => False) _)

theorem transferOut_ehciWrite (index : ℕ) {value : ℕ} (h : value = dmaBase ∨ value = 0x21 ∨ value = 1) :
    Within (Issues TransferOut) (ehciWrite index value) :=
  within_bind within_get fun _ => within_bind (issues_issue h) fun _ =>
    issues_modify fun _ => rfl

theorem transferOut_dmaWord (a : ℕ) : Within (Issues TransferOut) (dmaWord a) :=
  issues_quiet (@quiet_dmaWord 0 0 0 a)

theorem transferOut_transferPoll (last : ℕ) : Within (Issues TransferOut) (transferPoll last) := by
  refine within_bind (transferOut_ehciRead _) fun _ => within_ite (fun _ => within_pure _) fun _ => ?_
  refine within_bind (transferOut_dmaWord _) fun _ => within_ite (fun _ => within_pure _) fun _ => ?_
  refine within_bind (transferOut_dmaWord _) fun _ => within_ite (fun _ => within_pure _) fun _ => ?_
  exact within_bind (transferOut_dmaWord _) fun _ => within_pure _

theorem transferOut_transferRun (endpoint packetSize last : ℕ) :
    Within (Issues TransferOut) (transferRun endpoint packetSize last) := by
  refine within_bind (issues_quiet (@quiet_queueHead 0 0 0 _ _)) fun _ => ?_
  refine within_bind (transferOut_ehciWrite _ (Or.inl rfl)) fun _ => ?_
  refine within_bind (transferOut_ehciWrite _ (Or.inr (Or.inl rfl))) fun _ => ?_
  refine within_bind (issues_quiet (quiet_tsc (A := fun _ => False))) fun _ => ?_
  refine within_bind (transferOut_transferPoll last) fun success => ?_
  refine within_bind (transferOut_ehciWrite _ (Or.inr (Or.inr rfl))) fun _ => ?_
  exact within_bind (issues_modify fun _ => rfl) fun _ => within_pure _

theorem transferOut_transferFailed : Within (Issues TransferOut) transferFailed := by
  refine within_bind (transferOut_ehciRead _) fun _ => within_bind (issues_modify fun _ => rfl) fun _ => ?_
  refine within_bind (issues_quiet (quiet_loadWord (A := fun _ => False) _)) fun _ => ?_
  refine within_bind (issues_modify fun _ => rfl) fun _ => ?_
  exact within_bind (issues_modify fun _ => rfl) fun _ => within_pure _

theorem transferOut_transfer (endpoint packetSize last target n index : ℕ) :
    Within (Issues TransferOut) (transfer endpoint packetSize last target n index) := by
  refine within_bind within_get fun _ => within_ite (fun _ => within_pure _) fun _ => ?_
  refine within_bind (transferOut_transferRun _ _ _) fun _ => ?_
  refine within_bind (issues_modify fun _ => rfl) fun _ => ?_
  refine within_bind (within_bind (transferOut_ehciRead _) fun _ => within_pure _) fun _ => ?_
  refine within_ite (fun _ => within_none) fun _ => ?_
  exact within_ite (fun _ => within_pure _) fun _ => transferOut_transferFailed

theorem transferOut_bulk (input : Bool) (buffer length : ℕ) :
    Within (Issues TransferOut) (bulk input buffer length) := by
  refine within_bind within_get fun _ => ?_
  refine within_bind (issues_quiet (quiet_makeQtd (e := 0) (d := 0) (n := 0) _ _ _ _ _ (by decide))) fun _ => ?_
  refine within_bind ?_ fun _ => within_bind (transferOut_transfer _ _ _ _ _ _) fun _ => ?_
  · refine within_bind within_get fun _ => within_ite (fun _ => within_pure _) fun _ => ?_
    exact issues_issue trivial
  refine within_ite (fun _ => within_pure _) fun _ => within_bind (issues_modify fun _ => rfl) fun _ => ?_
  refine within_bind within_get fun _ => within_ite (fun _ => ?_) fun _ => ?_
  · exact within_bind (issues_modify fun _ => rfl) fun _ => within_pure _
  · refine within_bind (issues_modify fun _ => ?_) fun _ => within_pure _
    cases input <;> rfl

theorem transferOut_scsi (command : List ℕ) (length : ℕ) :
    Within (Issues TransferOut) (scsi command length) := by
  refine within_ite (fun _ => within_pure _) fun _ => ?_
  refine within_bind (fun s a t hr => ?_) fun _ => within_bind (transferOut_bulk _ _ _) fun _ => ?_
  · rw [putCbw_run] at hr
    rw [← (Prod.mk.inj (Option.some.inj hr)).2]
    exact Issues.nil rfl
  refine within_ite (fun _ => within_pure _) fun _ => ?_
  refine within_bind (within_ite (fun _ => within_pure _) fun _ => transferOut_bulk _ _ _) fun _ => ?_
  refine within_ite (fun _ => within_pure _) fun _ => within_bind (transferOut_bulk _ _ _) fun _ => ?_
  refine within_ite (fun _ => within_pure _) fun _ => ?_
  exact (quiet_scsiStatus (A := fun _ => False) length).mono fun _ _ hst => hst.issued

/-- The command of a read from a USB disk. -/
def readCommand (lba blocks : ℕ) : List ℕ :=
  [0x28, 0] ++ putBe32 lba ++ [0, blocks >>> 8 % 2 ^ 8, blocks % 2 ^ 8, 0]

theorem transferOut_usbRead (lba blocks : ℕ) : Within (Issues TransferOut) (usbRead lba blocks) := by
  refine within_bind within_get fun _ => within_ite (fun _ => within_pure _) fun _ => ?_
  exact within_bind (transferOut_scsi _ _) fun _ => within_pure _

/-! ### What a call may do -/

/-- The first port of the channel of the ATA disk `d`. -/
def channelPort (d : ℕ) : ℕ := if 2 ≤ d then 0x170 else 0x1F0

/-- What a call from `s` may do to the hardware. Behind discovery only READ
SECTORS goes to a channel, and only for a disk that is not dead; behind the
search for USB disks there is no request on the control pipe and no reset, and
the schedule is not started on a dead transport: the registers that are still
written are those of the ports. -/
def CallOut (s : Storage) : StorageOut → Prop
  | .port p v => s.discovered = true → ∃ d < 4, s.ataDead d = false ∧ AtaOut (channelPort d) 0x20 (.port p v)
  | .pci _ _ _ => s.usbDiscovered = false
  | .mmio a v => s.usbDiscovered = true →
      v ≠ 2 ∧ (s.transportDead = false ∨ s.ehci + 0x44 ≤ a)
  | .load _ => True
  | .setup _ _ _ _ _ => s.usbDiscovered = false
  | .block _ => s.usbDiscovered = true → s.transportDead = false

/-- The invariant does not see memory, the hardware and the data ports. -/
theorem StorageInv.of_part (hs : StorageInv s) (h : t.part .wire = s.part .wire) : StorageInv t := by
  have hpart : ∀ u : Storage, StorageInv (u.part .wire) = StorageInv u := fun u =>
    propext ⟨fun h => ⟨⟨h.ready, h.disk, h.found, h.dead, h.handed⟩, h.usb, h.ata, h.pair⟩,
      fun h => ⟨⟨h.ready, h.disk, h.found, h.dead, h.handed⟩, h.usb, h.ata, h.pair⟩⟩
  rw [eq_of_part h StorageInv hpart]
  exact hs

/-- IDENTIFY DEVICE. -/
def IdentifyOut : StorageOut → Prop
  | .port p v => (p = 0x1F7 ∨ p = 0x177) ∧ v = 0xEC
  | _ => False

/-- A request on the control pipe, the hand-over from the BIOS and the reset of
the controller. -/
def EnumerateOut : StorageOut → Prop
  | .pci _ _ _ => True
  | .mmio _ v => v = 2
  | .setup _ _ _ _ _ => True
  | _ => False

/-- What belongs to discovery is done only by a call that seals it. -/
def Sealed (t : Storage) (o : StorageOut) : Prop :=
  (IdentifyOut o → t.discovered = true) ∧ (EnumerateOut o → t.usbDiscovered = true)

/-- All disks of the channel at `p` are given up. -/
def ChannelDead (p : ℕ) (s : Storage) : Prop := ∀ d < 4, channelPort d = p → s.ataDead d = true

/-- What every call does. -/
structure Served (s t : Storage) : Prop where
  inv : StorageInv t
  initialized : s.initialized = true → t.initialized = true
  discovered : s.discovered = true → t.discovered = true
  usb : s.usbDiscovered = true → t.usbDiscovered = true
  table : s.discovered = true → t.deviceMask = s.deviceMask ∧ t.devices = s.devices
  ehci : s.usbDiscovered = true → t.ehci = s.ehci ∧ t.companions = s.companions
  ata : ∀ d, s.ataDead d = true → t.ataDead d = true
  dead : s.transportDead = true → t.transportDead = true
  issued : Issues (fun o => Lawful o ∧ CallOut s o ∧ Sealed t o) s t
  bulks : ∃ new, t.bulks = s.bulks ++ new ∧ ∀ b ∈ new, b.lawful

theorem Served.refl (h : StorageInv s) : Served s s :=
  ⟨h, id, id, id, fun _ => ⟨rfl, rfl⟩, fun _ => ⟨rfl, rfl⟩, fun _ => id, id, Issues.nil rfl, exists_append_self rfl⟩

/-- What is allowed later was allowed before. -/
theorem Served.callOut (h : Served s t) {o : StorageOut} (ho : CallOut t o) : CallOut s o := by
  have hdead : t.transportDead = false → s.transportDead = false := by
    intro hd
    by_contra hne
    simp [h.dead (by simpa using hne)] at hd
  have husb : t.usbDiscovered = false → s.usbDiscovered = false := by
    intro hd
    by_contra hne
    simp [h.usb (by simpa using hne)] at hd
  cases o with
  | port p v =>
    intro hs
    obtain ⟨d, hd4, hd, hout⟩ := ho (h.discovered hs)
    refine ⟨d, hd4, ?_, hout⟩
    by_contra hne
    simp [h.ata d (by simpa using hne)] at hd
  | pci d p v => exact husb ho
  | mmio a v =>
    intro hs
    obtain ⟨hv, hor⟩ := ho (h.usb hs)
    refine ⟨hv, hor.imp hdead fun ha => ?_⟩
    rwa [← (h.ehci hs).1]
  | load a => trivial
  | setup => exact husb ho
  | block opcode => exact fun hs => hdead (ho (h.usb hs))

theorem Served.trans (h : Served s t) (h' : Served t u) : Served s u :=
  ⟨h'.inv, fun hs => h'.initialized (h.initialized hs), fun hs => h'.discovered (h.discovered hs),
    fun hs => h'.usb (h.usb hs),
    fun hs => ⟨(h'.table (h.discovered hs)).1.trans (h.table hs).1,
      (h'.table (h.discovered hs)).2.trans (h.table hs).2⟩,
    fun hs => ⟨(h'.ehci (h.usb hs)).1.trans (h.ehci hs).1, (h'.ehci (h.usb hs)).2.trans (h.ehci hs).2⟩,
    fun d hd => h'.ata d (h.ata d hd),
    fun hd => h'.dead (h.dead hd),
    trans_of (Issues _)
      (h.issued.mono fun _ ho => ⟨ho.1, ho.2.1, fun hi => h'.discovered (ho.2.2.1 hi),
        fun hi => h'.usb (ho.2.2.2 hi)⟩)
      (h'.issued.mono fun _ ho => ⟨ho.1, h.callOut ho.2.1, ho.2.2⟩),
    exists_append_trans h.bulks h'.bulks⟩

/-! ### Discovery -/

theorem DiscoverPost.served (hs : StorageInv s) (h : DiscoverPost s t) : Served s t := by
  cases hd : s.discovered with
  | true =>
    obtain rfl := h.same hd
    exact .refl hs
  | false =>
    refine ⟨h.inv, fun hi => h.kept.1.trans hi, fun _ => h.done, fun _ => h.inv.usb h.done,
      fun hd' => by simp [hd] at hd', fun hu => ⟨(h.usbOnce hu).2.1, (h.usbOnce hu).2.2.1⟩, fun d hdead => h.kept.2.1 ▸ hdead,
      fun hdead => (h.usbOnce (hs.dead hdead)).1.trans hdead, ?_, h.bulks⟩
    have hseal : ∀ o, Sealed t o := fun _ => ⟨fun _ => h.done, fun _ => h.inv.usb h.done⟩
    cases hu : s.usbDiscovered with
    | true =>
      -- only the search for ATA disks is left
      refine Issues.mono (h.usbOnce hu).2.2.2 fun o ho => ⟨ho.1, ?_, hseal o⟩
      obtain ⟨p, v, rfl⟩ := ho.2
      exact fun hd' => by simp [hd] at hd'
    | false =>
      refine Issues.mono h.issued fun o ho => ⟨ho, ?_, hseal o⟩
      cases o with
      | port p v => exact fun hd' => by simp [hd] at hd'
      | pci d p v => exact hu
      | mmio a v => exact fun hu' => by simp [hu] at hu'
      | load a => trivial
      | setup => exact hu
      | block opcode => exact fun hu' => by simp [hu] at hu'

theorem discoverStorage_served (hs : StorageInv s) :
    Ensures discoverStorage s fun _ t => Served s t ∧ DiscoverPost s t :=
  (discoverStorage_spec hs).mono fun _ _ ht => ⟨ht.served hs, ht⟩

/-- The search for a USB disk, which is made once. -/
theorem discoverUsb_served (hs : StorageInv s) (hu : s.usbDiscovered = false) :
    Ensures discoverUsb s fun _ t => Served s t := by
  have hd : s.discovered = false := by
    by_contra hne
    simp [hs.usb (by simpa using hne)] at hu
  refine (discoverUsb_spec hs.toUsbInv).mono fun _ t ht => ?_
  obtain ⟨hinit, hdisc, hata, -⟩ := ht.kept
  have hnone : ∀ d, s.ataDead d = false := fun d => by
    by_contra hne
    simp [hs.ata d (by simpa using hne)] at hd
  have hnone' : ∀ d, t.ataDead d = false := fun d => hata ▸ hnone d
  refine ⟨⟨ht.inv, fun _ => ht.done, fun d hdead => by simp [hnone' d] at hdead, hata ▸ hs.pair⟩,
    fun hi => hinit.trans hi, fun hd' => by simp [hd] at hd', fun _ => ht.done,
    fun hd' => by simp [hd] at hd', fun hu' => by simp [hu] at hu',
    fun d hdead => by simp [hnone d] at hdead, fun hdead => by simp [hs.dead hdead] at hu, ?_, ht.bulks⟩
  refine Issues.mono ht.issued fun o ho => ⟨lawful_of_searchOut o ho, ?_, fun hi => ?_, fun _ => ht.done⟩
  swap
  · -- the search does not touch the channels
    cases o with
    | port p v =>
      obtain ⟨rfl | rfl, -⟩ := hi <;> simp [SearchOut] at ho
    | _ => exact hi.elim
  cases o with
  | port p v => exact fun hd' => by simp [hd] at hd'
  | pci d p v => exact hu
  | mmio a v => exact fun hu' => by simp [hu] at hu'
  | load a => trivial
  | setup => exact hu
  | block opcode => exact fun hu' => by simp [hu] at hu'

/-! ### A read -/

/-- What arrived for a read of `blocks` sectors between two states: the data
stage of its READ command, or the words from the channel. -/
def Received (device lba blocks : ℕ) (s t : Storage) (data : ℕ → UInt8) : Prop :=
  if device = 0 then
    ∃ cbw csw, t.bulks = s.bulks ++ commandStages cbw data csw (blocks * 512) ∧
      (∀ i < 31, cbw i = cbwByte t.usbTag (blocks * 512) (readCommand lba blocks) i) ∧
      ∃ τ, s.time ≤ τ ∧ ∀ i < blocks * 512, data i = s.incoming τ i
  else ∃ words, words.length = blocks * 256 ∧ t.ataWords = s.ataWords ++ words ∧
    ∀ i < blocks * 512, data i = ataByte words i

/-- What the transport of a read leaves behind. -/
structure ReadPost (device lba blocks : ℕ) (s : Storage) (r : Bool) (t : Storage) : Prop where
  served : Served s t
  mem : ∀ a, ¬Own a → t.mem a = s.mem a
  dead : r = false → device ≠ 0 → ChannelDead (channelPort (device - 1)) t
  data : r = true → ∃ data, Received device lba blocks s t data ∧
    ∀ i < blocks * 512, t.mem (transferBuffer + i) = data i

/-- The data of a read from the USB disk. -/
theorem usbRead_received (hwin : InWindow s.ehci) (lba blocks : ℕ) :
    Ensures (usbRead lba blocks) s fun r t => r = true → ∃ data, Received 0 lba blocks s t data ∧
      ∀ i < blocks * 512, t.mem (transferBuffer + i) = data i := by
  refine ensures_get_bind (ensures_ite (fun _ => ensures_pure fun h => by simp at h) fun hb => ?_)
  cases hv : storageReadCdbValid (readCommand lba blocks) (blocks * 512) with
  | false =>
    refine ensures_bind (Q := fun r t => r = -1) (fun r t hr => (scsi_invalid hv hr).1) ?_
    rintro _ t rfl
    exact ensures_pure fun h => by simp at h
  | true =>
    refine ensures_bind (scsi_spec rfl hwin.high hv) fun r t ht => ensures_pure fun hr => ?_
    have hr1 : r = 1 := by simpa using hr
    rcases ht.result with ⟨h1, -⟩ | hdone
    · omega
    · obtain ⟨cbw, data, csw, hst, hcbw, hdata, hmem, -⟩ := hdone.stages
      exact ⟨data, ⟨cbw, csw, hst.bulks, hcbw, hdata⟩, hmem⟩

/-- The transport of a read from the USB disk. -/
theorem usbRead_spec (hs : StorageInv s) (hd : s.discovered = true) (hbit : s.deviceMask.testBit 0 = true)
    (lba blocks : ℕ) : Ensures (usbRead lba blocks) s (ReadPost 0 lba blocks s) := by
  have hwin := hs.inWindow hbit
  intro r t hr
  -- a transfer changes the variables of the transport alone
  have hf := frame_usbRead (k := false) hwin.room lba blocks s r t hr rfl
  have hu := hs.usb hd
  have heq : ∀ {α : Type} (f : Storage → α), (∀ u : Storage, f (u.part .driver) = f u) → f t = f s :=
    fun f => eq_of_part hf.part f
  have hehci : t.ehci = s.ehci := heq Storage.ehci fun _ => rfl
  have hata : t.ataDead = s.ataDead := heq Storage.ataDead fun _ => rfl
  have htd : t.discovered = true := (heq Storage.discovered fun _ => rfl).trans hd
  have htu : t.usbDiscovered = true := (heq Storage.usbDiscovered fun _ => rfl).trans hu
  have hmask : t.deviceMask = s.deviceMask := heq Storage.deviceMask fun _ => rfl
  have hinv : StorageInv t := by
    refine ⟨⟨?_, by rw [hmask, hehci]; exact hs.disk, fun _ => htu, fun _ => htu, fun _ => htu⟩, fun _ => htu,
      fun _ _ => htd, hata ▸ hs.pair⟩
    rw [EhciReady, hehci, heq Storage.companionPorts fun _ => rfl]
    exact hs.ready
  refine ⟨⟨hinv, fun hi => (heq Storage.initialized fun _ => rfl).trans hi, fun _ => htd, fun _ => htu,
    fun _ => ⟨hmask, heq Storage.devices fun _ => rfl⟩,
    fun _ => ⟨hehci, heq Storage.companions fun _ => rfl⟩, fun d h => hata ▸ h, fun hdead => (usbRead_dead lba blocks hdead r t hr).2.2, ?_, hf.bulks⟩, hf.mem, fun _ h => absurd rfl h,
    usbRead_received hwin lba blocks r t hr⟩
  cases hdead : s.transportDead with
  | true => exact Issues.nil (usbRead_dead lba blocks hdead r t hr).2.1
  | false =>
    -- only the command, the status and the list register are written
    have hout : Issues (fun o => EhciOut false s.ehci o ∧ TransferOut o) s t :=
      Issues.and hf.issued (transferOut_usbRead lba blocks s r t hr)
    refine hout.mono fun o ho => ⟨lawful_of_searchOut o (searchOut_of_ehciOut o ho.1), ?_,
      fun _ => htd, fun _ => htu⟩
    cases o with
    | port p v => exact ho.1.elim
    | pci d p v => exact ho.1.elim
    | mmio a v =>
      refine fun _ => ⟨?_, Or.inl hdead⟩
      rcases ho.2 with rfl | rfl | rfl <;> decide
    | load a => trivial
    | setup => exact absurd ho.1 (by simp [EhciOut])
    | block opcode => exact fun _ => hdead

theorem channelPort_eq (device : ℕ) :
    channelPort (device - 1) = if 2 < device then 0x170 else 0x1F0 := by
  unfold channelPort
  split_ifs <;> omega

/-- The two disks of a channel. -/
theorem channel_cases {d d' : ℕ} (hd : d < 4) (hd' : d' < 4) (h : channelPort d = channelPort d') :
    d = d' / 2 * 2 ∨ d = d' / 2 * 2 + 1 := by
  unfold channelPort at h
  split_ifs at h <;> omega

/-- The transport of a read from an ATA disk that is not dead. -/
theorem readAta_spec (hs : StorageInv s) (hd : s.discovered = true) {device : ℕ} (hdev : device ≠ 0) (hcount : device < 5)
    (halive : s.ataDead (device - 1) = false) (lba blocks : ℕ) :
    Ensures (readAta device lba blocks) s (ReadPost device lba blocks s) := by
  refine ensures_modify_bind ?_
  rw [← channelPort_eq device]
  refine ensures_bind ((frame_ataRead _ lba blocks).and (ataRead_arrived lba blocks _)) fun done v hv => ?_
  obtain ⟨hf, harr⟩ := hv
  -- the transfer changes nothing but memory, the clock and what was issued
  have heq : ∀ {α : Type} (f : Storage → α), (∀ u : Storage, f (u.part .ata) = f u) →
      f v = f { s with ataPort := channelPort (device - 1), ataDevice := (device - 1) &&& 1 } :=
    fun f => eq_of_part hf.part f
  have hehci : v.ehci = s.ehci := heq Storage.ehci fun _ => rfl
  have hata : v.ataDead = s.ataDead := heq Storage.ataDead fun _ => rfl
  have hvd : v.discovered = true := (heq Storage.discovered fun _ => rfl).trans hd
  have hvu : v.usbDiscovered = true := (heq Storage.usbDiscovered fun _ => rfl).trans (hs.usb hd)
  have hmask : v.deviceMask = s.deviceMask := heq Storage.deviceMask fun _ => rfl
  have hdead : v.transportDead = s.transportDead := heq Storage.transportDead fun _ => rfl
  have hport : channelPort (device - 1) = 0x1F0 ∨ channelPort (device - 1) = 0x170 := by
    unfold channelPort
    split_ifs
    · exact Or.inr rfl
    · exact Or.inl rfl
  have hissued : Issues (fun o => Lawful o ∧ CallOut s o ∧ Sealed v o) s v := by
    refine Issues.mono hf.issued fun o ho => ⟨(ataLawful_of_ataOut hport (Or.inr rfl) o ho).1, ?_,
      fun _ => hvd, fun _ => hvu⟩
    cases o with
    | port p value => exact fun _ => ⟨device - 1, by omega, halive, ho⟩
    | _ => exact ho.elim
  have husb : UsbInv v := by
    refine ⟨?_, by rw [hmask, hehci]; exact hs.disk, fun _ => hvu, fun _ => hvu, fun _ => hvu⟩
    rw [EhciReady, hehci, heq Storage.companionPorts fun _ => rfl]
    exact hs.ready
  have hserved : Served s v :=
    ⟨⟨husb, fun _ => hvu, fun _ _ => hvd, hata ▸ hs.pair⟩,
      fun hi => (heq Storage.initialized fun _ => rfl).trans hi, fun _ => hvd, fun _ => hvu,
      fun _ => ⟨hmask, heq Storage.devices fun _ => rfl⟩, fun _ => ⟨hehci, heq Storage.companions fun _ => rfl⟩,
    fun d h => hata ▸ h,
      fun h => hdead.trans h, hissued, hf.bulks⟩
  refine ensures_ite (fun hdone => ensures_pure ?_) fun hdone => ensures_modify_bind (ensures_pure ?_)
  · refine ⟨hserved, hf.mem, fun h => by simp at h, fun _ => ?_⟩
    obtain ⟨words, hw⟩ := harr hdone
    refine ⟨ataByte words, ?_, fun i hi => hw.data i (by omega)⟩
    rw [Received, if_neg hdev]
    exact ⟨words, hw.length, hw.arrived, fun _ _ => rfl⟩
  · -- both disks of the channel are given up
    have hmono : ∀ d, s.ataDead d = true → Function.update (Function.update v.ataDead
        ((device - 1) / 2 * 2) true) ((device - 1) / 2 * 2 + 1) true d = true := by
      intro d hd
      simp only [Function.update_apply, hata]
      split_ifs <;> simp [hd]
    have hpair : ∀ c, Function.update (Function.update v.ataDead ((device - 1) / 2 * 2) true)
        ((device - 1) / 2 * 2 + 1) true (c * 2) = Function.update (Function.update v.ataDead
        ((device - 1) / 2 * 2) true) ((device - 1) / 2 * 2 + 1) true (c * 2 + 1) := by
      intro c
      have hp := hs.pair c
      simp only [Function.update_apply, hata]
      split_ifs <;> first | rfl | omega
    refine ⟨⟨⟨⟨husb.ready, husb.disk, husb.found, husb.dead, husb.handed⟩, fun _ => hvu, fun _ _ => hvd, hpair⟩,
      hserved.initialized, hserved.discovered, hserved.usb, hserved.table, hserved.ehci, hmono,
      hserved.dead, hserved.issued, hserved.bulks⟩, hf.mem, fun _ _ d hd4 hp => ?_, fun h => by simp at h⟩
    have hd : d = (device - 1) / 2 * 2 ∨ d = (device - 1) / 2 * 2 + 1 :=
      channel_cases hd4 (by omega) hp
    rcases hd with rfl | rfl <;> simp

theorem readTransport_spec (hs : StorageInv s) (hd : s.discovered = true) {device : ℕ}
    (hcount : device < 5) (hbit : s.deviceMask.testBit device = true) (lba blocks : ℕ) :
    Ensures (readTransport device lba blocks) s (ReadPost device lba blocks s) := by
  refine ensures_ite (fun h0 => ?_) fun h0 => ensures_get_bind (ensures_ite (fun hdead => ?_) fun hdead => ?_)
  · subst h0
    exact usbRead_spec hs hd hbit lba blocks
  · refine ensures_pure ⟨.refl hs, fun _ _ => rfl, fun _ _ d hd4 hp => ?_, fun h => by simp at h⟩
    have hpair := hs.pair ((device - 1) / 2)
    have hself := channel_cases (show device - 1 < 4 by omega) (show device - 1 < 4 by omega) rfl
    rcases channel_cases hd4 (by omega) hp with rfl | rfl <;> rcases hself with h1 | h1
    · rwa [← h1]
    · rwa [hpair, ← h1]
    · rwa [← hpair, ← h1]
    · rwa [← h1]
  · exact readAta_spec hs hd h0 hcount (by simpa using hdead) lba blocks

/-! ### The calls -/

theorem storageInitializeDriver_served (hs : StorageInv s) :
    Ensures storageInitializeDriver s fun _ t => Served s t := by
  refine ensures_get_bind (ensures_ite (fun _ => ensures_pure (.refl hs)) fun _ => ?_)
  refine ensures_modifyGet_bind (ensures_ite (fun _ => ensures_none) fun _ => ensures_modify ?_)
  exact ⟨⟨⟨hs.ready, hs.disk, hs.found, hs.dead, hs.handed⟩, hs.usb, hs.ata, hs.pair⟩, fun _ => rfl, id, id,
    fun _ => ⟨rfl, rfl⟩, fun _ => ⟨rfl, rfl⟩, fun _ => id, id, Issues.nil rfl, exists_append_self rfl⟩

theorem storagePrepareUsbCompanions_served (hs : StorageInv s) (ehciPci : ℕ) :
    Ensures (storagePrepareUsbCompanions ehciPci) s fun _ t => Served s t := by
  have hresult : ∀ v : Storage, Served s v → Ensures companionsResult v fun _ t => Served s t :=
    fun v hv => ensures_get_bind (ensures_pure hv)
  refine ensures_get_bind (ensures_ite (fun _ => hresult s (.refl hs)) fun hc => ensures_modify_bind ?_)
  push Not at hc
  have hs' : StorageInv { s with companionTarget := ehciPci } :=
    ⟨⟨hs.ready, hs.disk, hs.found, hs.dead, hs.handed⟩, hs.usb, hs.ata, hs.pair⟩
  refine ensures_bind (discoverUsb_served hs' (by simpa using hc.2)) fun _ v hv => hresult v ?_
  exact ⟨hv.inv, hv.initialized, hv.discovered, hv.usb, hv.table, hv.ehci, hv.ata, hv.dead,
    hv.issued.mono fun o ho => ⟨ho.1, by cases o <;> exact ho.2.1, ho.2.2⟩, hv.bulks⟩

/-! ### Ports of the companions -/

/-- A load of a register, and a store to one. -/
def Storage.loaded (s : Storage) (a : ℕ) : Storage :=
  { s with issued := s.issued ++ [.load a], time := s.time + 1 }

def Storage.stored (s : Storage) (a value : ℕ) : Storage :=
  { s with issued := s.issued ++ [.mmio a value], mem := overwrite s.mem a 4 (byteOf value) }

/-- The register of a port of the controller at `e`. -/
def portRegister (e port : ℕ) : ℕ := e + 4 * ((0x44 + port * 4) / 4)

/-- What is stored to hand a port over. -/
def handOver (value : ℕ) : ℕ := (value &&& (2 ^ 32 - 1 - (0x2A ||| 4))) ||| 0x2000

/-- The state behind the turn of one port. -/
def Storage.refreshed (s : Storage) (keep port : ℕ) : Storage :=
  if port = keep then s
  else if s.answer (.mmio (portRegister s.ehci port)) &&& 0x2001 = 1 then
    ((s.loaded (portRegister s.ehci port)).stored (portRegister s.ehci port)
      (handOver (s.answer (.mmio (portRegister s.ehci port))))).loaded (portRegister s.ehci port)
  else s.loaded (portRegister s.ehci port)

theorem ehciRead_run (index : ℕ) (s : Storage) :
    (ehciRead index).run s = some (s.answer (.mmio (s.ehci + 4 * index)), s.loaded (s.ehci + 4 * index)) :=
  rfl

theorem refreshPort_run (keep port : ℕ) (s : Storage) :
    (refreshPort keep port).run s = some ((), s.refreshed keep port) := by
  unfold refreshPort Storage.refreshed
  split_ifs with hk hv
  · rfl
  · rw [StateT.run_bind, ehciRead_run]
    show (if s.answer (.mmio (portRegister s.ehci port)) &&& 0x2001 = 1 then _ else _ : StorageM Unit).run _ = _
    rw [if_pos hv]
    rfl
  · rw [StateT.run_bind, ehciRead_run]
    show (if s.answer (.mmio (portRegister s.ehci port)) &&& 0x2001 = 1 then _ else _ : StorageM Unit).run _ = _
    rw [if_neg hv]
    rfl

/-- The registers that `storage_refresh_usb_companions` loads and stores. -/
def RefreshOut (e : ℕ) : StorageOut → Prop
  | .mmio a v => e + 0x44 ≤ a ∧ v.testBit 13 = true
  | .load _ => True
  | _ => False

theorem testBit_handOver (value : ℕ) : (handOver value).testBit 13 = true := by
  rw [handOver, Nat.testBit_or, show Nat.testBit 0x2000 13 = true by decide, Bool.or_true]

/-- One turn. -/
theorem refreshed_frame (hwin : InWindow s.ehci) (keep : ℕ) {port : ℕ} (hp : port < 15) :
    DriverFrame .wire Own (RefreshOut s.ehci) s (s.refreshed keep port) := by
  have hreg : portRegister s.ehci port = s.ehci + (0x44 + 4 * port) := by
    unfold portRegister
    omega
  unfold Storage.refreshed
  split_ifs with hk hv
  · exact refl_of _ s
  · refine ⟨rfl, show s.time ≤ s.time + 1 + 1 by omega, fun a ha => ?_, ⟨[.load (portRegister s.ehci port),
      .mmio (portRegister s.ehci port) (handOver (s.answer (.mmio (portRegister s.ehci port)))),
      .load (portRegister s.ehci port)], ?_, ?_⟩, exists_append_self rfl⟩
    · show overwrite s.mem _ 4 _ a = s.mem a
      refine overwrite_of_not_mem (A := Own) (fun i hi => ?_) ha
      rw [hreg, Nat.add_assoc]
      exact own_window hwin (by omega)
    · simp only [Storage.loaded, Storage.stored, List.append_assoc, List.cons_append, List.nil_append]
    · simp only [List.mem_cons, List.not_mem_nil, or_false]
      rintro o (rfl | rfl | rfl)
      · trivial
      · exact ⟨by omega, testBit_handOver _⟩
      · trivial
  · exact ⟨rfl, Nat.le_succ _, fun _ _ => rfl, ⟨[_], rfl, by simp [RefreshOut]⟩, exists_append_self rfl⟩

/-- All turns up to `n`. -/
def Storage.refreshedUpTo (s : Storage) (keep : ℕ) : ℕ → Storage
  | 0 => s
  | n + 1 => (s.refreshedUpTo keep n).refreshed keep n

theorem upTo_refreshPort_run (keep n : ℕ) (s : Storage) :
    (upTo n (refreshPort keep)).run s = some ((), s.refreshedUpTo keep n) := by
  induction n with
  | zero => rfl
  | succ n ih =>
    rw [upTo, StateT.run_bind, ih]
    exact refreshPort_run keep n _

theorem refreshedUpTo_frame (hwin : InWindow s.ehci) (keep : ℕ) {n : ℕ} (hn : n ≤ 15) :
    DriverFrame .wire Own (RefreshOut s.ehci) s (s.refreshedUpTo keep n) := by
  induction n with
  | zero => exact refl_of _ s
  | succ n ih =>
    have ih := ih (by omega)
    have hehci : (s.refreshedUpTo keep n).ehci = s.ehci := ehci_eq_of_part ih.part
    have hstep := refreshed_frame (s := s.refreshedUpTo keep n) (hehci ▸ hwin) keep (show n < 15 by omega)
    rw [hehci] at hstep
    exact trans_of (DriverFrame .wire Own (RefreshOut s.ehci)) ih hstep

/-- The state behind `storage_refresh_usb_companions`. -/
theorem storageRefreshUsbCompanions_run (s : Storage) :
    storageRefreshUsbCompanions.run s = some ((), if s.companionsReady ∧ s.ehci ≠ 0 then
      s.refreshedUpTo s.companionKeep s.companionPorts else s) := by
  show (if s.companionsReady ∧ s.ehci ≠ 0 then _ else _ : StorageM Unit).run s = _
  split_ifs with h
  · exact upTo_refreshPort_run _ _ _
  · rfl

theorem storageRefreshUsbCompanions_served (hs : StorageInv s) :
    Ensures storageRefreshUsbCompanions s fun _ t => Served s t ∧ ∀ a, ¬Own a → t.mem a = s.mem a := by
  intro r t hr
  rw [storageRefreshUsbCompanions_run] at hr
  obtain ⟨-, rfl⟩ := Prod.mk.inj (Option.some.inj hr)
  split_ifs with h
  · have hf := refreshedUpTo_frame (hs.ready.1.resolve_left h.2) s.companionKeep hs.ready.2
    revert hf
    generalize s.refreshedUpTo s.companionKeep s.companionPorts = t
    intro hf
    have heq : ∀ {α : Type} (f : Storage → α), (∀ u : Storage, f (u.part .wire) = f u) → f t = f s :=
      fun f => eq_of_part hf.part f
    refine ⟨⟨hs.of_part hf.part, fun hi => (heq Storage.initialized fun _ => rfl).trans hi,
      fun hd => (heq Storage.discovered fun _ => rfl).trans hd,
      fun hu => (heq Storage.usbDiscovered fun _ => rfl).trans hu,
      fun _ => ⟨heq Storage.deviceMask fun _ => rfl, heq Storage.devices fun _ => rfl⟩,
      fun _ => ⟨heq Storage.ehci fun _ => rfl, heq Storage.companions fun _ => rfl⟩,
      fun d hd => (congrFun (heq Storage.ataDead fun _ => rfl) d).trans hd,
      fun hd => (heq Storage.transportDead fun _ => rfl).trans hd, ?_, hf.bulks⟩, hf.mem⟩
    refine Issues.mono hf.issued fun o ho => ?_
    cases o with
    | mmio a v =>
      have hv : v ≠ 2 := by
        rintro rfl
        exact absurd ho.2 (by decide)
      exact ⟨trivial, fun _ => ⟨hv, Or.inr ho.1⟩, fun h => h.elim, fun h => absurd h hv⟩
    | load a => exact ⟨trivial, trivial, fun h => h.elim, fun h => h.elim⟩
    | _ => exact ho.elim
  · exact ⟨.refl hs, fun _ _ => rfl⟩

/-! ### Calls of the service -/

theorem storageDeviceMask_spec (hs : StorageInv s) :
    Ensures storageDeviceMask s fun r t => Served s t ∧ r = t.deviceMask ∧
      ∀ a, ¬Own a → t.mem a = s.mem a := by
  refine ensures_get_bind (ensures_ite (fun _ => ?_) fun _ => ?_)
  · refine ensures_bind (discoverStorage_served hs) fun _ t ht => ensures_get_bind (ensures_pure ?_)
    exact ⟨ht.1, rfl, ht.2.mem⟩
  · exact ensures_get_bind (ensures_pure ⟨.refl hs, rfl, fun _ _ => rfl⟩)

/-- What a call that answers in a buffer leaves behind. -/
structure AnsweredIn (buffer size : ℕ) (s : Storage) (r : ℕ) (t : Storage) : Prop where
  served : Served s t
  refused : r ≠ storageOk → ∀ a, ¬Own a → t.mem a = s.mem a
  answered : r = storageOk → ∀ a, ¬Own a → ¬(buffer ≤ a ∧ a < buffer + size) → t.mem a = s.mem a

theorem AnsweredIn.refuse {buffer size r : ℕ} (h : Served s t) (hr : r ≠ storageOk)
    (hm : ∀ a, ¬Own a → t.mem a = s.mem a) : AnsweredIn buffer size s r t :=
  ⟨h, fun _ => hm, fun h => absurd h hr⟩

/-- A store to the buffer keeps what the calls rely on. -/
theorem Served.store {a n : ℕ} {bytes : ℕ → UInt8} (h : Served s t) :
    Served s { t with mem := overwrite t.mem a n bytes } :=
  ⟨h.inv.of_part rfl, h.initialized, h.discovered, h.usb, h.table, h.ehci, h.ata, h.dead, h.issued, h.bulks⟩

/-- `storage_get_info`. -/
theorem storageGetInfo_spec (hs : StorageInv s) (device info : ℕ) :
    Ensures (storageGetInfo device info) s fun r t => AnsweredIn info storageInfoSize s r t ∧
      (r = storageOk → t.deviceMask.testBit device = true ∧
        ∀ i < storageInfoSize, t.mem (info + i) = (t.devices device).bytes i) := by
  refine ensures_get_bind (ensures_ite (fun _ => ?_) fun _ => ensures_ite (fun _ => ?_) fun _ => ?_)
  · exact ensures_pure ⟨.refuse (.refl hs) (by decide) fun _ _ => rfl, fun h => absurd h (by decide)⟩
  · exact ensures_pure ⟨.refuse (.refl hs) (by decide) fun _ _ => rfl, fun h => absurd h (by decide)⟩
  refine ensures_bind (discoverStorage_served hs) fun _ v hv => ensures_get_bind ?_
  refine ensures_ite (fun hbit => ?_) fun _ => ensures_pure ?_
  · refine ensures_modify_bind (ensures_pure ⟨⟨hv.1.store, fun h => absurd rfl h, fun _ a ha hb => ?_⟩,
      fun _ => ⟨hbit, fun i hi => overwrite_of_lt hi⟩⟩)
    exact (if_neg hb).trans (hv.2.mem a ha)
  · exact ⟨.refuse hv.1 (by decide) hv.2.mem, fun h => absurd h (by decide)⟩

/-- **`storage_read`.** Memory outside the driver changes only where the caller
put its buffer and only on success, and there to what arrived. -/
theorem storageRead_spec (hs : StorageInv s) (device lba blocks buffer : ℕ) :
    Ensures (storageRead device lba blocks buffer) s fun r t =>
      AnsweredIn buffer (blocks * 512) s r t ∧
      (r = storageOk → ∃ d data, discoverStorage.run s = some ((), d) ∧
        Received device lba blocks d t data ∧ ∀ i < blocks * 512, t.mem (buffer + i) = data i) ∧
      (r = storageIoError → device ≠ 0 → t.discovered = true ∧ ChannelDead (channelPort (device - 1)) t) := by
  have hrefuse : ∀ {r : ℕ} {t : Storage}, Served s t → (∀ a, ¬Own a → t.mem a = s.mem a) →
      r ≠ storageOk → r ≠ storageIoError →
      AnsweredIn buffer (blocks * 512) s r t ∧
      (r = storageOk → ∃ d data, discoverStorage.run s = some ((), d) ∧
        Received device lba blocks d t data ∧ ∀ i < blocks * 512, t.mem (buffer + i) = data i) ∧
      (r = storageIoError → device ≠ 0 → t.discovered = true ∧ ChannelDead (channelPort (device - 1)) t) :=
    fun h hm h0 h1 => ⟨.refuse h h0 hm, fun h => absurd h h0, fun h => absurd h h1⟩
  refine ensures_get_bind (ensures_ite (fun _ => ensures_pure ?_) fun _ =>
    ensures_ite (fun _ => ensures_pure ?_) fun hargs => ?_)
  · exact hrefuse (.refl hs) (fun _ _ => rfl) (by decide) (by decide)
  · exact hrefuse (.refl hs) (fun _ _ => rfl) (by decide) (by decide)
  -- the state after the discovery decides which transport serves the device
  refine ensures_bind (Q := fun _ d => discoverStorage.run s = some ((), d) ∧ Served s d ∧ DiscoverPost s d)
    (fun _ d hr => ⟨hr, discoverStorage_served hs _ d hr⟩) fun _ d hd => ensures_get_bind ?_
  obtain ⟨hrun, hserved, hpost⟩ := hd
  have hcount : device < 5 := by
    simp only [storageDeviceCount] at hargs
    omega
  refine ensures_ite (fun _ => ensures_pure ?_) fun hbit => ensures_ite (fun _ => ensures_pure ?_) fun _ => ?_
  · exact hrefuse hserved hpost.mem (by decide) (by decide)
  · exact hrefuse hserved hpost.mem (by decide) (by decide)
  refine ensures_bind (readTransport_spec hpost.inv hpost.done hcount (by simpa using hbit) lba blocks)
    fun done v hv => ?_
  have hall := hserved.trans hv.served
  have hmem : ∀ a, ¬Own a → v.mem a = s.mem a := fun a ha => (hv.mem a ha).trans (hpost.mem a ha)
  -- only a transport that has answered lets the bytes be copied to the caller
  refine ensures_ite (fun hdone => ?_) fun hdone => ensures_pure ?_
  · refine ensures_bind (Q := fun _ t => t = { v with
        mem := overwrite v.mem buffer (blocks * 512) fun i => v.mem (transferBuffer + i) }) ?_ ?_
    · exact ensures_get_bind (ensures_modify rfl)
    rintro _ t rfl
    refine ensures_pure ⟨⟨hall.store, fun h => absurd rfl h, fun _ a ha hb => ?_⟩, fun _ => ?_, fun h => ?_⟩
    · exact (if_neg hb).trans (hmem a ha)
    · obtain ⟨data, hrec, hbuf⟩ := hv.data hdone
      refine ⟨d, data, hrun, ?_, fun i hi => ?_⟩
      · unfold Received at hrec ⊢
        exact hrec
      · show overwrite v.mem buffer (blocks * 512) (fun i => v.mem (transferBuffer + i)) (buffer + i) = data i
        rw [overwrite_of_lt hi]
        exact hbuf i hi
    · exact absurd h (by decide)
  · refine ⟨.refuse hall (by decide) hmem, fun h => absurd h (by decide), fun _ h0 => ?_⟩
    exact ⟨hv.served.discovered hpost.done, hv.dead (by simpa using hdone) h0⟩

/-! ### System calls -/

/-- `user_output` only looks. -/
theorem userOutput_state (process offset size : ℕ) (s : Storage) :
    Ensures (userOutput process offset size) s fun _ t => t = s := by
  refine ensures_get_bind (ensures_ite (fun _ => ensures_pure rfl) fun _ => ?_)
  dsimp only
  split
  · exact ensures_none
  · exact ensures_pure rfl
  · exact ensures_pure rfl

/-- What a system call leaves behind, with the buffer that `user_output` found. -/
structure SyscallPost (r : StorageRegisters) (owner : ℕ) (s : Storage) (a : ℕ) (t : Storage) : Prop where
  served : Served s t
  refused : a ≠ storageOk ∨ r.eax ≠ syscallStorageInfo ∧ r.eax ≠ syscallStorageRead →
    ∀ b, ¬Own b → t.mem b = s.mem b
  answered : a = storageOk → r.eax = syscallStorageInfo ∨ r.eax = syscallStorageRead →
    ∃ buffer, buffer ≠ 0 ∧ (userOutput owner r.edi r.size).run s = some (buffer, s) ∧
      processWord s.mem owner procStorageWord = 1 ∧ processWord s.mem owner procTypeWord = 0 ∧
      (∀ b, ¬Own b → ¬(buffer ≤ b ∧ b < buffer + r.size) → t.mem b = s.mem b) ∧
      (r.eax = syscallStorageInfo → ∀ i < r.size, t.mem (buffer + i) = (t.devices r.ebx).bytes i) ∧
      (r.eax = syscallStorageRead → ∃ d data, discoverStorage.run s = some ((), d) ∧
        Received r.ebx r.esi 1 d t data ∧ ∀ i < r.size, t.mem (buffer + i) = data i)
  failed : a = storageIoError → r.eax = syscallStorageRead → r.ebx ≠ 0 → t.discovered = true ∧
    ChannelDead (channelPort (r.ebx - 1)) t

theorem SyscallPost.refuse {r : StorageRegisters} {owner a : ℕ} (hs : StorageInv s) (h0 : a ≠ storageOk)
    (h1 : a ≠ storageIoError) : SyscallPost r owner s a s :=
  ⟨.refl hs, fun _ _ _ => rfl, fun h => absurd h h0, fun h => absurd h h1⟩

/-- **`storage_syscall`.** -/
theorem storageSyscall_spec (hs : StorageInv s) (r : StorageRegisters) (owner : ℕ) :
    Ensures (storageSyscall r owner) s (SyscallPost r owner s) := by
  refine ensures_get_bind (ensures_ite (fun _ => ?_) fun _ => ensures_ite (fun _ => ?_) fun _ =>
    ensures_ite (fun _ => ?_) fun hperm => ensures_ite (fun h7 => ?_) fun _ => ensures_ite (fun _ => ?_) fun hop => ?_)
  · exact ensures_pure (.refuse hs (by decide) (by decide))
  · exact ensures_pure (.refuse hs (by decide) (by decide))
  · exact ensures_pure (.refuse hs (by decide) (by decide))
  · refine (storageDeviceMask_spec hs).mono fun a t ht => ?_
    refine ⟨ht.1, fun _ => ht.2.2, fun _ hop => ?_, fun _ hop => ?_⟩
    · rw [h7] at hop
      exact absurd hop (by decide)
    · rw [h7] at hop
      exact absurd hop (by decide)
  · exact ensures_pure (.refuse hs (by decide) (by decide))
  have hperm' : processWord s.mem owner procStorageWord = 1 ∧ processWord s.mem owner procTypeWord = 0 := by
    push Not at hperm
    exact hperm
  have hop' : r.eax = syscallStorageInfo ∨ r.eax = syscallStorageRead := by
    by_contra h
    push Not at h
    exact hop h
  -- the pages of the answer are looked up without a change of the state
  refine ensures_bind (Q := fun buffer t => t = s ∧
    (userOutput owner r.edi r.size).run s = some (buffer, s)) (fun buffer t hr => ?_) ?_
  · obtain rfl := userOutput_state owner r.edi r.size s buffer t hr
    exact ⟨rfl, hr⟩
  rintro buffer _ ⟨rfl, hout⟩
  refine ensures_ite (fun _ => ensures_pure (.refuse hs (by decide) (by decide))) fun h0 =>
    ensures_ite (fun h5 => ?_) fun h5 => ?_
  · -- the information on one device
    have hsize : r.size = storageInfoSize := if_pos h5
    have hne : r.eax ≠ syscallStorageRead := by
      rw [h5]
      decide
    refine (storageGetInfo_spec hs r.ebx buffer).mono fun a t ht => ⟨ht.1.served, fun h => ?_, fun ha _ => ?_,
      fun _ h6 => absurd h6 hne⟩
    · exact ht.1.refused (h.resolve_right fun hn => hn.1 h5)
    · refine ⟨buffer, h0, hout, hperm'.1, hperm'.2, ?_, fun _ => ?_, fun h6 => absurd h6 hne⟩
      · rw [hsize]
        exact ht.1.answered ha
      · rw [hsize]
        exact (ht.2 ha).2
  · -- one block of 512 bytes
    have h6 : r.eax = syscallStorageRead := hop'.resolve_left h5
    have hsize : r.size = 1 * 512 := if_neg h5
    refine (storageRead_spec hs r.ebx r.esi 1 buffer).mono fun a t ht => ⟨ht.1.served, fun h => ?_, fun ha _ => ?_,
      fun ha _ => ht.2.2 ha⟩
    · exact ht.1.refused (h.resolve_right fun hn => hn.2 h6)
    · refine ⟨buffer, h0, hout, hperm'.1, hperm'.2, ?_, fun h => absurd h h5, fun _ => ?_⟩
      · rw [hsize]
        exact ht.1.answered ha
      · rw [hsize]
        exact ht.2.1 ha

/-! ### Runs -/

/-- The static variables as the image has them. -/
structure StorageBoot (s : Storage) : Prop where
  initialized : s.initialized = false
  discovered : s.discovered = false
  usbDiscovered : s.usbDiscovered = false
  ehci : s.ehci = 0
  deviceMask : s.deviceMask = 0
  transportDead : s.transportDead = false
  ataDead : ∀ d, s.ataDead d = false
  companionsReady : s.companionsReady = false
  companionPorts : s.companionPorts = 0
  issued : s.issued = []
  bulks : s.bulks = []

/-- A call of the service. -/
inductive StorageCall
  | deviceMask
  | getInfo (device info : ℕ)
  | read (device lba blocks buffer : ℕ)
  | syscall (r : StorageRegisters) (owner : ℕ)

/-- The program of a call. -/
def StorageCall.run : StorageCall → StorageM ℕ
  | .deviceMask => storageDeviceMask
  | .getInfo device info => storageGetInfo device info
  | .read device lba blocks buffer => storageRead device lba blocks buffer
  | .syscall r owner => storageSyscall r owner

/-- The device that a call reads from. -/
def StorageCall.source : StorageCall → Option ℕ
  | .read device _ _ _ => some device
  | .syscall r _ => if r.eax = syscallStorageRead then some r.ebx else none
  | _ => none

/-- One step of a run: a call of the service or of the USB host, or a change of
memory and of the address space by the rest of the kernel. -/
inductive StorageStep (s : Storage) : Storage → Prop
  | start {t : Storage} (h : storageInitializeDriver.run s = some ((), t)) : StorageStep s t
  | prepare {t : Storage} {ehciPci r : ℕ} (h : (storagePrepareUsbCompanions ehciPci).run s = some (r, t)) :
      StorageStep s t
  | refresh {t : Storage} (h : storageRefreshUsbCompanions.run s = some ((), t)) : StorageStep s t
  | call {t : Storage} {r : ℕ} (c : StorageCall) (h : c.run.run s = some (r, t)) : StorageStep s t
  | environment (mem : ℕ → UInt8) (cr3 : ℕ) : StorageStep s { s with mem := mem, cr3 := cr3 }

/-- A run from `s`. -/
inductive StorageRun (s : Storage) : Storage → Prop
  | nil : StorageRun s s
  | step {t u : Storage} (h : StorageRun s t) (h' : StorageStep t u) : StorageRun s u

theorem StorageBoot.inv (h : StorageBoot s) : StorageInv s := by
  refine ⟨⟨⟨Or.inl h.ehci, by rw [h.companionPorts]; decide⟩, ?_, fun he => absurd h.ehci he, fun hd => ?_,
    fun hd => ?_⟩, fun hd => ?_, fun d hd => ?_, fun c => ?_⟩
  · simp [h.ehci, h.deviceMask]
  · simp [h.transportDead] at hd
  · simp [h.companionsReady] at hd
  · simp [h.discovered] at hd
  · simp [h.ataDead] at hd
  · rw [h.ataDead, h.ataDead]

/-- **One step.** -/
theorem StorageStep.served (h : StorageStep s t) (hs : StorageInv s) : Served s t := by
  cases h with
  | start h => exact storageInitializeDriver_served hs _ _ h
  | prepare h => exact storagePrepareUsbCompanions_served hs _ _ _ h
  | refresh h => exact (storageRefreshUsbCompanions_served hs _ _ h).1
  | call c h =>
    cases c with
    | deviceMask => exact (storageDeviceMask_spec hs _ _ h).1
    | getInfo device info => exact (storageGetInfo_spec hs device info _ _ h).1.served
    | read device lba blocks buffer => exact (storageRead_spec hs device lba blocks buffer _ _ h).1.served
    | syscall r owner => exact (storageSyscall_spec hs r owner _ _ h).served
  | environment mem cr3 =>
    exact ⟨⟨⟨hs.ready, hs.disk, hs.found, hs.dead, hs.handed⟩, hs.usb, hs.ata, hs.pair⟩, id, id, id,
      fun _ => ⟨rfl, rfl⟩, fun _ => ⟨rfl, rfl⟩, fun _ => id, id, Issues.nil rfl, exists_append_self rfl⟩

/-- **A run.** -/
theorem StorageRun.served (h : StorageRun s t) (hs : StorageInv s) : Served s t := by
  induction h with
  | nil => exact .refl hs
  | step _ h' ih => exact ih.trans (h'.served ih.inv)

/-! ### Transports that failed -/

/-- What was done to the hardware since `s`. -/
def Storage.since (t s : Storage) : List StorageOut := t.issued.drop s.issued.length

theorem Issues.since (h : Issues P s t) : ∀ o ∈ t.since s, P o := by
  obtain ⟨new, hn, hp⟩ := h
  rw [Storage.since, hn, List.drop_left]
  exact hp

/-- A write to a port of the channel at `p`. -/
def OnChannel (p : ℕ) : StorageOut → Prop
  | .port q _ => ∃ k, q = p + k ∧ (k ≤ 7 ∨ k = 0x206)
  | _ => False

/-- Nothing goes to a channel whose disks are given up. -/
theorem not_onChannel {device : ℕ} (hd : s.discovered = true)
    (hdead : ChannelDead (channelPort device) s) (o : StorageOut) (ho : CallOut s o) :
    ¬OnChannel (channelPort device) o := by
  cases o with
  | port q v =>
    rintro ⟨k, hq, hk⟩
    obtain ⟨d, hd4, halive, k', hq', hk'⟩ := ho hd
    have hsame : channelPort d = channelPort device := by
      unfold channelPort at hq hq' ⊢
      split_ifs at hq hq' ⊢ <;> omega
    simp [hdead d hd4 hsame] at halive
  | _ => exact id

/-- A read from an ATA disk that failed, as a call of the service. -/
theorem StorageCall.failed {c : StorageCall} {device : ℕ} (hs : StorageInv s) (hc : c.source = some device)
    (hdev : device ≠ 0) (hr : c.run.run s = some (storageIoError, t)) :
    t.discovered = true ∧ ChannelDead (channelPort (device - 1)) t := by
  cases c with
  | deviceMask => simp [StorageCall.source] at hc
  | getInfo d info => simp [StorageCall.source] at hc
  | read d lba blocks buffer =>
    obtain rfl := Option.some.inj hc
    exact (storageRead_spec hs d lba blocks buffer _ _ hr).2.2 rfl hdev
  | syscall r owner =>
    rw [StorageCall.source] at hc
    split_ifs at hc with h6
    obtain rfl := Option.some.inj hc
    exact (storageSyscall_spec hs r owner _ _ hr).failed rfl h6 hdev

/-- **A transport that failed is never used again and never yields data.** In
every run and for every behaviour of the disks: behind a failed read from an
ATA disk nothing is written to a port of its channel; on a dead USB transport
the schedule is not started; what belongs to discovery is done by one call at
most; `storage_read` changes memory that is not the driver's own only if it
succeeds, and then its buffer holds the bytes that arrived for this request; and
all commands are commands that read. -/
theorem dead_transport_unused {s₀ : Storage} (h₀ : StorageBoot s₀) (h : StorageRun s₀ s) :
    (∀ (c : StorageCall) (device : ℕ) (t u : Storage), c.source = some device → device ≠ 0 →
      c.run.run s = some (storageIoError, t) → StorageRun t u →
      ∀ o ∈ u.since t, ¬OnChannel (channelPort (device - 1)) o) ∧
    (s.transportDead = true → ∀ u, StorageRun s u →
      (∀ value, .mmio s.ehci value ∉ u.since s) ∧ ∀ opcode, .block opcode ∉ u.since s) ∧
    (∀ t u, StorageStep s t → StorageRun t u →
      ((∃ o ∈ t.since s, IdentifyOut o) → ∀ o ∈ u.since t, ¬IdentifyOut o) ∧
      ((∃ o ∈ t.since s, EnumerateOut o) → ∀ o ∈ u.since t, ¬EnumerateOut o)) ∧
    (∀ (device lba blocks buffer r : ℕ) (t : Storage),
      (storageRead device lba blocks buffer).run s = some (r, t) →
      (r ≠ storageOk → ∀ a, ¬Own a → t.mem a = s.mem a) ∧
      (r = storageOk → ∃ d data, discoverStorage.run s = some ((), d) ∧
        Received device lba blocks d t data ∧ (∀ i < blocks * 512, t.mem (buffer + i) = data i) ∧
        ∀ a, ¬Own a → ¬(buffer ≤ a ∧ a < buffer + blocks * 512) → t.mem a = s.mem a)) ∧
    (∀ o ∈ s.issued, Lawful o) ∧ ∀ b ∈ s.bulks, b.lawful := by
  have hboot := h.served h₀.inv
  have hs := hboot.inv
  refine ⟨fun c device t u hc hdev hr hrun o ho => ?_, fun hdead u hrun => ?_, fun t u hstep hrun => ?_,
    fun device lba blocks buffer r t hr => ?_, fun o ho => ?_, fun b hb => ?_⟩
  · -- a call that has failed on a channel
    have ht : Served s t := (StorageStep.call c hr).served hs
    obtain ⟨hd, hchannel⟩ := StorageCall.failed hs hc hdev hr
    exact not_onChannel hd hchannel o ((hrun.served ht.inv).issued.since o ho).2.1
  · -- a mass-storage transport that is dead
    have hout := (hrun.served hs).issued.since
    have hu := hs.dead hdead
    refine ⟨fun value ho => ?_, fun opcode ho => ?_⟩
    · rcases ((hout _ ho).2.1 hu).2 with hal | ha
      · simp [hdead] at hal
      · omega
    · have hal := (hout _ ho).2.1 hu
      simp [hdead] at hal
  · -- a discovery that has been made is not made again
    have ht := hstep.served hs
    have hout := (hrun.served ht.inv).issued.since
    refine ⟨fun hex o ho hi => ?_, fun hex o ho hi => ?_⟩
    · obtain ⟨o', ho', hi'⟩ := hex
      have hd : t.discovered = true := (ht.issued.since o' ho').2.2.1 hi'
      have hcall := (hout o ho).2.1
      cases o with
      | port p v =>
        obtain ⟨d, -, -, k, hq, hk⟩ := hcall hd
        obtain ⟨hp, rfl⟩ := hi
        unfold channelPort at hq
        split_ifs at hq <;> omega
      | _ => exact hi
    · obtain ⟨o', ho', hi'⟩ := hex
      have hu : t.usbDiscovered = true := (ht.issued.since o' ho').2.2.2 hi'
      have hcall := (hout o ho).2.1
      cases o with
      | pci d p v => simp [CallOut, hu] at hcall
      | setup => simp [CallOut, hu] at hcall
      | mmio a v => exact (hcall hu).1 hi
      | _ => exact hi
  · -- the bytes that one read writes
    obtain ⟨hans, hok, -⟩ := storageRead_spec hs device lba blocks buffer r t hr
    refine ⟨hans.refused, fun hr => ?_⟩
    obtain ⟨d, data, hd, hrec, hbuf⟩ := hok hr
    exact ⟨d, data, hd, hrec, hbuf, hans.answered hr⟩
  · obtain ⟨new, hn, hp⟩ := hboot.issued
    rw [hn, h₀.issued, List.nil_append] at ho
    exact (hp o ho).1
  · obtain ⟨new, hn, hp⟩ := hboot.bulks
    rw [hn, h₀.bulks, List.nil_append] at hb
    exact hp b hb

/-- The driver before its first call. -/
def coldStorage : Storage :=
  { usbStick with hw := fun _ _ => 1, ehci := 0, initialized := false, usbDiscovered := false }

/-! ### A transfer that fails -/

/-- ATA controllers are not found behind PCI functions that are not there. -/
theorem discoverAtaFrom_absent {n pci seen : ℕ}
    (h : ∀ τ, ∀ d ≥ pci, s.hw τ (.pci d 0) = 0xFFFFFFFF) :
    (discoverAtaFrom n pci seen).run s = some ((), { s with time := s.time + n }) := by
  induction n generalizing s pci with
  | zero => rfl
  | succ n ih =>
    have hc : (discoverAtaFunction pci seen).run s = some (seen, { s with time := s.time + 1 }) := by
      refine run_bind_eq_some.mpr ⟨s.answer (.pci pci 0), { s with time := s.time + 1 }, rfl, ?_⟩
      rw [if_pos]
      · rfl
      · rw [Storage.answer, h _ _ le_rfl]
        show 0xFFFFFFFF % 2 ^ 32 &&& 0xFFFF = 0xFFFF
        decide
    rw [discoverAtaFrom, StateT.run_bind, hc]
    refine (ih (s := { s with time := s.time + 1 }) fun τ d hd => h τ d (by omega)).trans ?_
    simp [Nat.add_assoc, Nat.add_comm 1 n]

/-- A machine with an EHCI controller at function 0, a stick on its only port and no other
function: the stick answers the requests of discovery one after the other. -/
def stickHw (t : ℕ) : StorageReg → ℕ
  | .port _ => 0x20
  | .data _ => 0
  | .pci device offset =>
    if device ≠ 0 then 0xFFFFFFFF
    else if offset = 0 then 0x24CD8086 else if offset = 4 then 6
    else if offset = 8 then 0x0C032000 else 0xF0000000
  | .mmio a =>
    if a = 0x80C00000 then 0x01000020 else if a = 0x80C00004 then 1
    else if a = 0x80C00064 then 5
    else if a = 0x80C00024 ∧ t < 13 then 0x1000 else 0
  | .tsc => 200000 * t
  | .mapped => 1

/-- What the stick sends: its descriptor, its configuration, the status of TEST UNIT READY, the
capacity and the status of READ CAPACITY. -/
def stickIncoming (t i : ℕ) : UInt8 := UInt8.ofNat ((
  if t < 36 then [18, 1, 0, 2, 0, 0, 0, 64, 0, 0, 0, 0, 0, 0, 0, 0, 0, 1]
  else if t < 68 then [9, 2, 32, 0, 1, 1, 0, 0x80, 50, 9, 4, 0, 0, 2, 8, 6, 0x50, 0,
    7, 5, 0x81, 2, 0, 2, 0, 7, 5, 2, 2, 0, 2, 0]
  else if t < 92 then [0x55, 0x53, 0x42, 0x53, 1, 0, 0, 0, 0, 0, 0, 0, 0]
  else if t < 100 then [0, 0, 0xFF, 0xFF, 0, 0, 2, 0]
  else [0x55, 0x53, 0x42, 0x53, 2, 0, 0, 0, 0, 0, 0, 0, 0]).getD i 0)

/-- The driver before its first call, on that machine. Behind discovery every transfer ends in
a halted descriptor. -/
def coldStick : Storage :=
  { usbStick with
    hw := stickHw
    incoming := stickIncoming
    dma := fun t a =>
      if 1000 < t ∧ a = descriptor 0 + 8 then some 0x40
      else if dmaBase + 0x100 ≤ a then some 0 else none
    ehci := 0
    initialized := false
    usbDiscovered := false }

/-- Discovery behind the search for the stick: the controller itself is no ATA controller. -/
theorem discoverStorage_stick (hs : s.hw = stickHw) (hd : s.discovered = false)
    (hu : s.usbDiscovered = true) :
    discoverStorage.run s = some ((), { s with discovered := true, time := s.time + 0x10001 }) := by
  have hfunction : (discoverAtaFunction 0 0).run { s with discovered := true } =
      some (0, { s with discovered := true, time := s.time + 2 }) := by
    refine run_bind_eq_some.mpr ⟨0x24CD8086, { s with discovered := true, time := s.time + 1 }, ?_, ?_⟩
    · show some (s.hw _ _ % _, _) = _
      rw [hs]
      rfl
    refine run_bind_eq_some.mpr ⟨0x0C032000, { s with discovered := true, time := s.time + 2 }, ?_, rfl⟩
    show some (s.hw _ _ % _, _) = _
    rw [hs]
    rfl
  have hfunctions : ∀ n, (discoverAtaFrom (n + 1) 0 0).run { s with discovered := true } =
      some ((), { s with discovered := true, time := s.time + 2 + n }) := fun n =>
    run_bind_eq_some.mpr ⟨0, _, hfunction, discoverAtaFrom_absent
      (s := { s with discovered := true, time := s.time + 2 }) fun τ d hd' => by
        rw [hs]
        exact if_pos (show d ≠ 0 by omega)⟩
  have hata : discoverAta.run { s with discovered := true } =
      some ((), { s with discovered := true, time := s.time + 0x10001 }) := by
    have hall := hfunctions 0xFFFF
    rw [Nat.add_assoc] at hall
    exact hall
  have husb : discoverUsb.run { s with discovered := true } =
      some ((), { s with discovered := true }) := by
    show (if s.usbDiscovered = true then _ else _ : StorageM Unit) { s with discovered := true } = _
    rw [if_pos hu]
    rfl
  show (if s.discovered = true then _ else _ : StorageM Unit) s = _
  rw [hd, if_neg Bool.false_ne_true]
  exact run_bind_eq_some.mpr ⟨(), _, rfl, run_bind_eq_some.mpr ⟨(), _, husb, hata⟩⟩

/-- `storage_read` behind discovery. -/
def readDiscovered (device lba blocks buffer : ℕ) : StorageM ℕ := do
  let s ← get
  if s.deviceMask.testBit device = false then return storageNoDevice
  else if storageValidRange (s.devices device).blockCount lba blocks = false then
    return storageBadArgument
  else if (← readTransport device lba blocks) then
    copyOut buffer (blocks * 512)
    return storageOk
  else return storageIoError

theorem storageRead_discovered {device lba blocks buffer : ℕ} (hi : s.initialized = true)
    (ha : ¬(buffer = 0 ∨ storageDeviceCount ≤ device ∨ blocks = 0 ∨ storageMaxBlocks < blocks))
    (hd : discoverStorage.run s = some ((), t)) :
    (storageRead device lba blocks buffer).run s =
      (readDiscovered device lba blocks buffer).run t := by
  show (if s.initialized = false then _ else _ : StorageM ℕ) s = _
  rw [if_neg (by rw [hi]; decide), if_neg ha]
  show (discoverStorage.run s).bind (fun x => readDiscovered device lba blocks buffer x.2) = _
  rw [hd]
  rfl

theorem storagePrepareUsbCompanions_hw (hs : StorageInv s) (ehciPci : ℕ) :
    Ensures (storagePrepareUsbCompanions ehciPci) s fun _ t => t.hw = s.hw := by
  refine ensures_get_bind (ensures_ite (fun _ => ensures_get_bind (ensures_pure rfl)) fun _ =>
    ensures_modify_bind ?_)
  have hs' : UsbInv { s with companionTarget := ehciPci } :=
    ⟨hs.ready, hs.disk, hs.found, hs.dead, hs.handed⟩
  exact ensures_bind (discoverUsb_spec hs') fun _ v hv => ensures_get_bind (ensures_pure hv.hw)

/-- Two requests for the first sector of the stick; the search for ATA disks is left out. -/
def stickProgram : StorageM (Bool × ℕ × Bool × ℕ) := do
  storageInitializeDriver
  let _ ← storagePrepareUsbCompanions 0
  let s ← get
  set { s with discovered := true, time := s.time + 0x10001 }
  let first ← readDiscovered 0 0 1 0x100000
  let t ← get
  let second ← storageRead 0 0 1 0x100000
  return (s.initialized && s.usbDiscovered && !s.discovered && !s.transportDead, first,
    t.transportDead && decide (.block 0x28 ∈ t.since s), second)

set_option maxRecDepth 100000 in
theorem stickProgram_run : (stickProgram.run coldStick).map Prod.fst =
    some (true, storageIoError, true, storageIoError) := by
  decide +kernel

/-- The stick is found; the first request for a sector starts a transfer that fails, and the
second one fails without a transfer. -/
theorem dead_transport_unused_stick :
    ∃ s t u, StorageRun coldStick s ∧ s.transportDead = false ∧
      (storageRead 0 0 1 0x100000).run s = some (storageIoError, t) ∧ t.transportDead = true ∧
      .block 0x28 ∈ t.since s ∧ (storageRead 0 0 1 0x100000).run t = some (storageIoError, u) ∧
      (∀ value, .mmio t.ehci value ∉ u.since t) ∧ (∀ opcode, .block opcode ∉ u.since t) ∧
      (∀ a, ¬Own a → u.mem a = t.mem a) ∧ ∀ o ∈ t.issued, Lawful o := by
  have hboot : StorageBoot coldStick :=
    ⟨rfl, rfl, rfl, rfl, rfl, rfl, fun _ => rfl, rfl, rfl, rfl, rfl⟩
  obtain ⟨⟨x, v⟩, hx, hr⟩ := Option.map_eq_some_iff.mp stickProgram_run
  obtain ⟨_, s₁, hstart, hx⟩ := run_bind_eq_some.mp hx
  obtain ⟨r, s, hprepare, hx⟩ := run_bind_eq_some.mp hx
  obtain ⟨_, _, hget, hx⟩ := run_bind_eq_some.mp hx
  obtain ⟨rfl, rfl⟩ := Prod.mk.inj (Option.some.inj hget)
  obtain ⟨_, s₂, hset, hx⟩ := run_bind_eq_some.mp hx
  obtain ⟨-, rfl⟩ := Prod.mk.inj (Option.some.inj hset)
  obtain ⟨first, t, hfirst, hx⟩ := run_bind_eq_some.mp hx
  obtain ⟨_, _, hget, hx⟩ := run_bind_eq_some.mp hx
  obtain ⟨rfl, rfl⟩ := Prod.mk.inj (Option.some.inj hget)
  obtain ⟨second, u, hsecond, hx⟩ := run_bind_eq_some.mp hx
  obtain ⟨rfl, rfl⟩ := Prod.mk.inj (Option.some.inj hx)
  simp only [Prod.mk.injEq, Bool.and_eq_true, Bool.not_eq_true', decide_eq_true_eq] at hr
  obtain ⟨⟨⟨⟨hi, hu⟩, hd⟩, halive⟩, rfl, ⟨hdead, hblock⟩, rfl⟩ := hr
  have hrun : StorageRun coldStick s := .step (.step .nil (.start hstart)) (.prepare hprepare)
  -- the search keeps the answers of the hardware
  have hhw : s.hw = stickHw := by
    have hinv := ((StorageStep.start hstart).served hboot.inv).inv
    have hsame := storagePrepareUsbCompanions_hw hinv 0 _ _ hprepare
    obtain ⟨-, rfl⟩ := Prod.mk.inj (Option.some.inj hstart)
    exact hsame
  have hread : (storageRead 0 0 1 0x100000).run s = some (storageIoError, t) :=
    (storageRead_discovered hi (by decide) (discoverStorage_stick hhw hd hu)).trans hfirst
  have hrun' := hrun.step (.call (.read 0 0 1 0x100000) hread)
  have hall := dead_transport_unused hboot hrun'
  have hnext : StorageRun t u := .step .nil (.call (.read 0 0 1 0x100000) hsecond)
  obtain ⟨hmmio, hopcode⟩ := hall.2.1 hdead u hnext
  exact ⟨s, t, u, hrun, halive, hread, hdead, hblock, hsecond, hmmio, hopcode,
    (hall.2.2.2.1 0 0 1 0x100000 storageIoError u hsecond).1 (by decide), hall.2.2.2.2.1⟩

end VirtualKernel
