/-
Discovery of disks, and the data of a read.

`StorageInv` is what holds between two calls: `ehci` is null or points into the
MMIO alias, a USB disk is in the table exactly when `ehci` is set, the flags
that seal discovery are consistent, and the two disks of an ATA channel are dead
together.  `discoverStorage_spec` says what discovery can do from such a state,
`ataRead_arrived` where the data of a read come from.
-/
import VirtualKernel.StorageSearch

namespace VirtualKernel

open Lib

variable {e : ℕ} {s t u : Storage}

/-! ### The invariant -/

/-- What discovery notes for the companion controllers: whether the ports were
handed over, how many there are, and the one that is kept. -/
def Storage.companions (s : Storage) : Bool × ℕ × ℕ :=
  (s.companionsReady, s.companionPorts, s.companionKeep)

/-- The part of the invariant about the USB disk. -/
structure UsbInv (s : Storage) : Prop where
  ready : EhciReady s
  disk : s.deviceMask.testBit 0 = true ↔ s.ehci ≠ 0
  found : s.ehci ≠ 0 → s.usbDiscovered = true
  dead : s.transportDead = true → s.usbDiscovered = true
  handed : s.companionsReady = true → s.usbDiscovered = true

/-- **The invariant of the driver.** -/
structure StorageInv (s : Storage) : Prop extends UsbInv s where
  usb : s.discovered = true → s.usbDiscovered = true
  ata : ∀ i, s.ataDead i = true → s.discovered = true
  pair : ∀ c, s.ataDead (c * 2) = s.ataDead (c * 2 + 1)

theorem UsbInv.inWindow (h : UsbInv s) (hbit : s.deviceMask.testBit 0 = true) : InWindow s.ehci :=
  h.ready.1.resolve_left (h.disk.mp hbit)

/-! ### Discovery of the USB disk -/

/-- What `discover_usb` leaves behind. -/
structure UsbPost (s t : Storage) : Prop where
  inv : UsbInv t
  done : t.usbDiscovered = true
  same : s.usbDiscovered = true → t = s
  kept : t.initialized = s.initialized ∧ t.discovered = s.discovered ∧ t.ataDead = s.ataDead ∧
    t.companionTarget = s.companionTarget
  mem : ∀ a, ¬Own a → t.mem a = s.mem a
  issued : ∃ new, t.issued = s.issued ++ new ∧ ∀ o ∈ new, SearchOut o
  bulks : ∃ new, t.bulks = s.bulks ++ new ∧ ∀ b ∈ new, b.lawful
  hw : t.hw = s.hw

/-- The end of `discover_usb`, with what the search found. -/
theorem usbPost_of_search {found : Bool} (hs : UsbInv s) (hnew : s.usbDiscovered = false)
    (h : Search { s with usbDiscovered := true } t) (hf : found = true ↔ t.ehci ≠ 0) :
    Ensures (if found then do
        let blocks := add32 (← get).lastBlock 1
        addDevice 0 ⟨storageUsb, 512, blocks, storageReadOnly, usbModel⟩
      else return ()) t fun _ u => UsbPost s u := by
  have hehci : s.ehci = 0 := by
    by_contra hne
    exact absurd (hs.found hne) (by simp [hnew])
  have hbit : t.deviceMask.testBit 0 = false := by
    have hsbit : s.deviceMask.testBit 0 = false := by
      by_contra hne
      exact hs.disk.mp (by simpa using hne) hehci
    exact (congrArg (fun m => Nat.testBit m 0) (h.eq Storage.deviceMask fun _ => rfl)).trans hsbit
  have hdone : t.usbDiscovered = true := h.eq Storage.usbDiscovered fun _ => rfl
  have hkept : t.initialized = s.initialized ∧ t.discovered = s.discovered ∧ t.ataDead = s.ataDead ∧
      t.companionTarget = s.companionTarget :=
    ⟨h.eq Storage.initialized fun _ => rfl, h.eq Storage.discovered fun _ => rfl,
      h.eq Storage.ataDead fun _ => rfl, h.eq Storage.companionTarget fun _ => rfl⟩
  have hsame : s.usbDiscovered = true → ∀ v : Storage, v = s := fun hd => by simp [hnew] at hd
  refine ensures_ite (fun hfound => ?_) fun hfound => ensures_pure ?_
  · refine ensures_get_bind (ensures_modify ?_)
    refine ⟨⟨h.ready, ⟨fun _ => hf.mp hfound, fun _ => ?_⟩, fun _ => hdone, fun _ => hdone,
      fun _ => hdone⟩, hdone,
      fun hd => hsame hd _, hkept, h.mem, h.issued, h.bulks, h.eq Storage.hw fun _ => rfl⟩
    simp
  · have h0 : t.ehci = 0 := by
      by_contra hne
      exact hfound (hf.mpr hne)
    exact ⟨⟨h.ready, by simp [hbit, h0], fun _ => hdone, fun _ => hdone,
      fun _ => hdone⟩, hdone, fun hd => hsame hd _,
      hkept, h.mem, h.issued, h.bulks, h.eq Storage.hw fun _ => rfl⟩

theorem discoverUsb_spec (hs : UsbInv s) : Ensures discoverUsb s fun _ t => UsbPost s t := by
  refine ensures_get_bind (ensures_ite (fun hd => ensures_pure ?_) fun hd => ?_)
  · exact ⟨hs, hd, fun _ => rfl, ⟨rfl, rfl, rfl, rfl⟩, fun _ _ => rfl, exists_append_self rfl,
      exists_append_self rfl, rfl⟩
  have hnew : s.usbDiscovered = false := by simpa using hd
  have hehci : s.ehci = 0 := by
    by_contra hne
    exact hd (hs.found hne)
  refine ensures_modify_bind ?_
  have h0 : EhciReady { s with usbDiscovered := true } := hs.ready
  refine ensures_bind (frame_calibrateTimer.ensures _) fun _ a ha => ?_
  have ha' := ha.search searchOut_of_timerOut h0
  have hae : a.ehci = 0 := (ehci_eq_of_part ha.part).trans hehci
  refine ensures_bind (quiet_search (quiet_storeBytes _ (own_range (by decide) (by decide)))
    ha'.ready) fun _ b hb => ?_
  refine ensures_bind (findUsbDiskFrom_search _ _ hb.1.ready (hb.2.trans hae)) fun found c hc => ?_
  exact usbPost_of_search hs hnew ((ha'.trans hb.1).trans hc.1) hc.2

/-! ### Discovery of ATA disks -/

/-- No command other than IDENTIFY DEVICE and READ SECTORS is written to the
command register of an ATA channel, and only commands that read are sent to a
USB disk. -/
def Lawful : StorageOut → Prop
  | .port p v => p = 0x1F7 ∨ p = 0x177 → v = 0xEC ∨ v = 0x20
  | .block opcode => ReadOpcode opcode
  | _ => True

theorem lawful_of_searchOut (o : StorageOut) (h : SearchOut o) : Lawful o := by
  cases o with
  | port p v =>
    rintro (rfl | rfl) <;> simp [SearchOut] at h
  | block opcode => exact h
  | _ => trivial

/-- Writes to ports, with no command that is not allowed. -/
def AtaLawful (o : StorageOut) : Prop := Lawful o ∧ ∃ p v, o = .port p v

theorem ataLawful_of_ataOut {p command : ℕ} (hp : p = 0x1F0 ∨ p = 0x170)
    (hc : command = 0xEC ∨ command = 0x20) (o : StorageOut) (h : AtaOut p command o) : AtaLawful o := by
  cases o with
  | port q v =>
    refine ⟨fun hq => ?_, q, v, rfl⟩
    obtain ⟨k, rfl, hk⟩ := h
    rcases hk with hk | hk | ⟨-, rfl⟩
    · omega
    · omega
    · exact hc
  | _ => exact h.elim

/-- The variables that the search for ATA disks keeps. -/
def Storage.ataPart (s : Storage) : Storage :=
  { s.part .ata with
    ataPort := 0, ataDevice := 0, deviceMask := 0, devices := fun _ => ⟨0, 0, 0, 0, fun _ => 0⟩ }

/-- A step of the search for ATA disks. -/
structure AtaStep (s t : Storage) : Prop where
  part : t.ataPart = s.ataPart
  bit : t.deviceMask.testBit 0 = s.deviceMask.testBit 0
  mem : ∀ a, ¬Own a → t.mem a = s.mem a
  issued : ∃ new, t.issued = s.issued ++ new ∧ ∀ o ∈ new, AtaLawful o

instance : IsPreorder Storage AtaStep where
  refl _ := ⟨rfl, rfl, fun _ _ => rfl, exists_append_self rfl⟩
  trans _ _ _ h h' :=
    ⟨h'.part.trans h.part, h'.bit.trans h.bit, fun a ha => (h'.mem a ha).trans (h.mem a ha),
      exists_append_trans h.issued h'.issued⟩

theorem AtaStep.eq {α : Type} (h : AtaStep s t) (f : Storage → α) (hf : ∀ u : Storage, f u.ataPart = f u) :
    f t = f s := by
  rw [← hf t, ← hf s, h.part]

theorem DriverFrame.ataStep {P : StorageOut → Prop} (h : DriverFrame .ata Own P s t)
    (hP : ∀ o, P o → AtaLawful o) : AtaStep s t := by
  obtain ⟨new, hn, hp⟩ := h.issued
  exact ⟨eq_of_part h.part Storage.ataPart fun _ => rfl,
    congrArg (fun m => Nat.testBit m 0) (eq_of_part h.part Storage.deviceMask fun _ => rfl), h.mem,
    new, hn, fun o ho => hP o (hp o ho)⟩

theorem ataStep_quiet {α : Type} {m : StorageM α} (h : Within (Quiet Own) m) : Within AtaStep m :=
  h.mono fun _ _ hst => (hst.level (l := .ata)).ataStep fun _ ho => ho.elim

/-- A device of a compatibility channel. -/
theorem discoverAtaDevice_step {channel device : ℕ} (hp : s.ataPort = 0x1F0 ∨ s.ataPort = 0x170) :
    Ensures (discoverAtaDevice channel device) s fun _ t => AtaStep s t ∧ t.ataPort = s.ataPort := by
  refine ensures_modify_bind ?_
  have hset : AtaStep s { s with ataDevice := device } :=
    ⟨rfl, rfl, fun _ _ => rfl, exists_append_self rfl⟩
  refine ensures_bind (frame_identifyAta _) fun identified v hv => ?_
  have hv' : AtaStep s v :=
    trans_of AtaStep hset (hv.ataStep (ataLawful_of_ataOut hp (Or.inl rfl)))
  have hvp : v.ataPort = s.ataPort := eq_of_part hv.part Storage.ataPort fun _ => rfl
  refine ensures_ite (fun _ => ensures_pure ⟨hv', hvp⟩) fun _ => ensures_get_bind ?_
  refine ensures_ite (fun _ => ensures_pure ⟨hv', hvp⟩) fun _ => ensures_modify ⟨?_, hvp⟩
  refine ⟨hv'.part, ?_, hv'.mem, hv'.issued⟩
  show (v.deviceMask ||| 1 <<< (1 + channel * 2 + device)).testBit 0 = s.deviceMask.testBit 0
  rw [← hv'.bit, Nat.testBit_or, Nat.testBit_shiftLeft]
  simp

/-- The two devices of a channel. -/
theorem discoverAtaDevices_step (channel n : ℕ) (hp : s.ataPort = 0x1F0 ∨ s.ataPort = 0x170) :
    Ensures (upTo n (discoverAtaDevice channel)) s fun _ t => AtaStep s t ∧ t.ataPort = s.ataPort := by
  induction n with
  | zero => exact ensures_pure ⟨refl_of AtaStep s, rfl⟩
  | succ n ih =>
    refine ensures_bind ih fun _ v hv => ?_
    exact (discoverAtaDevice_step (hv.2 ▸ hp)).mono fun _ t ht =>
      ⟨trans_of AtaStep hv.1 ht.1, ht.2.trans hv.2⟩

theorem discoverAtaChannel_step (mode seen channel : ℕ) :
    Within AtaStep (discoverAtaChannel mode seen channel) := by
  intro s
  refine ensures_ite (fun _ => ensures_pure (refl_of AtaStep s)) fun _ => ensures_modify_bind ?_
  have hset : AtaStep s { s with ataPort := if channel = 0 then 0x1F0 else 0x170 } :=
    ⟨rfl, rfl, fun _ _ => rfl, exists_append_self rfl⟩
  have hport : (if channel = 0 then 0x1F0 else 0x170) = 0x1F0 ∨
      (if channel = 0 then 0x1F0 else 0x170) = 0x170 := by
    split_ifs
    · exact Or.inl rfl
    · exact Or.inr rfl
  refine ensures_bind (discoverAtaDevices_step channel 2 hport) fun _ v hv => ?_
  refine ensures_modify_bind (ensures_pure (trans_of AtaStep hset ?_))
  exact ⟨hv.1.part, hv.1.bit, hv.1.mem, hv.1.issued⟩

theorem discoverAtaFunction_step (pci seen : ℕ) : Within AtaStep (discoverAtaFunction pci seen) := by
  refine within_bind (ataStep_quiet (quiet_ask _)) fun _ => within_ite (fun _ => within_pure _) fun _ => ?_
  refine within_bind (ataStep_quiet (quiet_ask _)) fun _ => within_ite (fun _ => within_pure _) fun _ => ?_
  refine within_bind (ataStep_quiet (quiet_ask _)) fun _ => within_ite (fun _ => within_pure _) fun _ => ?_
  exact within_bind (discoverAtaChannel_step _ _ _) fun _ => discoverAtaChannel_step _ _ _

theorem discoverAtaFrom_step (n pci seen : ℕ) : Within AtaStep (discoverAtaFrom n pci seen) := by
  induction n generalizing pci seen with
  | zero => exact within_pure _
  | succ n ih => exact within_bind (discoverAtaFunction_step pci seen) fun _ => ih _ _

/-! ### Discovery -/

/-- What `discover_storage` leaves behind; it runs at most once, and a search for
USB disks is not repeated. -/
structure DiscoverPost (s t : Storage) : Prop where
  inv : StorageInv t
  done : t.discovered = true
  same : s.discovered = true → t = s
  kept : t.initialized = s.initialized ∧ t.ataDead = s.ataDead ∧ t.companionTarget = s.companionTarget
  mem : ∀ a, ¬Own a → t.mem a = s.mem a
  issued : ∃ new, t.issued = s.issued ++ new ∧ ∀ o ∈ new, Lawful o
  bulks : ∃ new, t.bulks = s.bulks ++ new ∧ ∀ b ∈ new, b.lawful
  usbOnce : s.usbDiscovered = true → t.transportDead = s.transportDead ∧ t.ehci = s.ehci ∧
    t.companions = s.companions ∧ ∃ new, t.issued = s.issued ++ new ∧ ∀ o ∈ new, AtaLawful o

theorem DiscoverPost.refl (hs : StorageInv s) (hd : s.discovered = true) : DiscoverPost s s :=
  ⟨hs, hd, fun _ => rfl, ⟨rfl, rfl, rfl⟩, fun _ _ => rfl, exists_append_self rfl, exists_append_self rfl,
    fun _ => ⟨rfl, rfl, rfl, exists_append_self rfl⟩⟩

/-- **Discovery.** -/
theorem discoverStorage_spec (hs : StorageInv s) :
    Ensures discoverStorage s fun _ t => DiscoverPost s t := by
  refine ensures_get_bind (ensures_ite (fun hd => ensures_pure (.refl hs hd)) fun hd => ?_)
  refine ensures_modify_bind ?_
  have hset : UsbInv { s with discovered := true } := ⟨hs.ready, hs.disk, hs.found, hs.dead, hs.handed⟩
  refine ensures_bind (discoverUsb_spec hset) fun _ v hv => ?_
  refine ((discoverAtaFrom_step _ _ _).ensures v).mono fun _ t ht => ?_
  have hvd : v.discovered = true := hv.kept.2.1
  have htd : t.discovered = true := (ht.eq Storage.discovered fun _ => rfl).trans hvd
  have htu : t.usbDiscovered = true := (ht.eq Storage.usbDiscovered fun _ => rfl).trans hv.done
  have hte : t.ehci = v.ehci := ht.eq Storage.ehci fun _ => rfl
  have htp : t.companionPorts = v.companionPorts := ht.eq Storage.companionPorts fun _ => rfl
  have htb : t.bulks = v.bulks := ht.eq Storage.bulks fun _ => rfl
  have hvlawful : ∃ new, v.issued = s.issued ++ new ∧ ∀ o ∈ new, Lawful o := by
    obtain ⟨new, hn, hp⟩ := hv.issued
    exact ⟨new, hn, fun o ho => lawful_of_searchOut o (hp o ho)⟩
  have hlawful : ∃ new, t.issued = v.issued ++ new ∧ ∀ o ∈ new, Lawful o := by
    obtain ⟨new, hn, hp⟩ := ht.issued
    exact ⟨new, hn, fun o ho => (hp o ho).1⟩
  have hta : t.ataDead = s.ataDead := (ht.eq Storage.ataDead fun _ => rfl).trans hv.kept.2.2.1
  refine ⟨⟨⟨?_, ?_, fun _ => htu, fun _ => htu, fun _ => htu⟩, fun _ => htu, fun _ _ => htd, hta ▸ hs.pair⟩, htd,
    fun h => absurd h hd, ⟨?_, hta, ?_⟩, fun a ha => (ht.mem a ha).trans (hv.mem a ha),
    exists_append_trans hvlawful hlawful, ?_, fun hu => ?_⟩
  · rw [EhciReady, hte, htp]
    exact hv.inv.ready
  · rw [ht.bit, hte]
    exact hv.inv.disk
  · exact (ht.eq Storage.initialized fun _ => rfl).trans hv.kept.1
  · exact (ht.eq Storage.companionTarget fun _ => rfl).trans hv.kept.2.2.2
  · rw [htb]
    exact hv.bulks
  · obtain rfl := hv.same hu
    exact ⟨ht.eq Storage.transportDead fun _ => rfl, hte, ht.eq Storage.companions fun _ => rfl, ht.issued⟩

/-! ### Transfers on a dead transport -/

/-- On a dead transport nothing reaches the controller. -/
theorem bulk_dead (input : Bool) (buffer length : ℕ) (hd : s.transportDead = true) :
    Ensures (bulk input buffer length) s fun r t =>
      r = false ∧ t.issued = s.issued ∧ t.transportDead = true := by
  refine ensures_get_bind (ensures_bind ((quiet_makeQtd (e := 0) (d := 0) (n := 0) _ _ _ _ _
    (by decide)).ensures s) fun _ v hv => ?_)
  have hvd : v.transportDead = true := (eq_of_part hv.part Storage.transportDead fun _ => rfl).trans hd
  have hvi : v.issued = s.issued := by
    obtain ⟨new, hn, hp⟩ := hv.issued
    rw [hn, List.eq_nil_iff_forall_not_mem.mpr hp, List.append_nil]
  refine ensures_bind (Q := fun _ w => v = w) ?_ ?_
  · intro a w hr
    obtain ⟨new, rfl, hnil, -⟩ := issueBlock_spec input buffer v a w hr
    simp [hnil hvd]
  rintro _ _ rfl
  refine ensures_bind (Q := fun r w => r = false ∧ w = v) ?_ fun r w hw => ?_
  · exact ensures_get_bind (ensures_ite (fun _ => ensures_pure ⟨rfl, rfl⟩) fun h => absurd hvd h)
  · obtain ⟨rfl, rfl⟩ := hw
    exact ensures_ite (fun _ => ensures_pure ⟨rfl, hvi, hvd⟩) fun h => absurd rfl h

theorem scsi_dead (command : List ℕ) (length : ℕ) (hd : s.transportDead = true) :
    Ensures (scsi command length) s fun r t =>
      r = -1 ∧ t.issued = s.issued ∧ t.transportDead = true := by
  refine ensures_ite (fun _ => ensures_pure ⟨rfl, rfl, hd⟩) fun _ => ?_
  refine ensures_bind (Q := fun _ v => v.issued = s.issued ∧ v.transportDead = true) ?_ fun _ v hv => ?_
  · intro a v hput
    rw [putCbw_run] at hput
    rw [← (Prod.mk.inj (Option.some.inj hput)).2]
    exact ⟨rfl, hd⟩
  refine ensures_bind (bulk_dead false cbwBuffer 31 hv.2) fun sent w hw => ?_
  exact ensures_ite (fun _ => ensures_pure ⟨rfl, hw.2.1.trans hv.1, hw.2.2⟩) fun h => absurd hw.1 h

theorem usbRead_dead (lba blocks : ℕ) (hd : s.transportDead = true) :
    Ensures (usbRead lba blocks) s fun r t =>
      r = false ∧ t.issued = s.issued ∧ t.transportDead = true := by
  refine ensures_get_bind (ensures_ite (fun _ => ensures_pure ⟨rfl, rfl, hd⟩) fun _ => ?_)
  refine ensures_bind (scsi_dead _ _ hd) fun r t ht => ensures_pure ⟨?_, ht.2⟩
  rw [ht.1]
  rfl

/-! ### Data of an ATA disk -/

/-- The byte `i` of 16-bit words. -/
def ataByte (words : List ℕ) (i : ℕ) : UInt8 := byteOf (words.getD (i / 2) 0) (i % 2)

/-- `n` words arrived and lie at `destination`; nothing else was written. -/
structure AtaArrived (destination n : ℕ) (s t : Storage) (words : List ℕ) : Prop where
  length : words.length = n
  arrived : t.ataWords = s.ataWords ++ words
  data : ∀ i < 2 * n, t.mem (destination + i) = ataByte words i
  mem : ∀ a, a < destination ∨ destination + 2 * n ≤ a → t.mem a = s.mem a

/-- What neither writes memory nor reads data. -/
abbrev Still : Storage → Storage → Prop := DriverFrame .wire (fun _ => False) fun _ => True

theorem Still.mem_eq (h : Still s t) : t.mem = s.mem := funext fun a => h.mem a id

theorem Still.words_eq (h : Still s t) : t.ataWords = s.ataWords :=
  eq_of_part h.part Storage.ataWords fun _ => rfl

theorem ataByte_append_left {words more : List ℕ} {i : ℕ} (h : i < 2 * words.length) :
    ataByte (words ++ more) i = ataByte words i := by
  unfold ataByte
  rw [List.getD_append _ _ _ _ (by omega)]

theorem ataByte_append_right (words more : List ℕ) (i : ℕ) :
    ataByte (words ++ more) (2 * words.length + i) = ataByte more i := by
  unfold ataByte
  rw [List.getD_append_right _ _ _ _ (by omega),
    show (2 * words.length + i) / 2 - words.length = i / 2 by omega,
    show (2 * words.length + i) % 2 = i % 2 by omega]

/-- Words that arrive one block behind the other. -/
theorem AtaArrived.append {destination n n' : ℕ} {words more : List ℕ}
    (h : AtaArrived destination n s t words) (h' : AtaArrived (destination + 2 * n) n' t u more) :
    AtaArrived destination (n + n') s u (words ++ more) := by
  have hl := h.length
  refine ⟨by rw [List.length_append, hl, h'.length], by rw [h'.arrived, h.arrived, List.append_assoc],
    fun i hi => ?_, fun a ha => ?_⟩
  · by_cases hin : i < 2 * n
    · rw [h'.mem _ (by omega), h.data i hin, ataByte_append_left (hl.symm ▸ hin)]
    · obtain ⟨j, rfl⟩ : ∃ j, i = 2 * words.length + j := ⟨i - 2 * words.length, by omega⟩
      rw [ataByte_append_right, ← h'.data j (by omega), hl, Nat.add_assoc]
  · rw [h'.mem a (by omega), h.mem a (by omega)]

theorem AtaArrived.nil {destination : ℕ} (h : Still s t) : AtaArrived destination 0 s t [] :=
  ⟨rfl, by rw [h.words_eq, List.append_nil], fun i hi => by omega, fun a _ => congrFun h.mem_eq a⟩

/-- What reads no data may stand before and behind. -/
theorem AtaArrived.still {destination n : ℕ} {words : List ℕ} {s' t' : Storage}
    (h : AtaArrived destination n s t words) (hs : Still s' s) (ht : Still t t') :
    AtaArrived destination n s' t' words :=
  ⟨h.length, by rw [ht.words_eq, h.arrived, hs.words_eq], fun i hi => by rw [ht.mem_eq]; exact h.data i hi,
    fun a ha => by rw [ht.mem_eq, h.mem a ha, hs.mem_eq]⟩

/-- The loop over the words of a sector. -/
theorem ataSector_arrived (destination n : ℕ) (s : Storage) :
    Ensures (upTo n fun i => do
      let value ← inData
      store16 (destination + 2 * i) value) s fun _ t => ∃ words, AtaArrived destination n s t words := by
  induction n with
  | zero => exact ensures_pure ⟨[], .nil (refl_of _ s)⟩
  | succ n ih =>
    refine ensures_bind ih fun _ v hv => ?_
    obtain ⟨words, hv⟩ := hv
    refine ensures_bind (Q := fun value w => w.mem = v.mem ∧ w.ataWords = v.ataWords ++ [value]) ?_
      fun value w hw => ensures_modify ⟨words ++ [value], hv.append ?_⟩
    · exact ensures_get_bind (ensures_modifyGet_bind (ensures_modify_bind (ensures_pure ⟨rfl, rfl⟩)))
    refine ⟨rfl, hw.2, fun i hi => ?_, fun a ha => ?_⟩
    · show overwrite w.mem (destination + 2 * n) 2 (byteOf value) (destination + 2 * n + i) = _
      rw [overwrite_of_lt (by omega), ataByte, Nat.div_eq_of_lt (by omega), Nat.mod_eq_of_lt (by omega)]
      rfl
    · show overwrite w.mem (destination + 2 * n) 2 (byteOf value) a = _
      rw [overwrite_of_disjoint (by omega), hw.1]

theorem ataSectors_arrived (n sector : ℕ) (s : Storage) :
    Ensures (ataSectors n sector) s fun r t =>
      r = true → ∃ words, AtaArrived (transferBuffer + sector * 512) (n * 256) s t words := by
  induction n generalizing sector s with
  | zero => exact ensures_pure fun _ => ⟨[], by simpa using .nil (refl_of _ s)⟩
  | succ n ih =>
    refine ensures_bind (Within.ensures (T := Still) frame_ataSettle s) fun _ u hu => ?_
    refine ensures_bind (Within.ensures (T := Still) (frame_ataWait 8 8) u) fun ready v hv => ?_
    refine ensures_ite (fun _ => ensures_pure fun h => by simp at h) fun _ => ?_
    refine ensures_bind (ataSector_arrived _ 256 v) fun _ w hw => ?_
    refine (ih (sector + 1) w).mono fun r t ht hr => ?_
    obtain ⟨words, hw⟩ := hw
    obtain ⟨more, ht⟩ := ht hr
    have hsv : Still s v := trans_of Still hu hv
    refine ⟨words ++ more, ?_⟩
    have hall := (hw.still hsv (refl_of _ w)).append (u := t) (by
      rw [show transferBuffer + (sector + 1) * 512 = transferBuffer + sector * 512 + 2 * 256 by omega] at ht
      exact ht)
    rwa [show 256 + n * 256 = (n + 1) * 256 by omega] at hall

/-- **The data of a read** are the words that arrived for it. -/
theorem ataRead_arrived (lba blocks : ℕ) (s : Storage) :
    Ensures (ataRead lba blocks) s fun r t =>
      r = true → ∃ words, AtaArrived transferBuffer (blocks * 256) s t words := by
  have hout : ∀ p value, Within Still (out8 p value) := fun p value => frame_out8 trivial
  have hsettle : Within Still ataSettle := frame_ataSettle
  have hwait : ∀ mask wanted, Within Still (ataWait mask wanted) := frame_ataWait
  refine ensures_ite (fun _ => ensures_pure fun h => by simp at h) fun _ => ensures_get_bind ?_
  refine ensures_bind ((hout _ _).ensures s) fun _ s₁ h₁ => ensures_bind ((hout _ _).ensures s₁) fun _ s₂ h₂ => ?_
  refine ensures_bind (hsettle.ensures s₂) fun _ s₃ h₃ => ensures_bind ((hwait _ _).ensures s₃) fun _ s₄ h₄ => ?_
  refine ensures_ite (fun _ => ensures_pure fun h => by simp at h) fun _ => ?_
  refine ensures_bind ((hout _ _).ensures s₄) fun _ s₅ h₅ => ensures_bind ((hout _ _).ensures s₅) fun _ s₆ h₆ => ?_
  refine ensures_bind ((hout _ _).ensures s₆) fun _ s₇ h₇ => ensures_bind ((hout _ _).ensures s₇) fun _ s₈ h₈ => ?_
  refine ensures_bind ((hout _ _).ensures s₈) fun _ s₉ h₉ => ?_
  have h49 : Still s₄ s₉ :=
    trans_of Still h₅ (trans_of Still h₆ (trans_of Still h₇ (trans_of Still h₈ h₉)))
  have hs9 : Still s s₉ :=
    trans_of Still h₁ (trans_of Still h₂ (trans_of Still h₃ (trans_of Still h₄ h49)))
  refine ensures_bind (ataSectors_arrived blocks 0 s₉) fun done w hw => ?_
  refine ensures_ite (fun _ => ensures_pure fun h => by simp at h) fun hdone => ?_
  refine ensures_bind (hsettle.ensures w) fun _ x hx => ?_
  refine ((hwait _ _).ensures x).mono fun r t ht _ => ?_
  obtain ⟨words, hw⟩ := hw (by simpa using hdone)
  exact ⟨words, by simpa using hw.still hs9 (trans_of Still hx ht)⟩

end VirtualKernel
