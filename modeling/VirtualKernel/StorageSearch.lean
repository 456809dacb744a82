/-
The search for a USB disk.

`frame_scsi` and `frame_usbRead` put the commands of the transport into the
frame of the driver.  A step of the search (`Search`) may also point `ehci` into
the MMIO alias or null it; `findUsbDiskFrom_search` says that the whole search
ends with `ehci` set exactly when it found a disk.
-/
import VirtualKernel.StorageBulk

namespace VirtualKernel

open Lib

variable {k : Bool} {e : ℕ} {A : ℕ → Prop} {s t u : Storage}

/-! ### Commands -/

/-- A stage stays in the driver's memory; a block that is sent carries the
opcode that is in its buffer. -/
theorem frame_bulk (he : DriverRoom e A) (hs : s.ehci = e) (input : Bool) {buffer length : ℕ}
    (h1 : 0x30051000 ≤ buffer) (h2 : buffer + length ≤ 0x30057000) (h3 : buffer + 15 < 0x30057000)
    (hop : input = false → ReadOpcode (s.mem (buffer + 15)).toNat) :
    Ensures (bulk input buffer length) s fun _ t => DriverFrame .driver A (EhciOut k e) s t := by
  have hsize : incomingSize input length ≤ length := by
    unfold incomingSize
    split_ifs <;> omega
  have hA := he.wire (n := incomingSize input length) (show 0x30050000 ≤ buffer by omega)
    (by omega)
  refine ensures_get_bind (ensures_bind ((quiet_makeQtd (e := e) (d := buffer)
    (n := incomingSize input length) _ _ _ _ _ (by decide)).ensures s) fun _ v hv => ?_)
  have hve : v.ehci = e := (ehci_eq_of_part hv.part).trans hs
  have hvm : input = false → v.mem (buffer + 15) = s.mem (buffer + 15) := by
    rintro rfl
    have hout : ¬Wire e buffer (incomingSize false length) (buffer + 15) :=
      not_wire he.far (by omega) (by omega) (Or.inr (by simp [incomingSize]))
    exact hv.mem _ hout
  refine ensures_bind (issueBlock_spec input buffer v) ?_
  rintro _ _ ⟨new, rfl, -, hnew⟩
  have hvf : DriverFrame .driver A (EhciOut k e) s { v with issued := v.issued ++ new } := by
    have hvf : DriverFrame .driver A (EhciOut k e) s v := hv.level.mono hA fun _ ho => ho.elim
    refine ⟨hvf.part, hvf.time, hvf.mem, exists_append_trans hvf.issued ⟨new, rfl, ?_⟩, hvf.bulks⟩
    intro o ho
    obtain ⟨hin, rfl⟩ := hnew o ho
    show ReadOpcode (v.mem (buffer + 15)).toNat
    rw [hvm hin]
    exact hop hin
  refine ensures_bind ((frame_transfer (k := k) (e := e) _ _ _ _ _ _).ensures _) fun done w hw => ?_
  have hw := hw hve
  have hwf : DriverFrame .driver A (EhciOut k e) s w :=
    trans_of (DriverFrame .driver A (EhciOut k e)) hvf (hw.driver.mono hA fun _ ho => ho)
  refine ensures_ite (fun _ => ensures_pure hwf) fun _ => ?_
  have hkeep : input = false → w.mem (buffer + 15) = s.mem (buffer + 15) := by
    rintro rfl
    have hout : ¬Wire e buffer (incomingSize false length) (buffer + 15) :=
      not_wire he.far (by omega) (by omega) (Or.inr (by simp [incomingSize]))
    exact (hw.mem _ hout).trans (hv.mem _ hout)
  refine ensures_modify_bind ?_
  have hrec : DriverFrame .driver A (EhciOut k e) s { w with
      bulks := w.bulks ++ [⟨input, buffer, length, length - remaining w.mem 0,
        fun i => w.mem (buffer + i)⟩] } := by
    refine ⟨hwf.part, hwf.time, hwf.mem, hwf.issued, exists_append_trans hwf.bulks ⟨_, rfl, ?_⟩⟩
    intro b hb
    rw [List.mem_singleton] at hb
    subst hb
    intro hin
    show ReadOpcode (w.mem (buffer + 15)).toNat
    rw [hkeep hin]
    exact hop hin
  refine (Within.ensures (T := DriverFrame .driver A (EhciOut k e)) ?_ _).mono fun _ x hx =>
    trans_of (DriverFrame .driver A (EhciOut k e)) hrec hx
  refine within_bind within_get fun _ => within_ite (fun _ => ?_) fun _ => ?_
  · exact within_bind (frame_vars fun _ => ⟨rfl, rfl, rfl, rfl, rfl⟩) fun _ => within_pure _
  · refine within_bind (frame_vars fun _ => ?_) fun _ => within_pure _
    cases input <;> exact ⟨rfl, rfl, rfl, rfl, rfl⟩

theorem quiet_scsiStatus {P : StorageOut → Prop} (length : ℕ) :
    Within (DriverFrame .driver A P) (scsiStatus length) := by
  refine within_bind (quiet (quiet_loadWord _)) fun _ => within_bind (quiet (quiet_loadWord _)) fun _ => ?_
  refine within_bind (quiet (quiet_loadWord _)) fun _ => within_bind (quiet (quiet_loadByte _)) fun _ => ?_
  refine within_bind within_get fun _ => within_ite (fun _ => ?_) fun _ => ?_
  · exact within_bind (frame_vars fun _ => ⟨rfl, rfl, rfl, rfl, rfl⟩) fun _ => within_pure _
  refine within_ite (fun _ => within_pure _) fun _ => within_ite (fun _ => ?_) fun _ => within_pure _
  exact within_bind (frame_vars fun _ => ⟨rfl, rfl, rfl, rfl, rfl⟩) fun _ => within_pure _

theorem frame_scsiData (he : DriverRoom e A) (hs : s.ehci = e) {length : ℕ} (h : length ≤ 16384) :
    Ensures (scsiData length) s fun _ t => DriverFrame .driver A (EhciOut k e) s t := by
  have ht : transferBuffer = 0x30052000 := rfl
  refine ensures_ite (fun _ => ensures_pure (refl_of _ s)) fun _ => ?_
  exact frame_bulk he hs true (by decide) (by omega) (by decide) fun hin => absurd hin (by decide)

theorem frame_scsiAnswer (he : DriverRoom e A) (hs : s.ehci = e) {length : ℕ} (h : length ≤ 16384) :
    Ensures (scsiAnswer length) s fun _ t => DriverFrame .driver A (EhciOut k e) s t := by
  refine ensures_bind (frame_scsiData (k := k) he hs h) fun moved v hv => ?_
  refine ensures_ite (fun _ => ensures_pure hv) fun _ => ?_
  have hve : v.ehci = e := (ehci_eq_of_part hv.part).trans hs
  refine ensures_bind (frame_bulk (k := k) he hve true (by decide) (by decide) (by decide) fun hin =>
    absurd hin (by decide)) fun answered w hw => ?_
  have hsw : DriverFrame .driver A (EhciOut k e) s w := trans_of _ hv hw
  refine ensures_ite (fun _ => ensures_pure hsw) fun _ => ?_
  exact ((quiet_scsiStatus length).ensures w).mono fun _ x hx => trans_of _ hsw hx

/-- The opcode in the buffer of a command block. -/
theorem cbwByte_opcode {tag length : ℕ} {command : List ℕ}
    (h : storageReadCdbValid command length = true) :
    ReadOpcode (cbwByte tag length command 15).toNat := by
  obtain ⟨hl, -, hop⟩ := cdb_valid h
  have hbyte : cbwByte tag length command 15 = UInt8.ofNat (command.getD 0 0) := by
    unfold cbwByte
    rw [if_neg (by decide), if_neg (by decide), if_neg (by decide), if_neg (by decide),
      if_neg (by decide), if_neg (by decide), if_pos (by omega)]
  rw [hbyte]
  rcases hop with h0 | h0 | h0 | h0 <;> rw [h0]
  · exact Or.inl rfl
  · exact Or.inr (Or.inl rfl)
  · exact Or.inr (Or.inr (Or.inl rfl))
  · exact Or.inr (Or.inr (Or.inr rfl))

theorem frame_putCbw (he : DriverRoom e A) {command : List ℕ} (length : ℕ) (h : command.length ≤ 16) :
    Within (DriverFrame .driver A (EhciOut k e)) (putCbw command length) := by
  have hc : cbwBuffer = 0x30051400 := rfl
  have h14 : ∀ i < [command.length].length, A (cbwBuffer + 14 + i) :=
    he.range (n := 1) (by decide) (by decide)
  refine within_bind (quiet (quiet_storeBytes _ (he.range (by decide) (by decide)))) fun _ => ?_
  refine within_bind (quiet (quiet_store32 _ (he.range (by decide) (by decide)))) fun _ => ?_
  refine within_bind (frame_vars fun _ => ⟨rfl, rfl, rfl, rfl, rfl⟩) fun _ => ?_
  refine within_bind within_get fun _ => ?_
  refine within_bind (quiet (quiet_store32 _ (he.range (by decide) (by decide)))) fun _ => ?_
  refine within_bind (quiet (quiet_store32 _ (he.range (by decide) (by decide)))) fun _ => ?_
  refine within_bind (quiet (quiet_storeBytes _ (he.range (by decide) (by decide)))) fun _ => ?_
  refine within_bind (quiet (quiet_storeBytes _ h14)) fun _ => ?_
  exact quiet (quiet_storeBytes _ (he.range (by decide) (by omega)))

/-- **A command** stays in the driver's memory and sends an allowed opcode. -/
theorem frame_scsi (he : DriverRoom e A) (command : List ℕ) (length : ℕ) :
    Within (EhciFrame .driver A k e) (scsi command length) := by
  intro s r t hr hs
  cases hv : storageReadCdbValid command length with
  | false =>
    obtain ⟨-, rfl⟩ := scsi_invalid hv hr
    exact refl_of _ t
  | true =>
    obtain ⟨hc, hl, -⟩ := cdb_valid hv
    refine (?_ : Ensures (scsi command length) s fun _ t => DriverFrame .driver A (EhciOut k e) s t) r t hr
    refine ensures_ite (fun h => by simp [hv] at h) fun _ => ?_
    refine ensures_bind (Q := fun _ v => DriverFrame .driver A (EhciOut k e) s v ∧
      ReadOpcode (v.mem (cbwBuffer + 15)).toNat) ?_ fun _ v hvf => ?_
    · intro a v hput
      refine ⟨frame_putCbw he length (by omega) s a v hput, ?_⟩
      rw [putCbw_run] at hput
      rw [← (Prod.mk.inj (Option.some.inj hput)).2]
      show ReadOpcode (cbwMemory s.mem (add32 s.usbTag 1) length command (cbwBuffer + 15)).toNat
      rw [cbwMemory_byte _ _ _ _ (by decide)]
      exact cbwByte_opcode hv
    have hve : v.ehci = e := (ehci_eq_of_part hvf.1.part).trans hs
    refine ensures_bind (frame_bulk (k := k) he hve false (by decide) (by decide) (by decide) fun _ => hvf.2)
      fun sent w hw => ?_
    have hsw : DriverFrame .driver A (EhciOut k e) s w := trans_of _ hvf.1 hw
    have hwe : w.ehci = e := (ehci_eq_of_part hsw.part).trans hs
    refine ensures_ite (fun _ => ensures_pure hsw) fun _ => ?_
    exact (frame_scsiAnswer he hwe hl).mono fun _ x hx => trans_of _ hsw hx

theorem frame_be32 (a : ℕ) : Within (EhciFrame .driver A k e) (be32 a) := by
  refine within_bind (quiet_ehci (quiet_loadByte _)) fun _ => ?_
  refine within_bind (quiet_ehci (quiet_loadByte _)) fun _ => ?_
  refine within_bind (quiet_ehci (quiet_loadByte _)) fun _ => ?_
  exact within_bind (quiet_ehci (quiet_loadByte _)) fun _ => within_pure _

theorem frame_storageReadyAttempts (he : DriverRoom e A) (n : ℕ) :
    Within (EhciFrame .driver A k e) (storageReadyAttempts n) := by
  induction n with
  | zero => exact within_pure _
  | succ n ih =>
    refine within_bind (frame_scsi he _ _) fun _ => ?_
    refine within_ite (fun _ => within_pure _) fun _ => within_ite (fun _ => ?_) fun _ => ?_
    · refine within_bind (frame_scsi he _ _) fun _ => ?_
      refine within_ite (fun _ => within_pure _) fun _ => ?_
      refine within_bind (frame_be32 _) fun _ => within_ite (fun _ => within_pure _) fun _ => ?_
      refine within_bind (frame_be32 _) fun _ => ?_
      exact within_bind (ehci_vars fun _ => ⟨rfl, rfl, rfl, rfl, rfl⟩) fun _ => within_pure _
    · refine within_bind (frame_scsi he _ _) fun _ => ?_
      refine within_ite (fun _ => within_pure _) fun _ => ?_
      exact within_bind (quiet_ehci (quiet_delay _)) fun _ => ih

theorem frame_storageReady (he : DriverRoom e A) : Within (EhciFrame .driver A k e) storageReady :=
  within_bind (quiet_ehci (quiet_report he.report _ (by decide))) fun _ =>
    frame_storageReadyAttempts he _

/-- **A read from the USB disk** writes only memory of the driver, uses only the
registers behind `ehci` and sends only allowed commands. -/
theorem frame_usbRead (he : DriverRoom e A) (lba blocks : ℕ) :
    Within (EhciFrame .driver A k e) (usbRead lba blocks) := by
  refine within_bind within_get fun s => within_ite (fun _ => within_pure _) fun _ => ?_
  exact within_bind (frame_scsi he _ _) fun _ => within_pure _

/-! ### The search for a USB disk -/

/-- The search uses no port but those of the timer, and sends only commands
that read. -/
def SearchOut : StorageOut → Prop
  | .port p _ => p = 0x61 ∨ p = 0x43 ∨ p = 0x42
  | .block opcode => ReadOpcode opcode
  | _ => True

theorem searchOut_of_ehciOut (o : StorageOut) (h : EhciOut k e o) : SearchOut o := by
  cases o with
  | port p v => exact h.elim
  | block opcode => exact h
  | _ => trivial

theorem searchOut_of_timerOut (o : StorageOut) (h : TimerOut o) : SearchOut o := by
  cases o with
  | port p v =>
    exact h
  | block opcode => exact h.elim
  | _ => trivial

/-- `ehci` is null or points into the alias, which has at most 15 ports. -/
def EhciReady (s : Storage) : Prop := (s.ehci = 0 ∨ InWindow s.ehci) ∧ s.companionPorts ≤ 15

/-- The variables that the search for a USB disk keeps. -/
def Storage.base (s : Storage) : Storage :=
  { s.part .driver with
    ehci := 0, mmioPte := 0, mappedMmio := 0, companionPorts := 0, companionKeep := 0
    companionsReady := false }

/-- A step of the search. -/
structure Search (s t : Storage) : Prop where
  base : t.base = s.base
  ready : EhciReady t
  mem : ∀ a, ¬Own a → t.mem a = s.mem a
  issued : ∃ new, t.issued = s.issued ++ new ∧ ∀ o ∈ new, SearchOut o
  bulks : ∃ new, t.bulks = s.bulks ++ new ∧ ∀ b ∈ new, b.lawful

theorem Search.trans (h : Search s t) (h' : Search t u) : Search s u :=
  ⟨h'.base.trans h.base, h'.ready, fun a ha => (h'.mem a ha).trans (h.mem a ha),
    exists_append_trans h.issued h'.issued, exists_append_trans h.bulks h'.bulks⟩

theorem Search.refl (h : EhciReady s) : Search s s :=
  ⟨rfl, h, fun _ _ => rfl, exists_append_self rfl, exists_append_self rfl⟩

theorem InWindow.ne_zero (h : InWindow e) : e ≠ 0 := by
  have := h.high
  omega

/-- A part of the state that the search keeps. -/
theorem Search.eq {α : Type} (h : Search s t) (f : Storage → α) (hf : ∀ u : Storage, f u.base = f u) :
    f t = f s := by
  rw [← hf t, ← hf s, h.base]

theorem DriverFrame.search {P : StorageOut → Prop} (h : DriverFrame .driver Own P s t)
    (hP : ∀ o, P o → SearchOut o) (hs : EhciReady s) : Search s t := by
  obtain ⟨new, hn, hp⟩ := h.issued
  refine ⟨eq_of_part h.part Storage.base fun _ => rfl, ?_, h.mem, ⟨new, hn, fun o ho => hP o (hp o ho)⟩,
    h.bulks⟩
  rw [EhciReady, ehci_eq_of_part h.part, eq_of_part h.part Storage.companionPorts fun _ => rfl]
  exact hs

/-- A routine of the controller, as a step of the search. -/
theorem EhciFrame.search {α : Type} {m : StorageM α} (h : Within (EhciFrame .driver Own k e) m)
    (hs : EhciReady s) (he : s.ehci = e) :
    Ensures m s fun _ t => Search s t ∧ t.ehci = e := by
  intro r t hr
  have hf := h s r t hr he
  exact ⟨hf.search searchOut_of_ehciOut hs, (ehci_eq_of_part hf.part).trans he⟩

theorem quiet_search {α : Type} {m : StorageM α} (h : Within (Quiet Own) m) (hs : EhciReady s) :
    Ensures m s fun _ t => Search s t ∧ t.ehci = s.ehci := by
  intro r t hr
  have hf := h s r t hr
  exact ⟨(hf.level (l := .driver)).search (fun _ ho => ho.elim) hs, ehci_eq_of_part hf.part⟩

/-! ### The controller -/

theorem issue_search {o : StorageOut} (ho : SearchOut o) (hs : EhciReady s) :
    Ensures (issue o) s fun _ t => Search s t ∧ t.ehci = s.ehci :=
  ensures_modify ⟨⟨rfl, hs, fun _ _ => rfl, ⟨[o], rfl, by simpa using ho⟩, exists_append_self rfl⟩, rfl⟩

theorem mmioRead_search (a : ℕ) (hs : EhciReady s) :
    Ensures (mmioRead a) s fun _ t => Search s t ∧ t.ehci = s.ehci := by
  refine ensures_bind (issue_search trivial hs) fun _ v hv => ?_
  exact (quiet_search (quiet_ask _) hv.1.ready).mono fun _ t ht =>
    ⟨hv.1.trans ht.1, ht.2.trans hv.2⟩

theorem storageMapMmio_search (physical : ℕ) (hs : EhciReady s) :
    Ensures (storageMapMmio physical) s fun r t => Search s t ∧ t.ehci = s.ehci ∧
      (r ≠ 0 → storageMmioBase ≤ r ∧ r ≤ storageMmioBase + 0xF00) := by
  refine ensures_ite (fun _ => ensures_pure ⟨.refl hs, rfl, fun h => absurd rfl h⟩) fun hc => ?_
  have hr : storageMmioBase ≤ storageMmioBase + (physical &&& 0xFFF) ∧
      storageMmioBase + (physical &&& 0xFFF) ≤ storageMmioBase + 0xF00 := by
    push Not at hc
    exact ⟨by omega, by omega⟩
  refine ensures_get_bind (ensures_ite (fun _ => ensures_pure ⟨.refl hs, rfl, fun _ => hr⟩) fun _ => ?_)
  refine ensures_bind (quiet_search (quiet_ask _) hs) fun mapped t ht => ?_
  refine ensures_ite (fun _ => ensures_pure ⟨ht.1, ht.2, fun h => absurd rfl h⟩) fun _ => ?_
  refine ensures_modify_bind (ensures_pure ⟨?_, ht.2, fun _ => hr⟩)
  exact ⟨ht.1.base, ht.1.ready, ht.1.mem, ht.1.issued, ht.1.bulks⟩

/-- The BIOS hand-over uses the configuration space only. -/
theorem frame_legacyHandoff {P : StorageOut → Prop} (hP : ∀ d o v, P (.pci d o v))
    (device n extended : ℕ) :
    Within (DriverFrame .driver Own P) (legacyHandoff device n extended) := by
  induction n generalizing extended with
  | zero => exact within_pure _
  | succ n ih =>
    refine within_ite (fun _ => within_pure _) fun _ => within_ite (fun _ => within_pure _) fun _ => ?_
    refine within_bind (quiet (quiet_ask _)) fun legacy => within_ite (fun _ => ?_) fun _ => ?_
    · refine within_bind (frame_issue (hP _ _ _)) fun _ => within_bind (quiet quiet_tsc) fun _ => ?_
      refine within_bind (quiet (quiet_ask _)) fun _ => within_ite (fun _ => within_pure _) fun _ => ?_
      refine within_bind (frame_issue (hP _ _ _)) fun _ => ?_
      exact within_ite (fun _ => within_pure _) fun _ => ih _
    · exact within_ite (fun _ => within_pure _) fun _ => ih _

theorem legacyHandoff_search (device n extended : ℕ) (hs : EhciReady s) :
    Ensures (legacyHandoff device n extended) s fun _ t => Search s t ∧ t.ehci = s.ehci := by
  have hwithin : Within (DriverFrame .driver Own SearchOut) (legacyHandoff device n extended) :=
    frame_legacyHandoff (fun _ _ _ => trivial) device n extended
  intro r t hr
  have hf := hwithin s r t hr
  exact ⟨hf.search (fun _ ho => ho) hs, ehci_eq_of_part hf.part⟩

/-- Loads and stores in the alias, and requests to the controller. -/
def WindowOut : StorageOut → Prop
  | .mmio a _ => storageMmioBase ≤ a ∧ a + 4 ≤ storageMmioBase + 4096
  | .load a => storageMmioBase ≤ a ∧ a + 4 ≤ storageMmioBase + 4096
  | .port _ _ => False
  | .block opcode => ReadOpcode opcode
  | _ => True

theorem windowOut_of_ehciOut (he : InWindow e) (o : StorageOut) (h : EhciOut k e o) : WindowOut o := by
  obtain ⟨h1, h2⟩ := he
  cases o with
  | port p v => exact h
  | pci d p v => trivial
  | setup => trivial
  | block opcode => exact h
  | mmio a v =>
    obtain ⟨i, hi, rfl⟩ := h
    exact ⟨by omega, by omega⟩
  | load a =>
    obtain ⟨i, hi, rfl⟩ := h
    exact ⟨by omega, by omega⟩

theorem searchOut_of_windowOut (o : StorageOut) (h : WindowOut o) : SearchOut o := by
  cases o with
  | port p v => exact h.elim
  | block opcode => exact h
  | _ => trivial

/-- The frame of a routine that also reads the capability registers. -/
def WindowFrame (e : ℕ) (s t : Storage) : Prop := s.ehci = e → DriverFrame .driver Own WindowOut s t

instance : IsPreorder Storage (WindowFrame e) where
  refl s _ := refl_of (DriverFrame .driver Own WindowOut) s
  trans _ _ _ h h' hs :=
    trans_of (DriverFrame .driver Own WindowOut) (h hs) (h' ((ehci_eq_of_part (h hs).part).trans hs))

section

variable {α : Type} {m : StorageM α}

theorem window_of_ehci (he : InWindow e) (h : Within (EhciFrame .driver Own k e) m) :
    Within (WindowFrame e) m :=
  h.mono fun _ _ hst hs => (hst hs).mono (fun _ ha => ha) (windowOut_of_ehciOut he)

theorem window_of_frame (h : Within (DriverFrame .driver Own WindowOut) m) : Within (WindowFrame e) m :=
  h.mono fun _ _ hst _ => hst

theorem WindowFrame.search (h : Within (WindowFrame e) m) (hs : EhciReady s) (he : s.ehci = e) :
    Ensures m s fun _ t => Search s t ∧ t.ehci = e := by
  intro r t hr
  have hf := h s r t hr he
  exact ⟨hf.search searchOut_of_windowOut hs, (ehci_eq_of_part hf.part).trans he⟩

end

/-- A load of a capability register. -/
theorem window_capability {c i : ℕ} (h : storageMmioBase ≤ c ∧ c ≤ storageMmioBase + 0xF00)
    (hi : i ≤ 8) : Within (WindowFrame e) (mmioRead (c + i)) :=
  window_of_frame (within_bind (frame_issue ⟨by omega, by omega⟩) fun _ => quiet (quiet_ask _))

theorem window_write (he : InWindow e) {index : ℕ} (value : ℕ) (h : index < 32) :
    Within (WindowFrame e) (ehciWrite index value) :=
  window_of_ehci (k := true) he (frame_ehciWrite (fun _ hi => own_window he hi) value h)

theorem window_read (he : InWindow e) {index : ℕ} (h : index < 32) :
    Within (WindowFrame e) (ehciRead index) := window_of_ehci (k := true) he (frame_ehciRead h)

theorem window_wait (he : InWindow e) {offset : ℕ} (mask value : ℕ) (h : offset < 128) :
    Within (WindowFrame e) (waitRegister offset mask value) :=
  window_of_ehci (k := true) he (frame_waitRegister mask value h)

theorem window_quiet {α : Type} {m : StorageM α} (h : Within (Quiet Own) m) : Within (WindowFrame e) m :=
  window_of_frame (quiet h)

section

variable {c : ℕ} (he : InWindow e) (hc : storageMmioBase ≤ c ∧ c ≤ storageMmioBase + 0xF00)

include he hc

theorem window_powerPort {port : ℕ} (h : port < 15) : Within (WindowFrame e) (powerPort c port) := by
  refine within_bind (window_read he (by omega)) fun _ => ?_
  refine within_bind (window_capability hc (by decide)) fun _ => ?_
  exact window_write he _ (by omega)

theorem window_clearSegment : Within (WindowFrame e) (clearSegment c) := by
  refine within_bind (window_capability hc (by decide)) fun _ => ?_
  exact within_ite (fun _ => window_write he _ (by decide)) fun _ => within_pure _

omit hc in
theorem window_startSchedule : Within (WindowFrame e) startSchedule := by
  refine within_bind (within_upTo fun i hi => window_quiet (quiet_store32 _ ?_)) fun _ => ?_
  · have hp : periodicList = 0x30056000 := rfl
    exact own_range (by omega) (by omega)
  refine within_bind (window_write he _ (by decide)) fun _ => ?_
  refine within_bind (window_write he _ (by decide)) fun _ => ?_
  refine within_bind (window_write he _ (by decide)) fun _ => ?_
  refine within_bind (window_wait he _ _ (by decide)) fun _ => ?_
  exact within_ite (fun _ => within_none) fun _ => window_write he _ (by decide)

theorem window_resetController : Within (WindowFrame e) (resetController c) := by
  refine within_bind (window_of_ehci (k := true) he (frame_stopController he.room)) fun _ => ?_
  refine within_bind (window_write he _ (by decide)) fun _ => ?_
  refine within_bind (window_wait he _ _ (by decide)) fun _ => ?_
  refine within_ite (fun _ => within_none) fun _ => ?_
  refine within_bind (window_write he _ (by decide)) fun _ => ?_
  refine within_bind (window_write he _ (by decide)) fun _ => ?_
  refine within_bind (window_clearSegment he hc) fun _ => ?_
  refine within_bind (window_startSchedule he) fun _ => ?_
  refine within_bind (window_capability hc (by decide)) fun parameters => ?_
  have hports : parameters &&& 15 ≤ 15 := Nat.and_le_right
  refine within_bind (within_upTo fun i hi => window_powerPort he hc (by omega)) fun _ => ?_
  exact within_bind (window_quiet (quiet_delay _)) fun _ => within_pure _

end

/-- At most 15 ports are found. -/
theorem resetController_ports (c : ℕ) (s : Storage) :
    Ensures (resetController c) s fun ports _ => ports ≤ 15 := by
  have hany : ∀ {α : Type} (m : StorageM α) (v : Storage), Ensures m v fun _ _ => True :=
    fun _ _ _ _ _ => trivial
  refine ensures_bind (hany _ _) fun _ _ _ => ensures_bind (hany _ _) fun _ _ _ => ?_
  refine ensures_bind (hany _ _) fun _ _ _ => ensures_ite (fun _ => ensures_none) fun _ => ?_
  refine ensures_bind (hany _ _) fun _ _ _ => ensures_bind (hany _ _) fun _ _ _ => ?_
  refine ensures_bind (hany _ _) fun _ _ _ => ensures_bind (hany _ _) fun _ _ _ => ?_
  refine ensures_bind (hany _ _) fun parameters _ _ => ensures_bind (hany _ _) fun _ _ _ => ?_
  exact ensures_bind (hany _ _) fun _ _ _ => ensures_pure Nat.and_le_right

/-- `start_controller` leaves `ehci` alone or points it into the alias. -/
theorem startController_search (device : ℕ) (hs : EhciReady s) :
    Ensures (startController device) s fun ports t => Search s t ∧ ports ≤ 15 ∧
      (ports = 0 ∧ t.ehci = s.ehci ∨ InWindow t.ehci) := by
  refine ensures_bind (quiet_search (quiet_report own_report _ (by decide)) hs) fun _ a ha => ?_
  refine ensures_bind (quiet_search (quiet_report own_report _ (by decide)) ha.1.ready) fun _ b hb => ?_
  refine ensures_bind (quiet_search (quiet_ask _) hb.1.ready) fun bar c hc => ?_
  have hc' : Search s c := (ha.1.trans hb.1).trans hc.1
  have hce : c.ehci = s.ehci := hc.2.trans (hb.2.trans ha.2)
  refine ensures_ite (fun _ => ensures_pure ⟨hc', by decide, Or.inl ⟨rfl, hce⟩⟩) fun _ => ?_
  refine ensures_bind (quiet_search (quiet_ask _) hc'.ready) fun _ d hd => ?_
  refine ensures_bind (issue_search trivial hd.1.ready) fun _ f hf => ?_
  refine ensures_bind (storageMapMmio_search _ hf.1.ready) fun capability g hg => ?_
  have hg' : Search s g := ((hc'.trans hd.1).trans hf.1).trans hg.1
  have hge : g.ehci = s.ehci := hg.2.1.trans (hf.2.trans (hd.2.trans hce))
  refine ensures_ite (fun _ => ensures_pure ⟨hg', by decide, Or.inl ⟨rfl, hge⟩⟩) fun hcap => ?_
  have hwin := hg.2.2 hcap
  refine ensures_bind (mmioRead_search _ hg'.ready) fun length x hx => ?_
  have hx' : Search s x := hg'.trans hx.1
  have hxe : x.ehci = s.ehci := hx.2.trans hge
  refine ensures_ite (fun _ => ensures_pure ⟨hx', by decide, Or.inl ⟨rfl, hxe⟩⟩) fun hlen => ?_
  refine ensures_bind (mmioRead_search _ hx'.ready) fun extended y hy => ?_
  have hy' : Search s y := hx'.trans hy.1
  refine ensures_bind (legacyHandoff_search _ _ _ hy'.ready) fun free z hz => ?_
  have hz' : Search s z := hy'.trans hz.1
  have hze : z.ehci = s.ehci := hz.2.trans (hy.2.trans hxe)
  refine ensures_ite (fun _ => ensures_pure ⟨hz', by decide, Or.inl ⟨rfl, hze⟩⟩) fun _ => ?_
  -- the controller is taken over
  push Not at hlen
  have he : InWindow (capability + (length &&& 255)) := ⟨by omega, by omega⟩
  refine ensures_modify_bind ?_
  have hset : Search s { z with ehci := capability + (length &&& 255) } :=
    ⟨hz'.base, ⟨Or.inr he, hz'.ready.2⟩, hz'.mem, hz'.issued, hz'.bulks⟩
  refine ((WindowFrame.search (window_resetController he hwin) hset.ready rfl).and
    (resetController_ports _ _)).mono ?_
  rintro ports t ⟨⟨ht, hte⟩, hports⟩
  exact ⟨hset.trans ht, hports, Or.inr (hte ▸ he)⟩

/-! ### Ports -/

theorem frame_probePort (he : DriverRoom e A) {index : ℕ} (h : index < 32) :
    Within (EhciFrame .driver A true e) (probePort index) := by
  refine within_bind (frame_ehciRead h) fun _ => within_ite (fun _ => ?_) fun _ => within_pure _
  refine within_bind (frame_enumerateStorage he) fun _ => ?_
  exact within_ite (fun _ => within_pure _) fun _ => frame_storageReady he

theorem frame_findOnPort (he : InWindow e) {port : ℕ} (h : port < 15) :
    Within (EhciFrame .driver Own true e) (findOnPort port) := by
  have hA : ∀ i < 128, Own (e + i) := fun i hi => own_window he hi
  have hi : (0x44 + port * 4) / 4 < 32 := by omega
  refine within_bind (frame_ehciRead hi) fun _ => within_ite (fun _ => within_pure _) fun _ => ?_
  refine within_bind (quiet_ehci (quiet_report own_report _ (by decide))) fun _ => ?_
  refine within_bind (quiet_ehci (quiet_report own_report _ (by decide))) fun _ => ?_
  refine within_bind (frame_ehciWrite hA _ hi) fun _ => ?_
  refine within_bind (quiet_ehci (quiet_delay _)) fun _ => ?_
  refine within_bind (frame_ehciRead hi) fun _ => within_bind (frame_ehciWrite hA _ hi) fun _ => ?_
  refine within_bind (frame_waitRegister _ _ (by omega)) fun _ => ?_
  refine within_ite (fun _ => within_none) fun _ => ?_
  refine within_bind (quiet_ehci (quiet_delay _)) fun _ => ?_
  refine within_bind (frame_probePort he.room hi) fun _ => within_ite (fun _ => within_pure _) fun _ => ?_
  refine within_bind (frame_ehciRead hi) fun _ => within_bind (frame_ehciWrite hA _ hi) fun _ => ?_
  exact within_pure _

theorem frame_findOnPorts (he : InWindow e) {n port : ℕ} (h : port + n ≤ 15) :
    Within (EhciFrame .driver Own true e) (findOnPorts n port) := by
  induction n generalizing port with
  | zero => exact within_pure _
  | succ n ih =>
    refine within_bind (frame_findOnPort he (by omega)) fun found => ?_
    exact within_ite (fun _ => within_pure _) fun _ => ih (by omega)

theorem frame_handoffPort (he : InWindow e) (keepPort : ℕ) {port : ℕ} (h : port < 15) :
    Within (EhciFrame .driver Own true e) (handoffPort keepPort port) := by
  have hA : ∀ i < 128, Own (e + i) := fun i hi => own_window he hi
  have hi : (0x44 + port * 4) / 4 < 32 := by omega
  refine within_ite (fun _ => within_pure _) fun _ => ?_
  refine within_bind (frame_ehciRead hi) fun _ => within_bind (frame_ehciWrite hA _ hi) fun _ => ?_
  exact within_bind (frame_ehciRead hi) fun _ => within_pure _

/-- The hand-over of the ports of the controller at `ehci`. -/
theorem storageHandoffPorts_search {ports : ℕ} (keepPort : ℕ) (hports : ports ≤ 15) (hs : EhciReady s) :
    Ensures (storageHandoffPorts ports keepPort) s fun _ t => Search s t ∧ t.ehci = s.ehci := by
  refine ensures_get_bind (ensures_ite (fun _ => ensures_pure ⟨.refl hs, rfl⟩) fun hc => ?_)
  push Not at hc
  have he : InWindow s.ehci := hs.1.resolve_left hc.2
  refine ensures_modify_bind ?_
  have hset : Search s { s with companionPorts := ports, companionKeep := keepPort } :=
    ⟨rfl, ⟨hs.1, hports⟩, fun _ _ => rfl, exists_append_self rfl, exists_append_self rfl⟩
  refine ensures_bind (EhciFrame.search (within_upTo fun i hi =>
    frame_handoffPort he keepPort (show i < 15 by omega)) hset.ready rfl) fun _ v hv => ?_
  have hv' := hset.trans hv.1
  exact ensures_modify ⟨⟨hv'.base, hv'.ready, hv'.mem, hv'.issued, hv'.bulks⟩, hv.2⟩

/-- One controller: a disk is found with `ehci` set, or `ehci` is null again. -/
theorem findOnController_search (device : ℕ) (hs : EhciReady s) :
    Ensures (findOnController device) s fun found t => Search s t ∧ (found = true ↔ t.ehci ≠ 0) := by
  refine ensures_bind (startController_search device hs) fun ports v hv => ?_
  obtain ⟨hv, hports, hehci⟩ := hv
  have hfind : Ensures (findOnPorts ports 0) v fun r w => Search v w ∧ w.ehci = v.ehci ∧
      (r ≠ none → InWindow v.ehci) := by
    rcases hehci with ⟨rfl, -⟩ | he
    · exact ensures_pure ⟨.refl hv.ready, rfl, fun h => absurd rfl h⟩
    · exact (EhciFrame.search (frame_findOnPorts he (by omega)) hv.ready rfl).mono fun r w hw =>
        ⟨hw.1, hw.2, fun _ => he⟩
  refine ensures_bind hfind fun found w hw => ?_
  have hw' := hv.trans hw.1
  cases found with
  | some port =>
    refine ensures_bind (storageHandoffPorts_search port hports hw'.ready) fun _ x hx => ensures_pure ?_
    refine ⟨hw'.trans hx.1, fun _ => ?_, fun _ => rfl⟩
    rw [hx.2, hw.2.1]
    exact (hw.2.2 (by simp)).ne_zero
  | none =>
    have hall : Ensures (handoffAll ports) w fun _ x => Search w x ∧ x.ehci = w.ehci :=
      ensures_ite (fun _ => ensures_pure ⟨.refl hw'.ready, rfl⟩) fun _ =>
        storageHandoffPorts_search _ hports hw'.ready
    refine ensures_bind hall fun _ x hx => ?_
    have hx' := hw'.trans hx.1
    have hstop : Ensures stopController x fun _ y => Search x y := by
      rcases hx'.ready.1 with hzero | he
      · refine ensures_get_bind (ensures_ite (fun _ => ensures_pure (.refl hx'.ready)) fun hne => ?_)
        exact absurd hzero hne
      · exact (EhciFrame.search (k := true) (frame_stopController he.room) hx'.ready rfl).mono fun _ y hy => hy.1
    refine ensures_bind hstop fun _ y hy => ensures_modify_bind (ensures_pure ?_)
    have hy' := hx'.trans hy
    exact ⟨⟨hy'.base, ⟨Or.inl rfl, hy'.ready.2⟩, hy'.mem, hy'.issued, hy'.bulks⟩, by simp⟩

theorem usbCandidate_search (device : ℕ) (hs : EhciReady s) :
    Ensures (usbCandidate device) s fun _ t => Search s t ∧ t.ehci = s.ehci := by
  refine quiet_search ?_ hs
  refine within_bind within_get fun _ => within_ite (fun _ => within_pure _) fun _ => ?_
  refine within_bind (quiet_ask _) fun _ => within_ite (fun _ => within_pure _) fun _ => ?_
  exact within_bind (quiet_ask _) fun _ => within_pure _

/-- **The search for a USB disk**, over all controllers. -/
theorem findUsbDiskFrom_search (n device : ℕ) (hs : EhciReady s) (h0 : s.ehci = 0) :
    Ensures (findUsbDiskFrom n device) s fun found t => Search s t ∧ (found = true ↔ t.ehci ≠ 0) := by
  induction n generalizing s device with
  | zero => exact ensures_pure ⟨.refl hs, by simp [h0]⟩
  | succ n ih =>
    refine ensures_bind (usbCandidate_search device hs) fun candidate v hv => ?_
    have hv0 : v.ehci = 0 := hv.2.trans h0
    refine ensures_ite (fun _ => ?_) fun _ => ?_
    · refine ensures_bind (findOnController_search device hv.1.ready) fun found w hw => ?_
      refine ensures_ite (fun hf => ensures_pure ?_) fun hf => ?_
      · exact ⟨hv.1.trans hw.1, by simpa [hf] using hw.2⟩
      · have hw0 : w.ehci = 0 := by
          by_contra hne
          exact hf (hw.2.mpr hne)
        exact (ih _ hw.1.ready hw0).mono fun _ x hx => ⟨(hv.1.trans hw.1).trans hx.1, hx.2⟩
    · exact (ih _ hv.1.ready hv0).mono fun _ x hx => ⟨hv.1.trans hx.1, hx.2⟩

end VirtualKernel
