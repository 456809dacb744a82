/-
What the routines of the disk transport change.

`Own` are the addresses that belong to the driver: the DMA area, the words of
the diagnostic report and the page of the MMIO alias.  `DriverFrame l A P` says
that a program writes only to the addresses `A`, that it keeps a part of the
variables (`Storage.part l`), that what it does to the hardware satisfies `P`,
and that the command blocks which it sends carry one of the four SCSI opcodes.
A routine that uses the EHCI controller touches only the registers behind `ehci`
(`EhciFrame`), in every area that has room for these and for the driver's memory
(`DriverRoom`), such as `Own` while `ehci` points into the alias; one that uses an
ATA channel touches only its ports (`frame_ataRead`).
-/
import VirtualKernel.Storage

namespace VirtualKernel

open Lib

/-- The memory of the driver. -/
def Own (a : ℕ) : Prop :=
  InDma a ∨ bootReport ≤ a ∧ a < bootReport + 32 ∨
    storageMmioBase ≤ a ∧ a < storageMmioBase + 4096

instance (a : ℕ) : Decidable (Own a) := inferInstanceAs (Decidable (_ ∨ _))

/-- What a transfer may write: the schedule, the report, the registers and the
buffer of the IN descriptor. -/
def Wire (e target n a : ℕ) : Prop :=
  InSchedule a ∨ bootReport ≤ a ∧ a < bootReport + 32 ∨ e ≤ a ∧ a < e + 128 ∨
    target ≤ a ∧ a < target + n

/-- `ehci` points into the alias, with room for its registers. -/
def InWindow (e : ℕ) : Prop := storageMmioBase ≤ e ∧ e ≤ storageMmioBase + 0xF80

/-- The variables that single accesses keep, those that the ATA transport keeps,
those that a transfer keeps, and those that all of the USB transport keeps. -/
inductive Level
  | wire
  | ata
  | transfer
  | driver

/-- The state without what a routine of the level may change. -/
def Storage.part : Level → Storage → Storage
  | .wire, s => { s with time := 0, issued := [], mem := fun _ => 0 }
  | .ata, s => { s with time := 0, issued := [], mem := fun _ => 0, ataWords := [] }
  | .transfer, s => { s with time := 0, issued := [], mem := fun _ => 0, transportDead := false }
  | .driver, s =>
    { s with
      time := 0, issued := [], mem := fun _ => 0, transportDead := false, bulks := [], ataWords := []
      ticksPerMs := 0, usbAddress := 0, usbTag := 0, lastBlock := 0, toggleIn := 0, toggleOut := 0
      usbInterface := ⟨0, 0, 0, 0⟩ }

/-- TEST UNIT READY, REQUEST SENSE, READ CAPACITY and READ. -/
def ReadOpcode (opcode : ℕ) : Prop := opcode = 0x00 ∨ opcode = 0x03 ∨ opcode = 0x25 ∨ opcode = 0x28

/-- A block that is sent carries one of these commands. -/
def BulkTransfer.lawful (b : BulkTransfer) : Prop := b.input = false → ReadOpcode (b.data 15).toNat

/-- Only the addresses `A` and variables of the level change, and what is done
to the hardware satisfies `P`. -/
structure DriverFrame (l : Level) (A : ℕ → Prop) (P : StorageOut → Prop) (s t : Storage) : Prop where
  part : t.part l = s.part l
  time : s.time ≤ t.time
  mem : ∀ a, ¬A a → t.mem a = s.mem a
  issued : ∃ new, t.issued = s.issued ++ new ∧ ∀ o ∈ new, P o
  bulks : ∃ new, t.bulks = s.bulks ++ new ∧ ∀ b ∈ new, b.lawful

/-- Nothing is done to the hardware. -/
abbrev Quiet (A : ℕ → Prop) : Storage → Storage → Prop := DriverFrame .wire A fun _ => False

/-- Loads and stores of the registers behind `e`, command blocks that are
allowed, and control requests where these are made. -/
def EhciOut (k : Bool) (e : ℕ) : StorageOut → Prop
  | .mmio a _ => ∃ i < 32, a = e + 4 * i
  | .load a => ∃ i < 32, a = e + 4 * i
  | .setup _ _ _ _ _ => k = true
  | .block opcode => ReadOpcode opcode
  | _ => False

/-- The frame of a routine that uses the controller at `e`. -/
def EhciFrame (l : Level) (A : ℕ → Prop) (k : Bool) (e : ℕ) (s t : Storage) : Prop :=
  s.ehci = e → DriverFrame l A (EhciOut k e) s t

variable {l : Level} {A B : ℕ → Prop} {P Q : StorageOut → Prop} {k : Bool} {e : ℕ} {s t : Storage}

/-- A part of the state that the level does not see. -/
theorem eq_of_part {α : Type} (h : t.part l = s.part l) (f : Storage → α)
    (hf : ∀ u : Storage, f (u.part l) = f u) : f t = f s := by
  rw [← hf t, ← hf s, h]

theorem ehci_eq_of_part (h : t.part l = s.part l) : t.ehci = s.ehci :=
  eq_of_part h Storage.ehci fun _ => by cases l <;> rfl

theorem part_of_wire (h : t.part .wire = s.part .wire) : t.part l = s.part l :=
  eq_of_part h (Storage.part l) fun _ => by cases l <;> rfl

theorem part_driver (h : t.part l = s.part l) : t.part .driver = s.part .driver :=
  eq_of_part h (Storage.part .driver) fun _ => by cases l <;> rfl

theorem exists_append_trans {α : Type} {p : α → Prop} {a b c : List α}
    (h : ∃ new, b = a ++ new ∧ ∀ o ∈ new, p o) (h' : ∃ new, c = b ++ new ∧ ∀ o ∈ new, p o) :
    ∃ new, c = a ++ new ∧ ∀ o ∈ new, p o := by
  obtain ⟨x, rfl, hx⟩ := h
  obtain ⟨y, rfl, hy⟩ := h'
  refine ⟨x ++ y, List.append_assoc _ _ _, fun o ho => ?_⟩
  rcases List.mem_append.mp ho with ho | ho
  · exact hx o ho
  · exact hy o ho

theorem exists_append_self {α : Type} {p : α → Prop} {a b : List α} (h : b = a) :
    ∃ new, b = a ++ new ∧ ∀ o ∈ new, p o := ⟨[], by rw [h, List.append_nil], by simp⟩

instance : IsPreorder Storage (DriverFrame l A P) where
  refl _ := ⟨rfl, le_rfl, fun _ _ => rfl, exists_append_self rfl, exists_append_self rfl⟩
  trans _ _ _ h h' :=
    ⟨h'.part.trans h.part, h.time.trans h'.time, fun a ha => (h'.mem a ha).trans (h.mem a ha),
      exists_append_trans h.issued h'.issued, exists_append_trans h.bulks h'.bulks⟩

instance : IsPreorder Storage (EhciFrame l A k e) where
  refl s _ := refl_of (DriverFrame l A (EhciOut k e)) s
  trans _ _ _ h h' hs :=
    trans_of (DriverFrame l A (EhciOut k e)) (h hs) (h' ((ehci_eq_of_part (h hs).part).trans hs))

theorem DriverFrame.mono (h : DriverFrame l A P s t) (hAB : ∀ a, A a → B a) (hPQ : ∀ o, P o → Q o) :
    DriverFrame l B Q s t := by
  obtain ⟨new, hn, hp⟩ := h.issued
  exact ⟨h.part, h.time, fun a ha => h.mem a fun h' => ha (hAB a h'),
    ⟨new, hn, fun o ho => hPQ o (hp o ho)⟩, h.bulks⟩

theorem DriverFrame.level (h : DriverFrame .wire A P s t) : DriverFrame l A P s t :=
  ⟨part_of_wire h.part, h.time, h.mem, h.issued, h.bulks⟩

theorem DriverFrame.driver (h : DriverFrame l A P s t) : DriverFrame .driver A P s t :=
  ⟨part_driver h.part, h.time, h.mem, h.issued, h.bulks⟩

section

variable {α : Type} {m : StorageM α}

/-- What does nothing to the hardware is in the frame of every routine. -/
theorem quiet (h : Within (Quiet A) m) : Within (DriverFrame l A P) m :=
  h.mono fun _ _ hst => hst.level.mono (fun _ ha => ha) fun _ ho => ho.elim

theorem quiet_ehci (h : Within (Quiet A) m) : Within (EhciFrame l A k e) m :=
  h.mono fun _ _ hst _ => hst.level.mono (fun _ ha => ha) fun _ ho => ho.elim

theorem Quiet.of_subset (h : Within (Quiet A) m) (hAB : ∀ a, A a → B a) : Within (Quiet B) m :=
  h.mono fun _ _ hst => hst.mono hAB fun _ ho => ho

theorem EhciFrame.level (h : Within (EhciFrame .wire A k e) m) : Within (EhciFrame l A k e) m :=
  h.mono fun _ _ hst hs => (hst hs).level

/-- A transfer seen from the driver. -/
theorem EhciFrame.up (h : Within (EhciFrame l A k e) m) (hAB : ∀ a, A a → B a) :
    Within (EhciFrame .driver B k e) m :=
  h.mono fun _ _ hst hs => (hst hs).driver.mono hAB fun _ ho => ho

end

/-- A change of variables that the level does not see. -/
theorem frame_vars {g : Storage → Storage}
    (h : ∀ s, (g s).part l = s.part l ∧ (g s).time = s.time ∧ (g s).mem = s.mem ∧
      (g s).issued = s.issued ∧ (g s).bulks = s.bulks) :
    Within (DriverFrame l A P) (modify g : StorageM Unit) :=
  within_modify fun s => by
    obtain ⟨hk, ht, hm, hi, hb⟩ := h s
    exact ⟨hk, ht.ge, fun a _ => congrFun hm a, exists_append_self hi, exists_append_self hb⟩

theorem ehci_vars {g : Storage → Storage}
    (h : ∀ s, (g s).part l = s.part l ∧ (g s).time = s.time ∧ (g s).mem = s.mem ∧
      (g s).issued = s.issued ∧ (g s).bulks = s.bulks) :
    Within (EhciFrame l A k e) (modify g : StorageM Unit) :=
  (frame_vars h).mono fun _ _ hst _ => hst

/-! ### Addresses -/

theorem own_dma {a : ℕ} (h : 0x30050000 ≤ a) (h' : a < 0x30057000) : Own a := Or.inl ⟨h, h'⟩

theorem own_window {i : ℕ} (he : InWindow e) (hi : i < 128) : Own (e + i) := by
  obtain ⟨h, h'⟩ := he
  exact Or.inr (Or.inr ⟨by omega, by omega⟩)

/-- The stores into the DMA area. -/
theorem own_range {a n : ℕ} (h : 0x30050000 ≤ a) (h' : a + n ≤ 0x30057000) (i : ℕ) (hi : i < n) :
    Own (a + i) := own_dma (by omega) (by omega)

/-- The stores into the schedule. -/
theorem wire_range {target k a n : ℕ} (h : 0x30050000 ≤ a) (h' : a + n ≤ 0x30051000) (i : ℕ)
    (hi : i < n) : Wire e target k (a + i) := Or.inl ⟨by simp only [dmaBase]; omega, by
  simp only [dmaBase]
  omega⟩

theorem wire_window {target k i : ℕ} (hi : i < 128) : Wire e target k (e + i) :=
  Or.inr (Or.inr (Or.inl ⟨by omega, by omega⟩))

theorem overwrite_of_not_mem {m bytes : ℕ → UInt8} {a n b : ℕ} (h : ∀ i < n, A (a + i))
    (hb : ¬A b) : overwrite m a n bytes b = m b := by
  refine if_neg fun hab => hb ?_
  have hi := h (b - a) (by omega)
  rwa [Nat.add_sub_cancel' hab.1] at hi

/-- `A` has room for the controller at `e`: its registers, which are nowhere near the
memory of the driver, and this memory. -/
structure DriverRoom (e : ℕ) (A : ℕ → Prop) : Prop where
  far : e + 128 ≤ 0x30000000 ∨ 0x80000000 ≤ e
  dma : ∀ a, 0x30050000 ≤ a → a < 0x30057000 → A a
  report : ∀ a, bootReport ≤ a → a < bootReport + 32 → A a
  registers : ∀ i < 128, A (e + i)

theorem InWindow.high (he : InWindow e) : 0x80000000 ≤ e := by
  have h := he.1
  simp only [storageMmioBase] at h
  omega

theorem InWindow.room (he : InWindow e) : DriverRoom e Own :=
  ⟨Or.inr he.high, fun _ => own_dma, fun _ h h' => Or.inr (Or.inl ⟨h, h'⟩), fun _ => own_window he⟩

/-- What a transfer writes, where its buffer is the driver's. -/
theorem DriverRoom.wire {target n : ℕ} (he : DriverRoom e A) (h : 0x30050000 ≤ target)
    (h' : target + n ≤ 0x30057000) (a : ℕ) (ha : Wire e target n a) : A a := by
  rcases ha with ⟨h1, h2⟩ | ha | ha | ha
  · simp only [dmaBase] at h1 h2
    exact he.dma a h1 (by omega)
  · exact he.report a ha.1 ha.2
  · have hi := he.registers (a - e) (by omega)
    rwa [Nat.add_sub_cancel' ha.1] at hi
  · exact he.dma a (by omega) (by omega)

/-- The stores into the DMA area. -/
theorem DriverRoom.range {a n : ℕ} (he : DriverRoom e A) (h : 0x30050000 ≤ a)
    (h' : a + n ≤ 0x30057000) (i : ℕ) (hi : i < n) : A (a + i) := he.dma _ (by omega) (by omega)

/-! ### Memory and hardware -/

/-- A change of memory. -/
theorem quiet_mem {g : Storage → Storage}
    (h : ∀ s, (g s).part .wire = s.part .wire ∧ s.time ≤ (g s).time ∧ (g s).issued = s.issued ∧
      (g s).bulks = s.bulks) (hm : ∀ s a, ¬A a → (g s).mem a = s.mem a) :
    Within (Quiet A) (modify g : StorageM Unit) :=
  within_modify fun s => by
    obtain ⟨hk, ht, hi, hb⟩ := h s
    exact ⟨hk, ht, hm s, exists_append_self hi, exists_append_self hb⟩

theorem quiet_storeBytes {a n : ℕ} (bytes : ℕ → UInt8) (h : ∀ i < n, A (a + i)) :
    Within (Quiet A) (storeBytes a n bytes) :=
  quiet_mem (fun _ => ⟨rfl, le_rfl, rfl, rfl⟩) fun s _ hb => overwrite_of_not_mem (m := s.mem) h hb

theorem quiet_store32 {a : ℕ} (value : ℕ) (h : ∀ i < 4, A (a + i)) :
    Within (Quiet A) (store32 a value) := quiet_storeBytes _ h

theorem quiet_ask (r : StorageReg) : Within (Quiet A) (ask r) :=
  within_modifyGet fun _ =>
    ⟨rfl, Nat.le_succ _, fun _ _ => rfl, exists_append_self rfl, exists_append_self rfl⟩

theorem frame_issue {o : StorageOut} (h : P o) : Within (DriverFrame l A P) (issue o) :=
  within_modify fun _ =>
    ⟨by cases l <;> rfl, le_rfl, fun _ _ => rfl, ⟨[o], rfl, by simpa using h⟩, exists_append_self rfl⟩

theorem quiet_loadByte (a : ℕ) : Within (Quiet A) (loadByte a) :=
  within_bind within_get fun _ => within_pure _

theorem quiet_loadWord (a : ℕ) : Within (Quiet A) (loadWord a) :=
  within_bind within_get fun _ => within_pure _

/-- A store into the report, for a routine that may write there. -/
theorem quiet_report (hA : ∀ a, bootReport ≤ a → a < bootReport + 32 → A a) {index : ℕ} (value : ℕ)
    (h : index < 8) : Within (Quiet A) (report index value) :=
  quiet_storeBytes _ fun i hi => hA _ (by omega) (by omega)

theorem own_report (a : ℕ) (h : bootReport ≤ a) (h' : a < bootReport + 32) : Own a :=
  Or.inr (Or.inl ⟨h, h'⟩)

theorem wire_report {target n : ℕ} (a : ℕ) (h : bootReport ≤ a) (h' : a < bootReport + 32) :
    Wire e target n a := Or.inr (Or.inl ⟨h, h'⟩)

theorem quiet_controllerRuns {target n : ℕ} : Within (Quiet (Wire e target n)) controllerRuns :=
  quiet_mem (fun _ => ⟨rfl, Nat.le_succ _, rfl, rfl⟩) fun _ _ ha => if_neg fun hd => ha (Or.inl hd)

/-- The controller stays in the buffer that it was given. -/
theorem quiet_controllerDelivers (target n index : ℕ) :
    Within (Quiet (Wire e target n)) (controllerDelivers target n index) := by
  refine quiet_mem (fun _ => ⟨rfl, Nat.le_succ _, rfl, rfl⟩) fun s a ha => ?_
  have hwire : ∀ i < n - remaining s.mem index, Wire e target n (target + i) := fun i hi =>
    Or.inr (Or.inr (Or.inr ⟨by omega, by omega⟩))
  exact overwrite_of_not_mem (m := s.mem) hwire ha

theorem quiet_dmaWord {target n : ℕ} (a : ℕ) : Within (Quiet (Wire e target n)) (dmaWord a) :=
  within_bind quiet_controllerRuns fun _ => quiet_loadWord a

theorem within_upTo {T : Storage → Storage → Prop} [IsPreorder Storage T] {n : ℕ}
    {body : ℕ → StorageM Unit} (h : ∀ i < n, Within T (body i)) : Within T (upTo n body) := by
  induction n with
  | zero => exact within_pure _
  | succ n ih => exact within_bind (ih fun i hi => h i (by omega)) fun _ => h n (by omega)

theorem quiet_tsc : Within (Quiet A) tsc := quiet_ask _

theorem quiet_delay (ms : ℕ) : Within (Quiet A) (delay ms) :=
  within_bind quiet_tsc fun _ => within_pure _

/-- Writes to the speaker gate and the timer. -/
def TimerOut : StorageOut → Prop
  | .port p _ => p = 0x61 ∨ p = 0x43 ∨ p = 0x42
  | _ => False

theorem frame_out8 {port value : ℕ} (h : P (.port port (value % 2 ^ 8))) :
    Within (DriverFrame l A P) (out8 port value) := frame_issue h

theorem frame_timerResult (original last ticks : ℕ) :
    Within (DriverFrame .driver Own TimerOut) (timerResult original last ticks) := by
  refine within_bind (frame_vars fun _ => ⟨rfl, rfl, rfl, rfl, rfl⟩) fun _ => ?_
  refine within_bind (frame_out8 (Or.inl rfl)) fun _ => ?_
  exact within_ite (fun _ => within_none) fun _ => within_pure _

theorem frame_calibrateTimer : Within (DriverFrame .driver Own TimerOut) calibrateTimer := by
  refine within_bind (quiet (quiet_ask _)) fun original => ?_
  refine within_bind (frame_out8 (Or.inl rfl)) fun _ => ?_
  refine within_bind (frame_out8 (Or.inr (Or.inl rfl))) fun _ => ?_
  refine within_bind (frame_out8 (Or.inr (Or.inr rfl))) fun _ => ?_
  refine within_bind (frame_out8 (Or.inr (Or.inr rfl))) fun _ => ?_
  refine within_bind (quiet quiet_tsc) fun start => ?_
  refine within_bind (frame_out8 (Or.inl rfl)) fun _ => ?_
  refine within_bind (quiet (quiet_ask _)) fun last => ?_
  refine within_bind (quiet quiet_tsc) fun stop => ?_
  exact frame_timerResult _ _ _

/-! ### The controller -/

theorem frame_ehciRead {index : ℕ} (h : index < 32) : Within (EhciFrame l A k e) (ehciRead index) := by
  intro s
  refine ensures_get_bind fun a t hr hs => ?_
  have hload : Within (DriverFrame l A (EhciOut k e)) (mmioRead (s.ehci + 4 * index)) :=
    within_bind (frame_issue ⟨index, h, by rw [hs]⟩) fun _ => quiet (quiet_ask _)
  exact hload s a t hr

/-- A store to a register stays in the alias. -/
theorem frame_ehciWrite (hA : ∀ i < 128, A (e + i)) {index : ℕ} (value : ℕ) (h : index < 32) :
    Within (EhciFrame l A k e) (ehciWrite index value) := by
  intro s
  refine ensures_get_bind fun a t hr hs => ?_
  have hown : ∀ i < 4, A (s.ehci + 4 * index + i) := by
    intro i hi
    rw [hs, Nat.add_assoc]
    exact hA _ (by omega)
  have hstore : Within (DriverFrame l A (EhciOut k e)) (do
      issue (.mmio (s.ehci + 4 * index) value)
      store32 (s.ehci + 4 * index) value) :=
    within_bind (frame_issue ⟨index, h, by rw [hs]⟩) fun _ => quiet (quiet_storeBytes _ hown)
  exact hstore s a t hr

theorem frame_waitRegister {offset : ℕ} (mask value : ℕ) (h : offset < 128) :
    Within (EhciFrame l A k e) (waitRegister offset mask value) :=
  within_bind (frame_ehciRead (by omega)) fun _ => within_pure _

theorem quiet_makeQtd {d n index : ℕ} (pid toggle buffer length next : ℕ) (h : index < 3) :
    Within (Quiet (Wire e d n)) (makeQtd index pid toggle buffer length next) := by
  have hd : descriptor index = 0x30050100 + 64 * index := rfl
  refine within_bind (quiet_storeBytes _ (wire_range (by omega) (by omega))) fun _ => ?_
  refine within_bind (quiet_store32 _ (wire_range (by omega) (by omega))) fun _ => ?_
  refine within_bind (quiet_store32 _ (wire_range (by omega) (by omega))) fun _ => ?_
  refine within_bind (quiet_store32 _ (wire_range (by omega) (by omega))) fun _ => ?_
  refine within_bind (quiet_store32 _ (wire_range (by omega) (by omega))) fun _ => ?_
  exact within_upTo fun i hi => quiet_store32 _ (wire_range (by omega) (by omega))

theorem frame_transferPoll {target n : ℕ} (last : ℕ) :
    Within (EhciFrame .wire (Wire e target n) k e) (transferPoll last) := by
  refine within_bind (frame_ehciRead (by decide)) fun _ => ?_
  refine within_ite (fun _ => within_pure _) fun _ => ?_
  refine within_bind (quiet_ehci (quiet_dmaWord _)) fun _ => ?_
  refine within_ite (fun _ => within_pure _) fun _ => ?_
  refine within_bind (quiet_ehci (quiet_dmaWord _)) fun _ => ?_
  refine within_ite (fun _ => within_pure _) fun _ => ?_
  exact within_bind (quiet_ehci (quiet_dmaWord _)) fun _ => within_pure _

theorem frame_transferFailed {target n : ℕ} :
    Within (EhciFrame .transfer (Wire e target n) k e) transferFailed := by
  refine within_bind (frame_ehciRead (by decide)) fun _ => ?_
  refine within_bind (quiet_ehci (quiet_report wire_report _ (by decide))) fun _ => ?_
  refine within_bind (quiet_ehci (quiet_loadWord _)) fun _ => ?_
  refine within_bind (quiet_ehci (quiet_report wire_report _ (by decide))) fun _ => ?_
  refine within_bind (ehci_vars fun _ => ⟨rfl, rfl, rfl, rfl, rfl⟩) fun _ => ?_
  exact within_pure _

theorem quiet_queueHead {target n : ℕ} (endpoint packetSize : ℕ) :
    Within (Quiet (Wire e target n)) (queueHead endpoint packetSize) := by
  refine within_bind (quiet_storeBytes _ (wire_range (by decide) (by decide))) fun _ => ?_
  refine within_bind (quiet_store32 _ (wire_range (by decide) (by decide))) fun _ => ?_
  refine within_bind within_get fun _ => ?_
  refine within_bind (quiet_store32 _ (wire_range (by decide) (by decide))) fun _ => ?_
  refine within_bind (quiet_store32 _ (wire_range (by decide) (by decide))) fun _ => ?_
  refine within_bind (quiet_store32 _ (wire_range (by decide) (by decide))) fun _ => ?_
  exact quiet_store32 _ (wire_range (by decide) (by decide))

theorem frame_transferRun (endpoint packetSize last target n : ℕ) :
    Within (EhciFrame .wire (Wire e target n) k e) (transferRun endpoint packetSize last) := by
  have hA : ∀ i < 128, Wire e target n (e + i) := fun i hi => wire_window hi
  refine within_bind (quiet_ehci (quiet_queueHead _ _)) fun _ => ?_
  refine within_bind (frame_ehciWrite hA _ (by decide)) fun _ => ?_
  refine within_bind (frame_ehciWrite hA _ (by decide)) fun _ => ?_
  refine within_bind (quiet_ehci quiet_tsc) fun _ => ?_
  refine within_bind (frame_transferPoll last) fun success => ?_
  refine within_bind (frame_ehciWrite hA _ (by decide)) fun _ => ?_
  exact within_bind (quiet_ehci quiet_controllerRuns) fun _ => within_pure _

/-- A transfer keeps to the wire. -/
theorem frame_transfer (endpoint packetSize last target n index : ℕ) :
    Within (EhciFrame .transfer (Wire e target n) k e)
      (transfer endpoint packetSize last target n index) := by
  refine within_bind within_get fun s => within_ite (fun _ => within_pure _) fun _ => ?_
  refine within_bind (EhciFrame.level (frame_transferRun _ _ _ _ _)) fun success => ?_
  refine within_bind (quiet_ehci (quiet_controllerDelivers _ _ _)) fun _ => ?_
  refine within_bind (frame_waitRegister _ _ (by decide)) fun stopped => ?_
  refine within_ite (fun _ => within_none) fun _ => ?_
  exact within_ite (fun _ => within_pure _) fun _ => frame_transferFailed

theorem quiet_controlStage {target n : ℕ} (type length : ℕ) :
    Within (Quiet (Wire e target n)) (controlStage type length) := by
  refine within_ite (fun _ => within_pure _) fun _ => ?_
  refine within_bind (quiet_makeQtd _ _ _ _ _ (by decide)) fun _ => ?_
  exact quiet_store32 _ (wire_range (by decide) (by decide))

/-- The bytes that a control request brings in. -/
def controlIncoming (type length : ℕ) : ℕ := if type &&& 0x80 ≠ 0 then length else 0

/-- A control request keeps to the wire and to the buffer of its SETUP packet. -/
theorem frame_controlWire (type request value index length : ℕ)
    (hA : ∀ a, Wire e controlBuffer (controlIncoming type length) a → A a)
    (hS : ∀ i < 8, A (setupBuffer + i)) :
    Within (EhciFrame .transfer A true e) (control type request value index length) := by
  have hsetup : Within (DriverFrame .transfer A (EhciOut true e))
      (issue (.setup type request value index length)) := frame_issue rfl
  refine within_bind (hsetup.mono fun _ _ hst _ => hst) fun _ => ?_
  refine within_bind (quiet_ehci (quiet_storeBytes _ hS)) fun _ => ?_
  refine within_bind (quiet_ehci (Quiet.of_subset (quiet_makeQtd _ _ _ _ _ (by decide)) hA)) fun _ => ?_
  refine within_bind (quiet_ehci (Quiet.of_subset (quiet_controlStage _ _) hA)) fun _ => ?_
  refine within_bind (quiet_ehci (Quiet.of_subset
    (quiet_makeQtd _ _ _ _ _ (by split_ifs <;> decide)) hA)) fun _ => ?_
  refine within_bind ((frame_transfer _ _ _ _ _ _).mono fun _ _ hst hs =>
    (hst hs).mono hA fun _ ho => ho) fun done => ?_
  refine within_ite (fun _ => within_pure _) fun _ => ?_
  exact within_bind within_get fun _ => within_pure _

section

variable (he : DriverRoom e A)

include he

theorem frame_stopController : Within (EhciFrame l A k e) stopController := by
  refine within_bind within_get fun s => within_ite (fun _ => within_pure _) fun _ => ?_
  refine within_bind (frame_ehciWrite he.registers _ (by decide)) fun _ => ?_
  refine within_bind (frame_waitRegister _ _ (by decide)) fun stopped => ?_
  exact within_ite (fun _ => within_none) fun _ => frame_ehciWrite he.registers _ (by decide)

theorem frame_control (type request value index : ℕ) {length : ℕ} (h : length ≤ 1024) :
    Within (EhciFrame .driver A true e) (control type request value index length) := by
  have hc : controlBuffer = 0x30051000 := rfl
  have hn : controlBuffer + controlIncoming type length ≤ 0x30057000 := by
    unfold controlIncoming
    split_ifs <;> omega
  have hS : ∀ i < 8, A (setupBuffer + i) := he.range (by decide) (by decide)
  exact EhciFrame.up (frame_controlWire _ _ _ _ _ (he.wire (by decide) hn) hS) fun _ ha => ha

theorem frame_enumerateConfigurations (n index : ℕ) :
    Within (EhciFrame .driver A true e) (enumerateConfigurations n index) := by
  induction n generalizing index with
  | zero => exact within_pure _
  | succ n ih =>
    refine within_bind (frame_control he _ _ _ _ (by decide)) fun _ => ?_
    refine within_ite (fun _ => within_pure _) fun _ => ?_
    refine within_bind (quiet_ehci (quiet_loadByte _)) fun low => ?_
    refine within_bind (quiet_ehci (quiet_loadByte _)) fun high => ?_
    refine within_ite (fun _ => ih _) fun hsize => ?_
    refine within_bind (frame_control he _ _ _ _ (by omega)) fun _ => ?_
    refine within_ite (fun _ => within_pure _) fun _ => within_bind within_get fun s => ?_
    dsimp only
    cases bootParseUsbConfiguration (fun i => (s.mem (controlBuffer + i)).toNat) (low ||| high <<< 8)
    with
    | none => exact ih _
    | some parsed =>
      refine within_bind (ehci_vars fun _ => ⟨rfl, rfl, rfl, rfl, rfl⟩) fun _ => ?_
      refine within_bind (frame_control he _ _ _ _ (by decide)) fun _ => ?_
      refine within_ite (fun _ => within_pure _) fun _ => ?_
      exact within_bind (quiet_ehci (quiet_delay _)) fun _ => within_pure _

theorem frame_enumerateStorage : Within (EhciFrame .driver A true e) enumerateStorage := by
  refine within_bind (quiet_ehci (quiet_report he.report _ (by decide))) fun _ => ?_
  refine within_bind (ehci_vars fun _ => ⟨rfl, rfl, rfl, rfl, rfl⟩) fun _ => ?_
  refine within_bind (frame_control he _ _ _ _ (by decide)) fun _ => ?_
  refine within_ite (fun _ => within_pure _) fun _ => ?_
  refine within_bind (quiet_ehci (quiet_loadByte _)) fun _ => ?_
  refine within_ite (fun _ => within_pure _) fun _ => ?_
  refine within_bind (quiet_ehci (quiet_loadByte _)) fun _ => ?_
  refine within_bind (quiet_ehci (quiet_loadByte _)) fun _ => ?_
  refine within_bind (quiet_ehci (quiet_loadByte _)) fun _ => ?_
  refine within_ite (fun _ => within_pure _) fun _ => ?_
  refine within_bind (frame_control he _ _ _ _ (by decide)) fun _ => ?_
  refine within_ite (fun _ => within_pure _) fun _ => ?_
  refine within_bind (ehci_vars fun _ => ⟨rfl, rfl, rfl, rfl, rfl⟩) fun _ => ?_
  refine within_bind (quiet_ehci (quiet_delay _)) fun _ => ?_
  refine within_bind (quiet_ehci (quiet_report he.report _ (by decide))) fun _ => ?_
  exact frame_enumerateConfigurations he _ _

end

/-! ### ATA -/

/-- Writes to the ports of the channel at `p`, with `command` as the only
command byte. -/
def AtaOut (p command : ℕ) : StorageOut → Prop
  | .port q v => ∃ k, q = p + k ∧ (2 ≤ k ∧ k ≤ 6 ∨ k = 0x206 ∨ k = 7 ∧ v = command)
  | _ => False

theorem frame_ataWait (mask wanted : ℕ) : Within (DriverFrame l A P) (ataWait mask wanted) :=
  within_bind within_get fun _ => within_bind (quiet (quiet_ask _)) fun _ => within_pure _

theorem frame_ataSettle : Within (DriverFrame l A P) ataSettle :=
  within_upTo fun _ _ =>
    within_bind within_get fun _ => within_bind (quiet (quiet_ask _)) fun _ => within_pure _

theorem frame_inData : Within (DriverFrame .ata A P) inData := by
  refine within_bind within_get fun _ => within_bind (quiet (quiet_ask _)) fun _ => ?_
  exact within_bind (frame_vars fun _ => ⟨rfl, rfl, rfl, rfl, rfl⟩) fun _ => within_pure _

theorem frame_ataSector {destination : ℕ} (h : 0x30050000 ≤ destination)
    (h' : destination + 512 ≤ 0x30057000) :
    Within (DriverFrame .ata Own P) (ataSector destination) :=
  within_upTo fun i hi => within_bind frame_inData fun _ =>
    quiet (quiet_storeBytes _ (own_range (by omega) (by omega)))

theorem frame_ataSectors {n sector : ℕ} (h : sector + n ≤ 32) :
    Within (DriverFrame .ata Own P) (ataSectors n sector) := by
  have ht : transferBuffer = 0x30052000 := rfl
  induction n generalizing sector with
  | zero => exact within_pure _
  | succ n ih =>
    refine within_bind frame_ataSettle fun _ => within_bind (frame_ataWait _ _) fun _ => ?_
    refine within_ite (fun _ => within_pure _) fun _ => ?_
    exact within_bind (frame_ataSector (by omega) (by omega)) fun _ => ih (by omega)

section

variable {p command : ℕ}

/-- A write to a port of the channel that is not its command register. -/
theorem frame_ataOut {k : ℕ} (value : ℕ) (h : 2 ≤ k ∧ k ≤ 6 ∨ k = 0x206) :
    Within (DriverFrame l A (AtaOut p command)) (out8 (p + k) value) := by
  refine frame_out8 ⟨k, rfl, ?_⟩
  rcases h with h | h
  · exact Or.inl h
  · exact Or.inr (Or.inl h)

theorem frame_ataCommand (h : command < 2 ^ 8) :
    Within (DriverFrame l A (AtaOut p command)) (out8 (p + 7) command) :=
  frame_out8 ⟨7, rfl, Or.inr (Or.inr ⟨rfl, Nat.mod_eq_of_lt h⟩)⟩

end

/-- **A read from an ATA disk** writes only memory of the driver and uses only
the ports of its channel, with the command READ SECTORS. -/
theorem frame_ataRead (s : Storage) (lba blocks : ℕ) :
    Ensures (ataRead lba blocks) s fun _ t => DriverFrame .ata Own (AtaOut s.ataPort 0x20) s t := by
  refine ensures_ite (fun _ => ensures_pure (refl_of _ s)) fun hb => ensures_get_bind ?_
  refine Within.ensures (T := DriverFrame .ata Own (AtaOut s.ataPort 0x20)) ?_ s
  refine within_bind (frame_ataOut _ (Or.inr rfl)) fun _ => ?_
  refine within_bind (frame_ataOut _ (Or.inl (by decide))) fun _ => ?_
  refine within_bind frame_ataSettle fun _ => within_bind (frame_ataWait _ _) fun _ => ?_
  refine within_ite (fun _ => within_pure _) fun _ => ?_
  refine within_bind (frame_ataOut _ (Or.inl (by decide))) fun _ => ?_
  refine within_bind (frame_ataOut _ (Or.inl (by decide))) fun _ => ?_
  refine within_bind (frame_ataOut _ (Or.inl (by decide))) fun _ => ?_
  refine within_bind (frame_ataOut _ (Or.inl (by decide))) fun _ => ?_
  refine within_bind (frame_ataCommand (by decide)) fun _ => ?_
  have hn : 0 + blocks ≤ 32 := by
    simp only [blocksPerRead] at hb
    omega
  refine within_bind (frame_ataSectors hn) fun _ => within_ite (fun _ => within_pure _) fun _ => ?_
  exact within_bind frame_ataSettle fun _ => frame_ataWait _ _

theorem frame_identifyAta (s : Storage) :
    Ensures identifyAta s fun _ t => DriverFrame .ata Own (AtaOut s.ataPort 0xEC) s t := by
  refine ensures_get_bind (Within.ensures (T := DriverFrame .ata Own (AtaOut s.ataPort 0xEC)) ?_ s)
  refine within_bind (frame_ataOut _ (Or.inr rfl)) fun _ => ?_
  refine within_bind (frame_ataOut _ (Or.inl (by decide))) fun _ => ?_
  refine within_bind frame_ataSettle fun _ => within_bind (quiet (quiet_ask _)) fun status => ?_
  refine within_ite (fun _ => within_pure _) fun _ => ?_
  refine within_bind (frame_ataOut _ (Or.inl (by decide))) fun _ => ?_
  refine within_bind (frame_ataOut _ (Or.inl (by decide))) fun _ => ?_
  refine within_bind (frame_ataOut _ (Or.inl (by decide))) fun _ => ?_
  refine within_bind (frame_ataOut _ (Or.inl (by decide))) fun _ => ?_
  refine within_bind (frame_ataCommand (by decide)) fun _ => ?_
  refine within_bind frame_ataSettle fun _ => within_bind (frame_ataWait _ _) fun _ => ?_
  refine within_ite (fun _ => within_pure _) fun _ => ?_
  refine within_bind (frame_ataSector (by decide) (by decide)) fun _ => ?_
  exact within_bind frame_ataSettle fun _ => frame_ataWait _ _

end VirtualKernel
