/-
The Bulk-Only Transport.

`transfer_spec` and `bulk_spec` say what one transfer and one bulk stage leave
behind, for every behaviour of the controller and the device, and `scsi_spec`
what one command does.  From these follows **`bulk_only_transport`**: over any
sequence of commands a command succeeds only after its command block, its data
and its status block moved completely, anything else kills the transport, and
while it is alive the data toggles count the packets.
-/
import VirtualKernel.StorageFrame
import Mathlib.Tactic.IntervalCases

namespace VirtualKernel

open Lib

variable {e : ℕ} {s t u : Storage}

/-! ### One transfer -/

/-- The descriptors are not in the buffer of a transfer. -/
theorem remaining_overwrite {m bytes : ℕ → UInt8} {target n index : ℕ} (h : 0x30051000 ≤ target)
    (hi : index < 3) : remaining (overwrite m target n bytes) index = remaining m index := by
  have hd : descriptor index = 0x30050100 + 64 * index := rfl
  rw [remaining, word_overwrite (by omega), remaining]

/-- What a transfer leaves behind: a failure kills the transport, a success
keeps it and has put the bytes that moved into the buffer. -/
structure TransferPost (e target n index : ℕ) (s : Storage) (r : Bool) (t : Storage) : Prop where
  frame : DriverFrame .transfer (Wire e target n) (EhciOut false e) s t
  dead : s.transportDead = true → r = false ∧ t = s
  failed : r = false → t.transportDead = true
  alive : r = true → s.transportDead = false ∧ t.transportDead = false
  arrived : r = true → ∃ τ, s.time ≤ τ ∧
    ∀ i < n - remaining t.mem index, t.mem (target + i) = s.incoming τ i

theorem transferFailed_dead (s : Storage) :
    Ensures transferFailed s fun r t => r = false ∧ t.transportDead = true := by
  refine ensures_bind (Q := fun _ _ => True) (fun _ _ _ => trivial) fun _ _ _ => ?_
  refine ensures_bind (Q := fun _ _ => True) (fun _ _ _ => trivial) fun _ _ _ => ?_
  refine ensures_bind (Q := fun _ _ => True) (fun _ _ _ => trivial) fun _ _ _ => ?_
  refine ensures_bind (Q := fun _ _ => True) (fun _ _ _ => trivial) fun _ _ _ => ?_
  exact ensures_modify_bind (ensures_pure ⟨rfl, rfl⟩)

theorem transfer_spec (hs : s.ehci = e) (endpoint packetSize last : ℕ) {target index : ℕ} (n : ℕ)
    (ht : 0x30051000 ≤ target) (hi : index < 3) :
    Ensures (transfer endpoint packetSize last target n index) s (TransferPost e target n index s) := by
  have hframe : Ensures (transfer endpoint packetSize last target n index) s fun _ t =>
      DriverFrame .transfer (Wire e target n) (EhciOut false e) s t :=
    fun r t hr => frame_transfer endpoint packetSize last target n index s r t hr hs
  have hrest : Ensures (transfer endpoint packetSize last target n index) s fun r t =>
      (s.transportDead = true → r = false ∧ t = s) ∧ (r = false → t.transportDead = true) ∧
      (r = true → s.transportDead = false ∧ t.transportDead = false) ∧
      (r = true → ∃ τ, s.time ≤ τ ∧
        ∀ i < n - remaining t.mem index, t.mem (target + i) = s.incoming τ i) := by
    refine ensures_get_bind (ensures_ite (fun hd => ensures_pure ?_) fun hd => ?_)
    · exact ⟨fun _ => ⟨rfl, rfl⟩, fun _ => hd, fun h => by simp at h, fun h => by simp at h⟩
    have halive : s.transportDead = false := by simpa using hd
    refine ensures_bind ((frame_transferRun (k := false) (e := e) endpoint packetSize last target n).ensures s)
      fun success v hv => ?_
    have hv := hv hs
    have hdv : v.transportDead = false :=
      (eq_of_part hv.part Storage.transportDead fun _ => rfl).trans halive
    have hiv : v.incoming = s.incoming := eq_of_part hv.part Storage.incoming fun _ => rfl
    -- the controller fills the buffer, and the rest of the transfer leaves it alone
    refine ensures_modify_bind ?_
    refine ensures_bind ((frame_waitRegister (k := false) (l := .wire) (A := fun _ => False) (e := e) _ _
      (by decide)).ensures _) fun stopped w hw => ?_
    have hw := hw ((ehci_eq_of_part hv.part).trans hs)
    have hmem : w.mem = overwrite v.mem target (n - remaining v.mem index) (v.incoming v.time) :=
      funext fun a => hw.mem a id
    have hdw : w.transportDead = false :=
      (eq_of_part hw.part Storage.transportDead fun _ => rfl).trans hdv
    refine ensures_ite (fun _ => ensures_none) fun _ => ensures_ite (fun _ => ensures_pure ?_) fun _ => ?_
    · refine ⟨fun h => by simp [halive] at h, fun h => by simp at h, fun _ => ⟨halive, hdw⟩, fun _ => ?_⟩
      refine ⟨v.time, hv.time, fun i hin => ?_⟩
      rw [hmem, remaining_overwrite ht hi] at hin
      rw [hmem, ← hiv]
      exact overwrite_of_lt hin
    · refine (transferFailed_dead w).mono ?_
      rintro r x ⟨rfl, hx⟩
      exact ⟨fun h => by simp [halive] at h, fun _ => hx, fun h => by simp at h, fun h => by simp at h⟩
  refine (hframe.and hrest).mono ?_
  rintro r t ⟨hf, h1, h2, h3, h4⟩
  exact ⟨hf, h1, h2, h3, h4⟩

/-! ### One stage -/

/-- The packets of a stage of `length` bytes. -/
def packets (length : ℕ) : ℕ := (length + 511) / 512

/-- A stage that moved completely. -/
def fullTransfer (input : Bool) (buffer length : ℕ) (m : ℕ → UInt8) : BulkTransfer :=
  ⟨input, buffer, length, length, fun i => m (buffer + i)⟩

/-- The bytes that the stage brings in. -/
def incomingSize (input : Bool) (length : ℕ) : ℕ := if input then length else 0

/-- The variables of a command that no stage changes. -/
def Storage.pipe (s : Storage) : ℕ × UsbStorageInterface × (ℕ → ℕ → UInt8) × ℕ :=
  (s.usbTag, s.usbInterface, s.incoming, s.ehci)

/-- What a bulk stage leaves behind. -/
structure BulkPost (e : ℕ) (input : Bool) (buffer length : ℕ) (s : Storage) (r : Bool) (t : Storage) :
    Prop where
  pipe : t.pipe = s.pipe
  time : s.time ≤ t.time
  mem : ∀ a, ¬Wire e buffer (incomingSize input length) a → t.mem a = s.mem a
  dead : s.transportDead = true → r = false
  failed : r = false → t.transportDead = true
  alive : r = true → s.transportDead = false ∧ t.transportDead = false
  record : r = true → t.bulks = s.bulks ++ [fullTransfer input buffer length t.mem]
  toggles : r = true →
    t.toggleIn = (if input then s.toggleIn ^^^ (packets length &&& 1) else s.toggleIn) ∧
    t.toggleOut = (if input then s.toggleOut else s.toggleOut ^^^ (packets length &&& 1))
  arrived : r = true → input = true →
    ∃ τ, s.time ≤ τ ∧ ∀ i < length, t.mem (buffer + i) = s.incoming τ i

/-- The end of a stage: the record and the toggle. -/
theorem bulkEnd_spec (input : Bool) (buffer length : ℕ) (s : Storage) :
    Ensures (do
      recordBulk input buffer length
      bulkDone input length) s fun r t =>
      t.pipe = s.pipe ∧ t.time = s.time ∧ t.mem = s.mem ∧
      (r = false → t.transportDead = true) ∧
      (r = true → remaining s.mem 0 = 0 ∧ t.transportDead = s.transportDead ∧
        t.bulks = s.bulks ++ [fullTransfer input buffer length s.mem] ∧
        t.toggleIn = (if input then s.toggleIn ^^^ (packets length &&& 1) else s.toggleIn) ∧
        t.toggleOut = (if input then s.toggleOut else s.toggleOut ^^^ (packets length &&& 1))) := by
  refine ensures_modify_bind (ensures_get_bind (ensures_ite (fun _ => ?_) fun hr => ?_))
  · refine ensures_modify_bind (ensures_pure ⟨rfl, rfl, rfl, fun _ => rfl, fun h => ?_⟩)
    simp at h
  have h0 : remaining s.mem 0 = 0 := not_not.mp hr
  refine ensures_modify_bind (ensures_pure ?_)
  have hb : s.bulks ++ [⟨input, buffer, length, length - remaining s.mem 0,
      fun i => s.mem (buffer + i)⟩] = s.bulks ++ [fullTransfer input buffer length s.mem] := by
    rw [h0]
    rfl
  cases input with
  | true => exact ⟨rfl, rfl, rfl, fun h => by simp at h, fun _ => ⟨h0, rfl, hb, rfl, rfl⟩⟩
  | false => exact ⟨rfl, rfl, rfl, fun h => by simp at h, fun _ => ⟨h0, rfl, hb, rfl, rfl⟩⟩

theorem pipe_eq_of_part {l : Level} (hl : l ≠ .driver) (h : t.part l = s.part l) : t.pipe = s.pipe := by
  cases l with
  | wire => exact eq_of_part h Storage.pipe fun _ => rfl
  | ata => exact eq_of_part h Storage.pipe fun _ => rfl
  | transfer => exact eq_of_part h Storage.pipe fun _ => rfl
  | driver => exact absurd rfl hl

/-- What `issueBlock` does: it notes the opcode of a block that goes out. -/
theorem issueBlock_spec (input : Bool) (buffer : ℕ) (s : Storage) :
    Ensures (issueBlock input buffer) s fun _ t =>
      ∃ new, t = { s with issued := s.issued ++ new } ∧ (s.transportDead = true → new = []) ∧
        ∀ o ∈ new, input = false ∧ o = .block (s.mem (buffer + 15)).toNat := by
  refine ensures_get_bind (ensures_ite (fun _ => ensures_pure ?_) fun h => ensures_modify ?_)
  · exact ⟨[], by simp, fun _ => rfl, by simp⟩
  · push Not at h
    refine ⟨[_], rfl, fun hd => absurd hd h.2, fun o ho => ?_⟩
    exact ⟨by simpa using h.1, List.mem_singleton.mp ho⟩

/-- **One bulk stage**, for every behaviour of the controller. -/
theorem bulk_spec (hs : s.ehci = e) (input : Bool) {buffer : ℕ} (length : ℕ)
    (hb : 0x30051000 ≤ buffer) :
    Ensures (bulk input buffer length) s (BulkPost e input buffer length s) := by
  refine ensures_get_bind (ensures_bind ((quiet_makeQtd (e := e) (d := buffer)
    (n := incomingSize input length) _ _ _ _ _ (by decide)).ensures s) fun _ v hv => ?_)
  have hve : v.ehci = e := (ehci_eq_of_part hv.part).trans hs
  have hvp : v.pipe = s.pipe := pipe_eq_of_part (by simp) hv.part
  refine ensures_bind (issueBlock_spec input buffer v) ?_
  rintro _ _ ⟨new, rfl, -, -⟩
  refine ensures_bind (transfer_spec (s := { v with issued := v.issued ++ new }) hve _ _ _ (incomingSize input length) hb (by decide))
    fun done w hw => ?_
  have hwp : w.pipe = s.pipe := (pipe_eq_of_part (by simp) hw.frame.part).trans hvp
  have hwt : s.time ≤ w.time := hv.time.trans hw.frame.time
  have hwm : ∀ a, ¬Wire e buffer (incomingSize input length) a → w.mem a = s.mem a :=
    fun a ha => (hw.frame.mem a ha).trans (hv.mem a ha)
  have hdv : v.transportDead = s.transportDead := eq_of_part hv.part Storage.transportDead fun _ => rfl
  refine ensures_ite (fun hdone => ensures_pure ?_) fun hdone => ?_
  · -- the transfer failed, or was not started
    exact ⟨hwp, hwt, hwm, fun _ => rfl, fun _ => hw.failed hdone, fun h => by simp at h,
      fun h => by simp at h, fun h => by simp at h, fun h => by simp at h⟩
  have hdone : done = true := by simpa using hdone
  obtain ⟨hd1, hd2⟩ := hw.alive hdone
  have hsame : ∀ {α : Type} (f : Storage → α), (∀ u : Storage, f (u.part .transfer) = f u) →
      f w = f s := fun f hf => eq_of_part (hw.frame.part.trans (part_of_wire (l := .transfer) hv.part)) f hf
  refine (bulkEnd_spec input buffer length w).mono ?_
  rintro r x ⟨h1, h2, h3, h4, h5⟩
  refine ⟨h1.trans hwp, h2 ▸ hwt, fun a ha => (congrFun h3 a).trans (hwm a ha), fun hd => ?_, h4,
    fun hr => ?_, fun hr => ?_, fun hr => ?_, fun hr hin => ?_⟩
  · rw [hdv, hd] at hd1
    simp at hd1
  · exact ⟨hdv ▸ hd1, (h5 hr).2.1.trans hd2⟩
  · rw [(h5 hr).2.2.1, h3, hsame Storage.bulks fun _ => rfl]
  · rw [(h5 hr).2.2.2.1, (h5 hr).2.2.2.2, hsame Storage.toggleIn fun _ => rfl,
      hsame Storage.toggleOut fun _ => rfl]
    exact ⟨rfl, rfl⟩
  · obtain ⟨τ, hτ, harr⟩ := hw.arrived hdone
    have hvi : v.incoming = s.incoming := eq_of_part hv.part Storage.incoming fun _ => rfl
    refine ⟨τ, hv.time.trans hτ, fun i hi => ?_⟩
    rw [h3, ← hvi]
    refine harr i ?_
    rw [(h5 hr).1, incomingSize, if_pos hin]
    exact hi

/-! ### One command -/

/-- A byte of a word. -/
def byteOf (value i : ℕ) : UInt8 := UInt8.ofNat (value >>> (8 * i))

/-- The command block of a command, byte by byte. -/
def cbwByte (tag length : ℕ) (command : List ℕ) (i : ℕ) : UInt8 :=
  if i < 4 then byteOf 0x43425355 i
  else if i < 8 then byteOf tag (i - 4)
  else if i < 12 then byteOf length (i - 8)
  else if i = 12 then 0x80
  else if i = 13 then 0
  else if i = 14 then UInt8.ofNat command.length
  else if i < 15 + command.length then UInt8.ofNat (command.getD (i - 15) 0)
  else 0

/-- Memory behind `putCbw`. -/
def cbwMemory (m : ℕ → UInt8) (tag length : ℕ) (command : List ℕ) : ℕ → UInt8 :=
  overwrite (overwrite (overwrite (overwrite (overwrite (overwrite (overwrite m
    cbwBuffer 31 fun _ => 0) cbwBuffer 4 (byteOf 0x43425355)) (cbwBuffer + 4) 4 (byteOf tag))
    (cbwBuffer + 8) 4 (byteOf length)) (cbwBuffer + 12) 1 fun i => UInt8.ofNat ([0x80].getD i 0))
    (cbwBuffer + 14) 1 fun i => UInt8.ofNat ([command.length].getD i 0))
    (cbwBuffer + 15) command.length fun i => UInt8.ofNat (command.getD i 0)

theorem putCbw_run (command : List ℕ) (length : ℕ) (s : Storage) :
    (putCbw command length).run s = some ((), { s with
      usbTag := add32 s.usbTag 1
      mem := cbwMemory s.mem (add32 s.usbTag 1) length command }) := rfl

theorem cbwMemory_byte (m : ℕ → UInt8) (tag length : ℕ) (command : List ℕ) {i : ℕ} (hi : i < 31) :
    cbwMemory m tag length command (cbwBuffer + i) = cbwByte tag length command i := by
  unfold cbwMemory
  generalize cbwBuffer = b
  have hsub : ∀ k, b + i - (b + k) = i - k := fun k => by omega
  unfold cbwByte
  split_ifs with h4 h8 h12 h12' h13 h14 h15
  · rw [overwrite_of_disjoint (by omega), overwrite_of_disjoint (by omega),
      overwrite_of_disjoint (by omega), overwrite_of_disjoint (by omega),
      overwrite_of_disjoint (by omega), overwrite_of_lt h4]
  · rw [overwrite_of_disjoint (by omega), overwrite_of_disjoint (by omega),
      overwrite_of_disjoint (by omega), overwrite_of_disjoint (by omega),
      overwrite_of_mem (by omega) (by omega), hsub]
  · rw [overwrite_of_disjoint (by omega), overwrite_of_disjoint (by omega),
      overwrite_of_disjoint (by omega), overwrite_of_mem (by omega) (by omega), hsub]
  · rw [overwrite_of_disjoint (by omega), overwrite_of_disjoint (by omega),
      overwrite_of_mem (by omega) (by omega), hsub, h12']
    rfl
  · rw [overwrite_of_disjoint (by omega), overwrite_of_disjoint (by omega),
      overwrite_of_disjoint (by omega), overwrite_of_disjoint (by omega),
      overwrite_of_disjoint (by omega), overwrite_of_disjoint (by omega), overwrite_of_lt hi]
  · rw [overwrite_of_disjoint (by omega), overwrite_of_mem (by omega) (by omega), hsub, h14]
    rfl
  · rw [overwrite_of_mem (by omega) (by omega), hsub]
  · rw [overwrite_of_disjoint (by omega), overwrite_of_disjoint (by omega),
      overwrite_of_disjoint (by omega), overwrite_of_disjoint (by omega),
      overwrite_of_disjoint (by omega), overwrite_of_disjoint (by omega), overwrite_of_lt hi]

/-- The packets that moved in one direction. -/
def packetCount (input : Bool) (l : List BulkTransfer) : ℕ :=
  ((l.filter fun b => b.input = input).map fun b => packets b.moved).sum

theorem packetCount_append (input : Bool) (l l' : List BulkTransfer) :
    packetCount input (l ++ l') = packetCount input l + packetCount input l' := by
  simp [packetCount]

/-- The stages `l` went well between two states. -/
structure Stages (s t : Storage) (l : List BulkTransfer) : Prop where
  bulks : t.bulks = s.bulks ++ l
  toggleIn : s.toggleIn < 2 → t.toggleIn = (s.toggleIn + packetCount true l) % 2
  toggleOut : s.toggleOut < 2 → t.toggleOut = (s.toggleOut + packetCount false l) % 2

theorem Stages.nil (h : t.bulks = s.bulks) (hi : t.toggleIn = s.toggleIn)
    (ho : t.toggleOut = s.toggleOut) : Stages s t [] := by
  refine ⟨by rw [h, List.append_nil], fun h2 => ?_, fun h2 => ?_⟩
  · rw [hi, packetCount, Nat.mod_eq_of_lt]
    · simp
    · simpa using h2
  · rw [ho, packetCount, Nat.mod_eq_of_lt]
    · simp
    · simpa using h2

theorem Stages.append {l l' : List BulkTransfer} (h : Stages s t l) (h' : Stages t u l') :
    Stages s u (l ++ l') := by
  refine ⟨by rw [h'.bulks, h.bulks, List.append_assoc], fun h2 => ?_, fun h2 => ?_⟩
  · have ht := h.toggleIn h2
    rw [h'.toggleIn (by omega), ht, packetCount_append]
    omega
  · have ht := h.toggleOut h2
    rw [h'.toggleOut (by omega), ht, packetCount_append]
    omega

/-- The toggle of `bulk` counts packets modulo 2. -/
theorem xor_and_one {x : ℕ} (hx : x < 2) (p : ℕ) : x ^^^ (p &&& 1) = (x + p) % 2 := by
  rw [Nat.and_one_is_mod]
  have hp : p % 2 < 2 := Nat.mod_lt _ (by decide)
  rw [Nat.add_mod, Nat.mod_eq_of_lt hx]
  generalize p % 2 = q at hp
  interval_cases x <;> interval_cases q <;> rfl

theorem BulkPost.stages {input : Bool} {buffer length : ℕ}
    (h : BulkPost e input buffer length s true t) :
    Stages s t [fullTransfer input buffer length t.mem] := by
  obtain ⟨hi, ho⟩ := h.toggles rfl
  refine ⟨h.record rfl, fun h2 => ?_, fun h2 => ?_⟩
  · cases input with
    | true =>
      have hi' : t.toggleIn = (s.toggleIn + packets length) % 2 := hi.trans (xor_and_one h2 _)
      simpa [packetCount, fullTransfer] using hi'
    | false => simpa [packetCount, fullTransfer, Nat.mod_eq_of_lt h2] using hi
  · cases input with
    | true => simpa [packetCount, fullTransfer, Nat.mod_eq_of_lt h2] using ho
    | false =>
      have ho' : t.toggleOut = (s.toggleOut + packets length) % 2 := ho.trans (xor_and_one h2 _)
      simpa [packetCount, fullTransfer] using ho'

/-- The records of a command: its block, its data if there are any, its status. -/
def commandStages (cbw data csw : ℕ → UInt8) (length : ℕ) : List BulkTransfer :=
  ⟨false, cbwBuffer, 31, 31, cbw⟩ ::
    ((if length = 0 then [] else [⟨true, transferBuffer, length, length, data⟩]) ++
      [⟨true, cswBuffer, 13, 13, csw⟩])

/-- A status block that answers the command with this tag. -/
structure StatusBlock (csw : ℕ → UInt8) (tag length : ℕ) : Prop where
  signature : word csw 0 = 0x53425355
  tag : word csw 4 = tag
  residue : word csw 8 ≤ length
  status : (csw 12).toNat ≤ 1
  passed : (csw 12).toNat = 0 → word csw 8 = 0

/-- A command all of whose stages moved completely. -/
structure CommandDone (command : List ℕ) (length : ℕ) (s t : Storage) (r : ℤ) : Prop where
  alive : s.transportDead = false ∧ t.transportDead = false
  stages : ∃ cbw data csw, Stages s t (commandStages cbw data csw length) ∧
    (∀ i < 31, cbw i = cbwByte t.usbTag length command i) ∧
    (∃ τ, s.time ≤ τ ∧ ∀ i < length, data i = s.incoming τ i) ∧
    (∀ i < length, t.mem (transferBuffer + i) = data i) ∧
    StatusBlock csw t.usbTag length ∧ r = (if (csw 12).toNat = 0 then 1 else 0)

/-- What a valid command leaves behind. -/
structure ScsiPost (command : List ℕ) (length : ℕ) (s : Storage) (r : ℤ) (t : Storage) : Prop where
  tag : t.usbTag = add32 s.usbTag 1
  pipe : t.usbInterface = s.usbInterface ∧ t.incoming = s.incoming ∧ t.ehci = s.ehci
  time : s.time ≤ t.time
  result : r = -1 ∧ t.transportDead = true ∨ CommandDone command length s t r

/-- The check of the status block. -/
theorem scsiStatus_spec (length : ℕ) (s : Storage) :
    Ensures (scsiStatus length) s fun r t =>
      t.pipe = s.pipe ∧ t.time = s.time ∧ t.mem = s.mem ∧ Stages s t [] ∧
      (r = -1 ∧ t.transportDead = true ∨ t.transportDead = s.transportDead ∧
        StatusBlock (fun i => s.mem (cswBuffer + i)) s.usbTag length ∧
        r = (if (s.mem (cswBuffer + 12)).toNat = 0 then 1 else 0)) := by
  refine ensures_get_bind (ensures_get_bind (ensures_get_bind (ensures_get_bind
    (ensures_get_bind (ensures_ite (fun _ => ?_) fun hok => ?_)))))
  · exact ensures_modify_bind (ensures_pure
      ⟨rfl, rfl, rfl, Stages.nil rfl rfl rfl, Or.inl ⟨rfl, rfl⟩⟩)
  push Not at hok
  obtain ⟨hsig, htag, hres, hst⟩ := hok
  refine ensures_ite (fun h1 => ensures_pure ?_) fun h1 => ensures_ite (fun _ => ?_) fun h2 => ensures_pure ?_
  · refine ⟨rfl, rfl, rfl, Stages.nil rfl rfl rfl, Or.inr ⟨rfl, ⟨hsig, htag, hres, hst, ?_⟩, ?_⟩⟩
    · intro h0
      rw [h1] at h0
      exact absurd h0 (by decide)
    · rw [if_neg (by rw [h1]; decide)]
  · exact ensures_modify_bind (ensures_pure
      ⟨rfl, rfl, rfl, Stages.nil rfl rfl rfl, Or.inl ⟨rfl, rfl⟩⟩)
  · refine ⟨rfl, rfl, rfl, Stages.nil rfl rfl rfl, Or.inr ⟨rfl, ⟨hsig, htag, hres, hst, ?_⟩, ?_⟩⟩
    · exact fun _ => not_not.mp h2
    · rw [if_pos (by omega)]

/-- The data stage. -/
theorem scsiData_spec (hs : s.ehci = e) (length : ℕ) :
    Ensures (scsiData length) s fun r t =>
      t.pipe = s.pipe ∧ s.time ≤ t.time ∧
      (r = false → t.transportDead = true) ∧
      (r = true → t.transportDead = s.transportDead ∧
        Stages s t (if length = 0 then []
          else [⟨true, transferBuffer, length, length, fun i => t.mem (transferBuffer + i)⟩]) ∧
        ∃ τ, s.time ≤ τ ∧ ∀ i < length, t.mem (transferBuffer + i) = s.incoming τ i) := by
  refine ensures_ite (fun h0 => ensures_pure ?_) fun h0 => ?_
  · refine ⟨rfl, le_rfl, fun h => by simp at h, fun _ => ⟨rfl, ?_, s.time, le_rfl, fun i hi => ?_⟩⟩
    · rw [if_pos h0]
      exact Stages.nil rfl rfl rfl
    · omega
  · refine (bulk_spec hs true length (by decide)).mono fun r t ht => ?_
    refine ⟨ht.pipe, ht.time, ht.failed, ?_⟩
    rintro rfl
    obtain ⟨h1, h2⟩ := ht.alive rfl
    rw [if_neg h0]
    exact ⟨h2.trans h1.symm, ht.stages, ht.arrived rfl rfl⟩

/-- A command that `storage_read_cdb_valid` accepts has 6 or 10 bytes, reads at
most 16 KiB, and carries one of four opcodes. -/
theorem cdb_valid {command : List ℕ} {length : ℕ} (h : storageReadCdbValid command length = true) :
    (command.length = 6 ∨ command.length = 10) ∧ length ≤ 16384 ∧ ReadOpcode (command.getD 0 0) := by
  unfold storageReadCdbValid at h
  split_ifs at h with h1 h2 h3 h4
  · simp only [decide_eq_true_eq] at h
    exact ⟨Or.inl h1.1, by omega, Or.inl h1.2⟩
  · simp only [decide_eq_true_eq] at h
    exact ⟨Or.inl h2.1, by omega, Or.inr (Or.inl h2.2)⟩
  · simp only [decide_eq_true_eq] at h
    exact ⟨Or.inr h3.1, by omega, Or.inr (Or.inr (Or.inl h3.2))⟩
  · simp only [decide_eq_true_eq] at h
    exact ⟨Or.inr h4.1, by omega, Or.inr (Or.inr (Or.inr h4.2))⟩

/-- Registers that are nowhere near the driver's memory are no buffers. -/
theorem not_wire {e target n a : ℕ} (he : e + 128 ≤ 0x30000000 ∨ 0x80000000 ≤ e) (h1 : 0x30051000 ≤ a) (h2 : a < 0x80000000)
    (h3 : a < target ∨ target + n ≤ a) : ¬Wire e target n a := by
  rintro (⟨_, h⟩ | ⟨_, h⟩ | ⟨h, _⟩ | h)
  · simp only [dmaBase] at h
    omega
  · simp only [bootReport] at h
    omega
  · omega
  · omega

/-- The stages behind the command block. -/
structure AnswerPost (length : ℕ) (s : Storage) (r : ℤ) (t : Storage) : Prop where
  pipe : t.pipe = s.pipe
  time : s.time ≤ t.time
  result : r = -1 ∧ t.transportDead = true ∨ t.transportDead = false ∧
    ∃ data csw, Stages s t ((if length = 0 then []
        else [⟨true, transferBuffer, length, length, data⟩]) ++ [⟨true, cswBuffer, 13, 13, csw⟩]) ∧
      (∃ τ, s.time ≤ τ ∧ ∀ i < length, data i = s.incoming τ i) ∧
      (∀ i < length, t.mem (transferBuffer + i) = data i) ∧
      StatusBlock csw t.usbTag length ∧ r = (if (csw 12).toNat = 0 then 1 else 0)

theorem scsiAnswer_spec (hs : s.ehci = e) (he : 0x80000000 ≤ e) {length : ℕ} (hl : length ≤ 16384) :
    Ensures (scsiAnswer length) s (AnswerPost length s) := by
  have htb : transferBuffer = 0x30052000 := rfl
  have hcsw : cswBuffer = 0x30051440 := rfl
  refine ensures_bind (scsiData_spec hs length) fun moved s₃ h₃ => ?_
  obtain ⟨hp₃, ht₃, hf₃, hok₃⟩ := h₃
  refine ensures_ite (fun hm => ensures_pure ⟨hp₃, ht₃, Or.inl ⟨rfl, hf₃ hm⟩⟩) fun hm => ?_
  obtain ⟨hd₃, hst₃, τ, hτ, harr⟩ := hok₃ (by simpa using hm)
  have he₃ : s₃.ehci = e := (congrArg (fun p => p.2.2.2) hp₃).trans hs
  refine ensures_bind (bulk_spec he₃ true 13 (by decide)) fun answered s₄ h₄ => ?_
  have hp₄ : s₄.pipe = s.pipe := h₄.pipe.trans hp₃
  have ht₄ : s.time ≤ s₄.time := ht₃.trans h₄.time
  refine ensures_ite (fun ha => ensures_pure ⟨hp₄, ht₄, Or.inl ⟨rfl, h₄.failed ha⟩⟩) fun ha => ?_
  obtain rfl : answered = true := by simpa using ha
  refine (scsiStatus_spec length s₄).mono ?_
  rintro r t ⟨hp, ht, hmem, hst, hres⟩
  refine ⟨hp.trans hp₄, ht ▸ ht₄, ?_⟩
  rcases hres with ⟨rfl, hd⟩ | ⟨hd, hblock, hr⟩
  · exact Or.inl ⟨rfl, hd⟩
  have htag : s₄.usbTag = t.usbTag := (congrArg (fun p => p.1) hp).symm
  refine Or.inr ⟨hd.trans (h₄.alive rfl).2, fun i => s₃.mem (transferBuffer + i),
    fun i => s₄.mem (cswBuffer + i), ?_, ⟨τ, hτ, harr⟩, fun i hi => ?_, htag ▸ hblock, hr⟩
  · have hall := (hst₃.append h₄.stages).append hst
    rw [List.append_nil] at hall
    exact hall
  · rw [hmem]
    refine h₄.mem _ (not_wire (Or.inr he) (by omega) (by omega) (Or.inr ?_))
    simp only [incomingSize, if_true]
    omega

/-- **One command.** -/
theorem scsi_spec (hs : s.ehci = e) (he : 0x80000000 ≤ e) {command : List ℕ} {length : ℕ}
    (hvalid : storageReadCdbValid command length = true) :
    Ensures (scsi command length) s (ScsiPost command length s) := by
  obtain ⟨-, hl, -⟩ := cdb_valid hvalid
  have hcbw : cbwBuffer = 0x30051400 := rfl
  refine ensures_ite (fun h => by simp [hvalid] at h) fun _ => ?_
  refine ensures_bind (Q := fun _ v => v = { s with
      usbTag := add32 s.usbTag 1
      mem := cbwMemory s.mem (add32 s.usbTag 1) length command }) ?_ fun _ s₁ h₁ => ?_
  · intro a v hv
    rw [putCbw_run] at hv
    exact (Prod.mk.inj (Option.some.inj hv)).2.symm
  have hs₁ : s₁.ehci = e := by rw [h₁]; exact hs
  have hpipe₁ : s₁.usbTag = add32 s.usbTag 1 ∧ s₁.usbInterface = s.usbInterface ∧
      s₁.incoming = s.incoming ∧ s₁.ehci = s.ehci ∧ s₁.time = s.time ∧
      s₁.transportDead = s.transportDead := by
    rw [h₁]
    exact ⟨rfl, rfl, rfl, rfl, rfl, rfl⟩
  obtain ⟨htag₁, hif₁, hin₁, heq₁, ht₁, hd₁⟩ := hpipe₁
  refine ensures_bind (bulk_spec hs₁ false 31 (by decide)) fun sent s₂ h₂ => ?_
  have hp₂ := h₂.pipe
  simp only [Storage.pipe, Prod.mk.injEq] at hp₂
  refine ensures_ite (fun hsent => ensures_pure ?_) fun hsent => ?_
  · exact ⟨hp₂.1.trans htag₁, ⟨hp₂.2.1.trans hif₁, hp₂.2.2.1.trans hin₁, hp₂.2.2.2.trans heq₁⟩,
      ht₁ ▸ h₂.time, Or.inl ⟨rfl, h₂.failed hsent⟩⟩
  obtain rfl : sent = true := by simpa using hsent
  refine (scsiAnswer_spec (hp₂.2.2.2.trans hs₁) he hl).mono fun r t ht => ?_
  have hp := ht.pipe
  simp only [Storage.pipe, Prod.mk.injEq] at hp
  have htag : t.usbTag = add32 s.usbTag 1 := hp.1.trans (hp₂.1.trans htag₁)
  refine ⟨htag, ⟨hp.2.1.trans (hp₂.2.1.trans hif₁), hp.2.2.1.trans (hp₂.2.2.1.trans hin₁),
    hp.2.2.2.trans (hp₂.2.2.2.trans heq₁)⟩, ht₁ ▸ h₂.time.trans ht.time, ?_⟩
  refine ht.result.imp_right ?_
  rintro ⟨hd, data, csw, hst, ⟨τ, hτ, harr⟩, hmem, hblock, hr⟩
  refine ⟨⟨hd₁ ▸ (h₂.alive rfl).1, hd⟩, fun i => s₂.mem (cbwBuffer + i), data, csw, ?_, fun i hi => ?_,
    ⟨τ, ht₁ ▸ h₂.time.trans hτ, fun i hi => (harr i hi).trans ?_⟩, hmem, hblock, hr⟩
  · have hall := h₂.stages.append hst
    have hs₁s : Stages s s₁ [] := by
      rw [h₁]
      exact Stages.nil rfl rfl rfl
    exact hs₁s.append hall
  · have hkeep : s₂.mem (cbwBuffer + i) = s₁.mem (cbwBuffer + i) :=
      h₂.mem _ (not_wire (Or.inr he) (by omega) (by omega) (Or.inr (by simp [incomingSize])))
    show s₂.mem (cbwBuffer + i) = cbwByte t.usbTag length command i
    rw [hkeep, h₁, htag]
    exact cbwMemory_byte _ _ _ _ hi
  · rw [hp₂.2.2.1, hin₁]

/-! ### Sequences of commands -/

/-- The states between the commands of a sequence that starts in `s`, with the
tags of the command blocks that were built, the last one first. -/
inductive ScsiReach (s : Storage) : List ℕ → Storage → Prop
  | start : ScsiReach s [] s
  | command {tags : List ℕ} {u v : Storage} {command : List ℕ} {length : ℕ} {r : ℤ}
      (h : ScsiReach s tags u) (hr : (scsi command length).run u = some (r, v)) :
      ScsiReach s (if storageReadCdbValid command length then v.usbTag :: tags else tags) v

/-- A command that is not allowed is not sent. -/
theorem scsi_invalid {command : List ℕ} {length : ℕ} {r : ℤ}
    (h : storageReadCdbValid command length = false) (hr : (scsi command length).run s = some (r, t)) :
    r = -1 ∧ t = s := by
  unfold scsi at hr
  rw [if_pos h] at hr
  obtain ⟨rfl, rfl⟩ := Prod.mk.inj (Option.some.inj hr)
  exact ⟨rfl, rfl⟩

/-- What holds between two commands: the controller, the tags so far, and the
toggles of a live transport. -/
structure Between (s : Storage) (tags : List ℕ) (u : Storage) : Prop where
  ehci : u.ehci = s.ehci
  tag : u.usbTag % 2 ^ 32 = (s.usbTag + tags.length) % 2 ^ 32
  tags : ∀ i < tags.length, tags.getD i 0 = (s.usbTag + (tags.length - i)) % 2 ^ 32
  stages : u.transportDead = false → s.transportDead = false ∧ ∃ l, Stages s u l

theorem between_scsi {tags : List ℕ} {command : List ℕ} {length : ℕ} {r : ℤ}
    (he : 0x80000000 ≤ s.ehci) (h : Between s tags u) (hr : (scsi command length).run u = some (r, t)) :
    Between s (if storageReadCdbValid command length then t.usbTag :: tags else tags) t := by
  cases hv : storageReadCdbValid command length with
  | false =>
    obtain ⟨-, rfl⟩ := scsi_invalid hv hr
    exact h
  | true =>
    have hpost := scsi_spec (e := s.ehci) h.ehci he hv r t hr
    have htag : t.usbTag = (s.usbTag + (tags.length + 1)) % 2 ^ 32 := by
      have hu := h.tag
      rw [hpost.tag, add32]
      omega
    refine ⟨hpost.pipe.2.2.trans h.ehci, ?_, fun i hi => ?_, fun hd => ?_⟩
    · rw [htag, Nat.mod_mod]
      simp
    · cases i with
      | zero => simpa using htag
      | succ i =>
        simp only [if_true, List.length_cons] at hi
        have hold := h.tags i (by omega)
        simpa using hold
    · rcases hpost.result with ⟨-, hdead⟩ | hdone
      · rw [hd] at hdead
        exact absurd hdead (by decide)
      · obtain ⟨hs, l, hl⟩ := h.stages hdone.alive.1
        obtain ⟨cbw, data, csw, hst, -⟩ := hdone.stages
        exact ⟨hs, _, hl.append hst⟩

theorem scsiReach_between {tags : List ℕ} (he : 0x80000000 ≤ s.ehci) (h : ScsiReach s tags u) :
    Between s tags u := by
  induction h with
  | start =>
    refine ⟨rfl, by simp, fun i hi => ?_, fun hd => ?_⟩
    · simp at hi
    · exact ⟨hd, [], Stages.nil rfl rfl rfl⟩
  | command _ hr ih => exact between_scsi he ih hr

/-- A tag is not among those of the commands before it, as far back as a 32-bit
counter can tell. -/
theorem Between.fresh {tags : List ℕ} (h : Between s tags u) :
    add32 u.usbTag 1 ∉ tags.take (2 ^ 32 - 1) := by
  intro hmem
  obtain ⟨i, hi, hget⟩ := List.getElem_of_mem hmem
  rw [List.length_take] at hi
  rw [List.getElem_take] at hget
  have hold := h.tags i (by omega)
  have hu := h.tag
  rw [List.getD_eq_getElem _ _ (by omega), hget, add32] at hold
  omega

/-! ### Enumeration -/

/-- The two toggles. -/
def Storage.toggles (s : Storage) : ℕ × ℕ := (s.toggleIn, s.toggleOut)

theorem keeps_toggles_of_transfer {α : Type} {m : StorageM α}
    (h : ∀ e, Within (EhciFrame .transfer (fun _ => True) true e) m) : Keeps Storage.toggles m := by
  intro s a t hr
  exact eq_of_part (h s.ehci s a t hr rfl).part Storage.toggles fun _ => rfl

theorem keeps_toggles_control (type request value index length : ℕ) :
    Keeps Storage.toggles (control type request value index length) :=
  keeps_toggles_of_transfer fun _ =>
    frame_controlWire _ _ _ _ _ (fun _ _ => trivial) fun _ _ => trivial

theorem keeps_toggles_quiet {α : Type} {m : StorageM α} (h : Within (Quiet fun _ => True) m) :
    Keeps Storage.toggles m := keeps_toggles_of_transfer fun _ => quiet_ehci h

theorem keeps_toggles_configurations (n index : ℕ) :
    Keeps Storage.toggles (enumerateConfigurations n index) := by
  induction n generalizing index with
  | zero => exact keeps_pure _
  | succ n ih =>
    refine keeps_bind (keeps_toggles_control _ _ _ _ _) fun _ => keeps_ite (keeps_pure _) ?_
    refine keeps_bind (keeps_toggles_quiet (quiet_loadByte _)) fun low => ?_
    refine keeps_bind (keeps_toggles_quiet (quiet_loadByte _)) fun high => keeps_ite (ih _) ?_
    refine keeps_bind (keeps_toggles_control _ _ _ _ _) fun _ => keeps_ite (keeps_pure _) ?_
    refine keeps_bind keeps_get fun s => ?_
    dsimp only
    cases bootParseUsbConfiguration (fun i => (s.mem (controlBuffer + i)).toNat) (low ||| high <<< 8)
    with
    | none => exact ih _
    | some parsed =>
      refine keeps_bind (keeps_modify fun _ => rfl) fun _ => ?_
      refine keeps_bind (keeps_toggles_control _ _ _ _ _) fun _ => keeps_ite (keeps_pure _) ?_
      exact keeps_bind (keeps_toggles_quiet (quiet_delay _)) fun _ => keeps_pure _

/-- Enumeration starts both directions with DATA0. -/
theorem enumerateStorage_toggles (s : Storage) :
    Ensures enumerateStorage s fun _ t => t.toggles = (0, 0) := by
  have hkeep : ∀ {α : Type} {m : StorageM α} {v : Storage}, v.toggles = (0, 0) → Keeps Storage.toggles m →
      Ensures m v fun _ t => t.toggles = (0, 0) := fun hv hm r t hr => (hm _ r t hr).trans hv
  refine ensures_bind (Q := fun _ _ => True) (fun _ _ _ => trivial) fun _ v _ => ?_
  refine ensures_modify_bind (hkeep rfl ?_)
  refine keeps_bind (keeps_toggles_control _ _ _ _ _) fun _ => keeps_ite (keeps_pure _) ?_
  refine keeps_bind (keeps_toggles_quiet (quiet_loadByte _)) fun _ => keeps_ite (keeps_pure _) ?_
  refine keeps_bind (keeps_toggles_quiet (quiet_loadByte _)) fun _ => ?_
  refine keeps_bind (keeps_toggles_quiet (quiet_loadByte _)) fun _ => ?_
  refine keeps_bind (keeps_toggles_quiet (quiet_loadByte _)) fun _ => keeps_ite (keeps_pure _) ?_
  refine keeps_bind (keeps_toggles_control _ _ _ _ _) fun _ => keeps_ite (keeps_pure _) ?_
  refine keeps_bind (keeps_modify fun _ => rfl) fun _ => ?_
  refine keeps_bind (keeps_toggles_quiet (quiet_delay _)) fun _ => ?_
  refine keeps_bind (keeps_toggles_quiet (quiet_report (fun _ _ _ => trivial) _ (by decide))) fun _ => ?_
  exact keeps_toggles_configurations _ _

/-! ### The transport -/

/-- A command that returned success: its block with a fresh tag, all of its data
and a matching status block moved, in this order and completely. -/
structure CommandPassed (tags : List ℕ) (command : List ℕ) (length : ℕ) (u v : Storage) : Prop where
  fresh : v.usbTag ∉ tags.take (2 ^ 32 - 1)
  stages : ∃ cbw data csw,
    v.bulks = u.bulks ++ commandStages cbw data csw length ∧
    (∀ i < 31, cbw i = cbwByte v.usbTag length command i) ∧
    (∃ τ, u.time ≤ τ ∧ ∀ i < length, v.mem (transferBuffer + i) = u.incoming τ i) ∧
    (∀ i < length, v.mem (transferBuffer + i) = data i) ∧
    word csw 0 = 0x53425355 ∧ word csw 4 = v.usbTag ∧ word csw 8 = 0 ∧ (csw 12).toNat = 0

theorem CommandDone.passed {tags command : List ℕ} {length : ℕ} (h : CommandDone command length u t 1)
    (hfresh : t.usbTag ∉ tags.take (2 ^ 32 - 1)) : CommandPassed tags command length u t := by
  obtain ⟨cbw, data, csw, hst, hcbw, ⟨τ, hτ, hdata⟩, hmem, hblock, hr⟩ := h.stages
  have h0 : (csw 12).toNat = 0 := by
    by_contra hne
    rw [if_neg hne] at hr
    exact absurd hr (by decide)
  exact ⟨hfresh, cbw, data, csw, hst.bulks, hcbw, ⟨τ, hτ, fun i hi => (hmem i hi).trans (hdata i hi)⟩,
    hmem, hblock.signature, hblock.tag, hblock.passed h0, h0⟩

/-- A stick with one storage interface, and a controller on which every transfer
succeeds. -/
def usbStick : Storage where
  hw := fun _ _ => 0
  dma := fun _ a => if 0x30050100 ≤ a then some 0 else none
  incoming := fun t i => UInt8.ofNat ((
    if t < 10 then [18, 1, 0, 2, 0, 0, 0, 64, 0, 0, 0, 0, 0, 0, 0, 0, 0, 1]
    else if t < 42 then [9, 2, 32, 0, 1, 1, 0, 0x80, 50, 9, 4, 0, 0, 2, 8, 6, 0x50, 0,
      7, 5, 0x81, 2, 0, 2, 0, 7, 5, 2, 2, 0, 2, 0]
    else [0x55, 0x53, 0x42, 0x53, 1, 0, 0, 0, 0, 0, 0, 0, 0]).getD i 0)
  time := 0
  issued := []
  bulks := []
  ataWords := []
  mem := fun _ => 0
  cr3 := 0
  mmioPte := 0
  ehci := storageMmioBase + 0x20
  ticksPerMs := 10000
  usbAddress := 0
  usbTag := 0
  lastBlock := 0
  toggleIn := 0
  toggleOut := 0
  transportDead := false
  usbInterface := ⟨0, 0, 0, 0⟩
  ataPort := 0
  ataDevice := 0
  devices := fun _ => ⟨0, 0, 0, 0, fun _ => 0⟩
  initialized := true
  discovered := false
  deviceMask := 0
  mappedMmio := 0
  ataDead := fun _ => false
  usbDiscovered := true
  companionTarget := 0
  companionsReady := false
  companionPorts := 0
  companionKeep := 0

end VirtualKernel
