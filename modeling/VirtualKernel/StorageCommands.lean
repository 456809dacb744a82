/-
The ranges and the commands of a read.

`storage_read` checks a request against the capacity that discovery stored, the transport
checks it again against its own limit, and then the request is written into a command
block or into the task file of a channel.

* **`storageValidRange_iff`** — the check is what it should be: the blocks are there;
* **`ataRead_commands`** — `ata_read` writes the two registers that select a device and,
  once the device is ready, the five that make the command;
* **`storage_ranges_agree`** — a request that passes the check passes that of the
  transport, its command says what was asked, and a request that does not pass issues
  nothing.
-/
import VirtualKernel.StorageRuns

namespace VirtualKernel

open Lib

/-! ### Ranges -/

/-- The check holds when there are between 1 and 32 blocks, all of them on the device. -/
theorem storageValidRange_iff {capacity lba blocks : ℕ} :
    storageValidRange capacity lba blocks = true ↔
      0 < blocks ∧ blocks ≤ 32 ∧ lba + blocks ≤ capacity := by
  simp only [storageValidRange, storageMaxBlocks, decide_eq_true_eq]
  omega

/-- A capacity that `storage_identify_capacity` finds fits 28 bits. -/
theorem storageIdentifyCapacity_le (words : ℕ → ℕ) :
    storageIdentifyCapacity words ≤ 0x10000000 := by
  unfold storageIdentifyCapacity
  split_ifs
  · exact Nat.zero_le _
  · exact Nat.zero_le _
  · dsimp only
    split_ifs <;> omega

/-! ### READ(10) -/

/-- The fields of a READ(10) command block. -/
structure Read10 where
  lba : ℕ
  blocks : ℕ
  deriving DecidableEq, Repr

/-- The layout of READ(10): a block of ten bytes, with the address at 2 and the number of
blocks at 7, most significant byte first, and no flags. -/
def decodeRead10 (command : List ℕ) : Option Read10 :=
  match command with
  | [0x28, 0, b₂, b₃, b₄, b₅, 0, b₇, b₈, 0] =>
    some ⟨b₂ * 2 ^ 24 + b₃ * 2 ^ 16 + b₄ * 2 ^ 8 + b₅, b₇ * 2 ^ 8 + b₈⟩
  | _ => none

/-- The command of a read says what was asked. -/
theorem decodeRead10_readCommand {lba blocks : ℕ} (hl : lba < 2 ^ 32) (hb : blocks < 2 ^ 16) :
    decodeRead10 (readCommand lba blocks) = some ⟨lba, blocks⟩ := by
  simp only [readCommand, putBe32, List.cons_append, List.nil_append, decodeRead10,
    Nat.shiftRight_eq_div_pow, Option.some.injEq, Read10.mk.injEq]
  omega

/-- The command of a read of up to 32 blocks passes the filter. -/
theorem readCommand_valid {lba blocks : ℕ} (h₁ : 0 < blocks) (h₂ : blocks ≤ 32) :
    storageReadCdbValid (readCommand lba blocks) (blocks * 512) = true := by
  have hblocks : (blocks >>> 8 % 2 ^ 8) <<< 8 ||| blocks % 2 ^ 8 = blocks := by
    rw [Nat.shiftRight_eq_div_pow, Nat.div_eq_of_lt (by omega), Nat.zero_mod, Nat.zero_shiftLeft,
      Nat.zero_or, Nat.mod_eq_of_lt (by omega)]
  simp only [storageReadCdbValid, readCommand, putBe32, List.cons_append, List.nil_append,
    List.length_cons, List.length_nil, List.getD_cons_zero, List.getD_cons_succ, hblocks]
  simp [h₁, h₂]

/-! ### The task file -/

/-- The last value that was written to a port. -/
def lastWritten (port : ℕ) (outs : List StorageOut) : Option ℕ :=
  (outs.filterMap fun
    | .port p value => if p = port then some value else none
    | _ => none).getLast?

/-- A command in the registers of a channel, by the layout of LBA28. -/
structure TaskFile where
  command : ℕ
  addressed : Bool
  device : ℕ
  lba : ℕ
  count : ℕ
  deriving DecidableEq, Repr

/-- What a channel finds in its registers. -/
def taskFile (port : ℕ) (outs : List StorageOut) : Option TaskFile := do
  let count ← lastWritten (port + 2) outs
  let low ← lastWritten (port + 3) outs
  let mid ← lastWritten (port + 4) outs
  let high ← lastWritten (port + 5) outs
  let head ← lastWritten (port + 6) outs
  let command ← lastWritten (port + 7) outs
  return { command, count
           addressed := head.testBit 6
           device := head / 2 ^ 4 % 2
           lba := low + mid * 2 ^ 8 + high * 2 ^ 16 + head % 2 ^ 4 * 2 ^ 24 }

/-- The writes of `ata_read`: device control and device, then the command. -/
def ataCommand (port device lba blocks : ℕ) : List StorageOut :=
  [.port (port + 0x206) 2,
    .port (port + 6) ((0xE0 ||| device <<< 4 ||| lba >>> 24) % 2 ^ 8),
    .port (port + 2) (blocks % 2 ^ 8),
    .port (port + 3) (lba % 2 ^ 8),
    .port (port + 4) (lba >>> 8 % 2 ^ 8),
    .port (port + 5) (lba >>> 16 % 2 ^ 8),
    .port (port + 7) 0x20]

/-- The device register: the mode, the device, and the top of the address. -/
theorem deviceRegister {device top : ℕ} (hd : device < 2) (ht : top < 2 ^ 4) :
    (0xE0 ||| device <<< 4 ||| top) % 2 ^ 8 = 0xE0 + device * 2 ^ 4 + top := by
  interval_cases device <;> interval_cases top <;> decide

/-- Each register keeps what was written to it. -/
theorem taskFile_writes (port control head count low mid high command : ℕ) :
    taskFile port [.port (port + 0x206) control, .port (port + 6) head, .port (port + 2) count,
        .port (port + 3) low, .port (port + 4) mid, .port (port + 5) high,
        .port (port + 7) command] =
      some { command, count
             addressed := head.testBit 6
             device := head / 2 ^ 4 % 2
             lba := low + mid * 2 ^ 8 + high * 2 ^ 16 + head % 2 ^ 4 * 2 ^ 24 } := by
  simp [taskFile, lastWritten]

/-- The writes say what was asked. -/
theorem taskFile_ataCommand (port : ℕ) {device lba blocks : ℕ} (hd : device < 2)
    (hl : lba < 2 ^ 28) (hb : blocks < 2 ^ 8) :
    taskFile port (ataCommand port device lba blocks) =
      some { command := 0x20, addressed := true, device, lba, count := blocks } := by
  have htop : lba >>> 24 < 2 ^ 4 := by
    rw [Nat.shiftRight_eq_div_pow]
    omega
  have hbit : (0xE0 + device * 2 ^ 4 + lba >>> 24).testBit 6 = true := by
    rw [Nat.testBit_eq_decide_div_mod_eq, decide_eq_true_eq]
    omega
  rw [ataCommand, taskFile_writes, deviceRegister hd htop, hbit, Option.some.injEq,
    TaskFile.mk.injEq]
  rw [Nat.shiftRight_eq_div_pow] at htop
  simp only [Nat.shiftRight_eq_div_pow, true_and]
  omega

/-! ### What is issued -/

section Listens

variable {α β : Type} {m : StorageM α} {f : α → StorageM β}

/-- An operation that completes and issues nothing. -/
def Listens (m : StorageM α) : Prop :=
  ∀ s, Runs m s fun _ t => t.issued = s.issued

theorem listens_pure (a : α) : Listens (pure a) := fun _ => runs_pure rfl

theorem listens_bind (hm : Listens m) (hf : ∀ a, Listens (f a)) : Listens (m >>= f) := by
  intro s
  refine runs_bind (hm s) fun a t ht => ?_
  refine (hf a t).mono fun b u hu => ?_
  exact hu.trans ht

theorem listens_get : Listens (get : StorageM Storage) := fun _ => runs_get rfl

theorem listens_ask (r : StorageReg) : Listens (ask r) := fun _ => runs_modifyGet rfl

theorem listens_ite {c : Prop} [Decidable c] {m' : StorageM α} (h : Listens m) (h' : Listens m') :
    Listens (if c then m else m') := by
  split_ifs
  · exact h
  · exact h'

theorem listens_upTo {n : ℕ} {body : ℕ → StorageM Unit} (h : ∀ i, Listens (body i)) :
    Listens (upTo n body) := by
  induction n with
  | zero => exact listens_pure ()
  | succ n ih => exact listens_bind ih fun _ => h n

theorem listens_ataWait (mask wanted : ℕ) : Listens (ataWait mask wanted) :=
  listens_bind listens_get fun _ => listens_bind (listens_ask _) fun _ => listens_pure _

theorem listens_ataSettle : Listens ataSettle :=
  listens_upTo fun _ => listens_bind listens_get fun _ => listens_bind (listens_ask _) fun _ =>
    listens_pure _

theorem listens_ataSector (destination : ℕ) : Listens (ataSector destination) := by
  refine listens_upTo fun i => listens_bind ?_ fun value => fun s => runs_modify rfl
  refine listens_bind listens_get fun _ => listens_bind (listens_ask _) fun _ => ?_
  exact listens_bind (fun s => runs_modify rfl) fun _ => listens_pure _

theorem listens_ataSectors (n sector : ℕ) : Listens (ataSectors n sector) := by
  induction n generalizing sector with
  | zero => exact listens_pure _
  | succ n ih =>
    refine listens_bind listens_ataSettle fun _ => listens_bind (listens_ataWait 8 8) fun ready => ?_
    refine listens_ite (listens_pure _) ?_
    exact listens_bind (listens_ataSector _) fun _ => ih (sector + 1)

end Listens

/-- **The writes of `ata_read`.**  For a range that it accepts it writes the first two
registers; it writes the others once the device is ready, and nothing else. -/
theorem ataRead_commands {lba blocks : ℕ} (h₁ : 0 < blocks) (h₂ : blocks ≤ 32)
    (hl : lba + blocks ≤ 2 ^ 28) (s : Storage) :
    Runs (ataRead lba blocks) s fun r t => ∃ n, (n = 2 ∨ n = 7) ∧ (r = true → n = 7) ∧
      t.issued = s.issued ++ (ataCommand s.ataPort s.ataDevice lba blocks).take n := by
  have haccept : ¬(blocks = 0 ∨ blocksPerRead < blocks ∨ 0x0FFFFFFF < lba ∨
      0x0FFFFFFF - lba < blocks - 1) := by
    simp only [blocksPerRead]
    omega
  unfold ataRead
  rw [if_neg haccept]
  -- the selection of the device
  refine runs_get_bind (runs_modify_bind (runs_modify_bind ?_))
  refine runs_bind (listens_ataSettle _) fun _ s₁ h₁ => ?_
  refine runs_bind (listens_ataWait _ _ s₁) fun ready s₂ h₂ => ?_
  have hsel : s₂.issued = s.issued ++ (ataCommand s.ataPort s.ataDevice lba blocks).take 2 := by
    rw [h₂, h₁]
    simp [ataCommand]
  refine runs_ite (fun _ => runs_pure ⟨2, Or.inl rfl, (fun h => by cases h), hsel⟩) fun _ => ?_
  -- the command
  refine runs_modify_bind (runs_modify_bind (runs_modify_bind (runs_modify_bind
    (runs_modify_bind ?_))))
  refine runs_bind (listens_ataSectors _ _ _) fun done s₃ h₃ => ?_
  have hall : s₃.issued = s.issued ++ (ataCommand s.ataPort s.ataDevice lba blocks).take 7 := by
    rw [h₃]
    simp [ataCommand, hsel]
  refine runs_ite (fun _ => runs_pure ⟨7, Or.inr rfl, fun _ => rfl, hall⟩) fun _ => ?_
  refine runs_bind (listens_ataSettle s₃) fun _ s₄ h₄ => ?_
  refine (listens_ataWait _ _ s₄).mono fun r t ht => ?_
  exact ⟨7, Or.inr rfl, fun _ => rfl, by rw [ht, h₄, hall]⟩

/-! ### A read -/

/-- A read that passes the check of `storage_read`, and what the transports make of it. -/
structure RangeAgrees (capacity lba blocks : ℕ) : Prop where
  inside : ∀ b < blocks, lba + b < capacity
  buffer : blocks * 512 ≤ 16 * 1024
  usb : ∀ s : Storage, s.lastBlock < 2 ^ 32 → s.lastBlock ≠ 0xFFFFFFFF →
    capacity = add32 s.lastBlock 1 →
    capacity = s.lastBlock + 1 ∧ lba + blocks < 2 ^ 32 ∧
    (usbRead lba blocks).run s =
      (do return (← scsi (readCommand lba blocks) (blocks * 512)) = 1 : StorageM Bool).run s ∧
    storageReadCdbValid (readCommand lba blocks) (blocks * 512) = true ∧
    decodeRead10 (readCommand lba blocks) = some ⟨lba, blocks⟩
  ata : ∀ words device s, capacity = storageIdentifyCapacity words → 1 ≤ device → device < 5 →
    lba + blocks < 2 ^ 32 ∧
    Runs (readAta device lba blocks) s fun r t => ∃ n, (n = 2 ∨ n = 7) ∧ (r = true → n = 7) ∧
      t.issued = s.issued ++ (ataCommand (channelPort (device - 1)) ((device - 1) % 2) lba
        blocks).take n ∧
      taskFile (channelPort (device - 1)) (ataCommand (channelPort (device - 1)) ((device - 1) % 2)
        lba blocks) = some { command := 0x20, addressed := true, device := (device - 1) % 2,
                             lba, count := blocks }

theorem RangeAgrees.of_valid {capacity lba blocks : ℕ}
    (h : storageValidRange capacity lba blocks = true) : RangeAgrees capacity lba blocks := by
  obtain ⟨h₁, h₂, h₃⟩ := storageValidRange_iff.mp h
  refine ⟨fun b hb => by omega, by omega, ?usb, ?ata⟩
  case usb =>
    intro s hlt hmax hcap
    have hsum : capacity = s.lastBlock + 1 := by rw [hcap, add32_of_lt (by omega)]
    have haccept : ¬(blocks = 0 ∨ blocksPerRead < blocks ∨ s.lastBlock < lba ∨
        s.lastBlock - lba < blocks - 1) := by
      simp only [blocksPerRead]
      omega
    refine ⟨hsum, by omega, ?_, readCommand_valid h₁ h₂,
      decodeRead10_readCommand (by omega) (by omega)⟩
    change (if blocks = 0 ∨ blocksPerRead < blocks ∨ s.lastBlock < lba ∨
      s.lastBlock - lba < blocks - 1 then _ else _ : StorageM Bool).run s = _
    rw [if_neg haccept]
    rfl
  case ata =>
    intro words device s hcap hd₁ hd₂
    have hle := storageIdentifyCapacity_le words
    have hlt : (device - 1) % 2 < 2 := Nat.mod_lt _ (by decide)
    have hlba : lba < 2 ^ 28 := by omega
    have hblocks : blocks < 2 ^ 8 := by omega
    have htask := taskFile_ataCommand (channelPort (device - 1)) hlt hlba hblocks
    refine ⟨by omega, runs_modify_bind ?_⟩
    have hdev : (device - 1) &&& 1 = (device - 1) % 2 := Nat.and_two_pow_sub_one_eq_mod _ 1
    rw [← channelPort_eq device, hdev]
    refine runs_bind (ataRead_commands h₁ h₂ (by omega) _) ?_
    rintro done v ⟨n, hn, hfull, hissued⟩
    refine runs_ite (fun hdone => runs_pure ⟨n, hn, fun _ => hfull hdone, hissued, htask⟩) ?_
    intro _
    exact runs_modify_bind (runs_pure ⟨n, hn, (fun h => by cases h), hissued, htask⟩)

/-- A read that does not pass: nothing is done after discovery. -/
theorem storageRead_rejects {s u t : Storage} {device lba blocks buffer r : ℕ}
    (hu : discoverStorage.run s = some ((), u))
    (hv : storageValidRange (u.devices device).blockCount lba blocks = false)
    (hr : (storageRead device lba blocks buffer).run s = some (r, t)) :
    r ≠ storageOk ∧ (t = s ∨ t = u) := by
  have hpost : Ensures (storageRead device lba blocks buffer) s
      fun r t => r ≠ storageOk ∧ (t = s ∨ t = u) := by
    refine ensures_get_bind (ensures_ite (fun _ => ensures_pure ⟨by decide, Or.inl rfl⟩) fun _ => ?_)
    refine ensures_ite (fun _ => ensures_pure ⟨by decide, Or.inl rfl⟩) fun _ => ?_
    refine ensures_bind (Q := fun _ v => v = u) ?_ ?_
    · intro a v hrun
      rw [hu] at hrun
      exact (Prod.mk.inj (Option.some.inj hrun)).2.symm
    rintro _ v rfl
    refine ensures_get_bind (ensures_ite (fun _ => ensures_pure ⟨by decide, Or.inr rfl⟩) fun _ => ?_)
    rw [if_pos hv]
    exact ensures_pure ⟨by decide, Or.inr rfl⟩
  exact hpost r t hr

end VirtualKernel
