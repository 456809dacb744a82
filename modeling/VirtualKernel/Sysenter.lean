/-
SYSENTER: the handler of the kernel.

A process enters the kernel with the address of a frame of eight bytes on its
stack, to which the handler returns.  `sysenter_entry` checks the frame before it
believes it and halts the machine when a check fails.

* **`sysenter_frame`** — what the handler reads for its caller, and what it
  returns to: the frame lies in the stack window of the calling process, in one
  page, and the process itself may access that page unless it has slot 76, whose
  stack is under a large page of the kernel.
-/
import VirtualKernel.Lib.LittleEndian
import VirtualKernel.UserSegments
import VirtualKernel.PrepareTask
import VirtualKernel.Storage

namespace VirtualKernel

open Lib

/-! ### The handler -/

abbrev syscallVgaWrite : ℕ := 1
abbrev vgaTextCellCount : ℕ := 80 * 25
abbrev vgaTestAttribute : ℕ := 0x1F

/-- A service of the C kernel: from the PUSHAD image, the process object and the
bytes at linear addresses, the result and the bytes afterwards. -/
abbrev Service : Type := StorageRegisters → ℕ → (ℕ → ℕ) → ℕ × (ℕ → ℕ)

/-- The checks of `sysenter_entry` up to the presence of the frame: its linear
address, from the process `esi` and the PUSHAD image. -/
def sysenterFrameAddress (k : Kernel) (esi : ℕ) (r : StorageRegisters) : Option ℕ :=
  if r.ebp / 2 ^ 16 ≠ 0 then none
  else if r.ebp % 2 ^ 16 ≠ k.mem esi procUserSs % 2 ^ 16 then none
  else if r.ebp &&& 7 ≠ 7 then none
  -- the frame is an offset within the stack segment
  else if 2 ^ 32 ≤ r.ecx + 7 then none
  else if userStackSize ≤ r.ecx + 7 then none
  else
    let ebx := k.mem esi procSlotBase + userStackOffset
    if 2 ^ 32 ≤ ebx then none
    else if 2 ^ 32 ≤ r.ecx + ebx then none
    else
      let ebx := r.ecx + ebx
      if 2 ^ 32 ≤ ebx + 7 then none
      else if userSpaceLimit ≤ ebx + 7 then none
      else if pageSize - 8 < ebx % pageSize then none
      else if (getPhysicalAddress (k.mem esi procPageDir) ebx k.ram).getD 0 = 0 then none
      else some ebx

/-- The frame at `ebx` restores ESP just above itself, and the SS of the process. -/
def sysenterFrameMatches (k : Kernel) (esi : ℕ) (r : StorageRegisters) (mem : ℕ → ℕ) (ebx : ℕ) :
    Bool :=
  getLe mem 4 ebx = add32 r.ecx 8 ∧ getLe mem 2 (ebx + 4) = k.mem esi procUserSs % 2 ^ 16 ∧
    getLe mem 2 (ebx + 6) = 0

/-- The requests of `sysenter_entry`: EAX and the memory afterwards.  `storage` is
the function that `storage_syscall_ptr` points to, if any. -/
def sysenterDispatch (storage : Option Service) (r : StorageRegisters) (esi : ℕ) (mem : ℕ → ℕ) :
    ℕ × (ℕ → ℕ) :=
  if 5 ≤ r.eax then
    if 7 < r.eax then (0xFFFFFFFE, mem)
    else
      match storage with
      | none => (0xFFFFFFFE, mem)
      | some serve => serve r esi mem
  else if r.eax ≠ syscallVgaWrite then (0xFFFFFFFE, mem)
  else if vgaTextCellCount ≤ r.edi then (0xFFFFFFFF, mem)
  else
    let eax := kernelVgaVirt + r.edi * 2
    (0, Function.update (Function.update mem eax (r.ebx % 2 ^ 8)) (eax + 1) vgaTestAttribute)

/-- What SYSEXIT returns with: the registers, the data selectors and the memory. -/
structure Sysexit where
  regs : StorageRegisters
  ds : ℕ
  mem : ℕ → ℕ

/-- The saved registers with the ECX and EDX of SYSEXIT, and the data selector in
the slot that POPAD ignores. -/
def sysexitRegisters (r : StorageRegisters) (ebx ret ds : ℕ) : StorageRegisters :=
  { r with ecx := ebx, edx := ret, ignoredEsp := ds }

/-- `sysenter_entry`; `none` is `sysenter_entry_bad_frame`, which halts the
machine.  `ret` is `USER_SYSCALL_GATEWAY_RETURN`, `mem` the bytes at linear
addresses. -/
def sysenterEntry (k : Kernel) (storage : Option Service) (ret : ℕ) (r : StorageRegisters)
    (mem : ℕ → ℕ) : Option Sysexit :=
  -- the running TSS and the process behind it
  let ebp := sysenterEntryBase (k.gdt (k.tr % 2 ^ 16 / 8))
  let esi := k.mem ebp tssOwnerProcess
  if esi = 0 then none
  else
    match sysenterFrameAddress k esi r with
    | none => none
    | some ebx =>
      if sysenterFrameMatches k esi r mem ebx then
        let ds := k.mem esi procUserDs % 2 ^ 16
        let r := sysexitRegisters r ebx ret ds
        let res := sysenterDispatch storage r esi mem
        some ⟨{ r with eax := res.1 }, ds, res.2⟩
      else none

/-! ### The frame -/

/-- The address that the checks let pass. -/
theorem sysenterFrameAddress_eq_some {k : Kernel} {esi ebx : ℕ} {r : StorageRegisters} :
    sysenterFrameAddress k esi r = some ebx ↔
      (r.ebp < 2 ^ 16 ∧ r.ebp = k.mem esi procUserSs % 2 ^ 16 ∧ r.ebp &&& 7 = 7) ∧
      r.ecx + 7 < userStackSize ∧ ebx = r.ecx + (k.mem esi procSlotBase + userStackOffset) ∧
      ebx + 7 < userSpaceLimit ∧ ebx % pageSize ≤ pageSize - 8 ∧
      (getPhysicalAddress (k.mem esi procPageDir) ebx k.ram).getD 0 ≠ 0 := by
  have hlimit : userSpaceLimit = 2 ^ 31 := rfl
  have hstack : userStackSize = 2 ^ 20 := rfl
  rw [sysenterFrameAddress]
  simp only [Option.ite_none_left_eq_some, Option.some.injEq]
  constructor
  · rintro ⟨h1, h2, h3, -, h5, -, -, -, h9, h10, h11, rfl⟩
    exact ⟨⟨by omega, by omega, not_not.mp h3⟩, by omega, rfl, by omega, by omega, h11⟩
  · rintro ⟨⟨h1, h2, h3⟩, h4, rfl, h5, h6, h7⟩
    exact ⟨by omega, by omega, not_not.mpr h3, by omega, by omega, by omega, by omega, by omega,
      by omega, by omega, h7, rfl⟩

/-- The bytes of a page have one walk. -/
theorem userAccess_page {d a b : ℕ} {r : Ram} (h : a / pageSize = b / pageSize) :
    userAccess d a r = userAccess d b r := by
  have hdir : a / 2 ^ 22 = b / 2 ^ 22 := by
    rw [show 2 ^ 22 = pageSize * 2 ^ 10 from rfl, ← Nat.div_div_eq_div_mul, ← Nat.div_div_eq_div_mul, h]
  have hpte : pteIndex a = pteIndex b := congrArg (· % 2 ^ 10) h
  rw [userAccess, userAccess, hdir, hpte]

/-- A translated address that no large page of the kernel covers is a user's. -/
theorem userAccess_of_translated {r : Ram} {D : ℕ → Prop} {c d v : ℕ} (H : TableInv r D c)
    (hd : D d) (hv : v < 2 ^ 32) (hk : r.frame pageDirBase (v / 2 ^ 22) = 0)
    (hphys : getPhysicalAddress d v r ≠ none) : userAccess d v r = true := by
  have hcopy : kernelCopy r (v / 2 ^ 22) = 0 := by
    rw [kernelCopy, hk]
    exact ite_self 0
  have hp : present (r.frame d (v / 2 ^ 22)) = true := by
    by_contra hp
    exact hphys (getPhysicalAddress_absent (Bool.eq_false_iff.mpr hp))
  rcases H.dir_pde d hd _ (show v / 2 ^ 22 < 1024 by omega) with h | ⟨-, h⟩
  · rw [h, hcopy] at hp
    cases hp
  · -- a table of the process, in which present entries are the user's
    obtain ⟨t, ht⟩ := Option.isSome_iff_exists.mp h
    obtain ⟨haddr, hacc⟩ := address_of_table (w := v) (dir_ne_zero H hd) ht rfl
    rcases H.user_pte d _ t hd ht (pteIndex v) (Nat.mod_lt _ (by decide)) with hz | ⟨-, hu⟩
    · rw [haddr, hz] at hphys
      exact absurd rfl hphys
    · rw [hacc]
      exact hu

/-- Under an entry of the kernel an address is the kernel's. -/
theorem not_userAccess_of_kernel {r : Ram} {D : ℕ → Prop} {c d v : ℕ} (H : TableInv r D c)
    (hd : D d) (hv : v < 2 ^ 32) (hv0 : v / 2 ^ 22 ≠ 0) (hk : r.frame pageDirBase (v / 2 ^ 22) ≠ 0) :
    userAccess d v r = false := by
  obtain ⟨hp, hu⟩ := (H.kernel_pde (v / 2 ^ 22) (by omega)).resolve_left hk
  have hcopy : kernelCopy r (v / 2 ^ 22) = r.frame pageDirBase (v / 2 ^ 22) := if_pos ⟨hv0, hp, hu⟩
  rcases H.dir_pde d hd _ (show v / 2 ^ 22 < 1024 by omega) with h | ⟨h, -⟩
  · rw [userAccess, h, hcopy, Bool.eq_false_iff.mpr hu, Bool.and_false, Bool.false_and]
  · exact absurd (hcopy.symm.trans h) hk

/-- The kernel's directory has an entry over the stack window of one slot. -/
theorem kernelPdes_stack {r : Ram} (h : KernelPdes r) {slot v : ℕ} (hslot : slot < processMaxCount)
    (hlow : slotBase slot + userStackOffset ≤ v)
    (hhigh : v < slotBase slot + userStackOffset + userStackSize) :
    v / 2 ^ 22 ≠ 0 ∧ (r.frame pageDirBase (v / 2 ^ 22) = 0 ↔ slot ≠ 76) := by
  simp only [slotBase, processSlotSize, processAreaBase, userStackOffset, userStackSize,
    processMaxCount] at hslot hlow hhigh
  have htab : ¬KernelTables (v / 2 ^ 22) := by
    simp only [KernelTables, kheapPde, tempPde, storagePde]
    omega
  have hboot := (h (v / 2 ^ 22)).resolve_right fun h => htab h.1
  refine ⟨by omega, ?_⟩
  rw [hboot]
  by_cases h76 : slot = 76
  · have hv : v / 2 ^ 22 = 0x30000000 / 2 ^ 22 := by omega
    rw [hv]
    simp only [h76, ne_eq, not_true_eq_false, iff_false]
    decide
  · rw [bootDirectory, if_neg (by omega), if_neg (by omega), if_neg (by omega), if_neg (by omega),
      if_neg (by omega), if_neg (by omega)]
    exact ⟨fun _ => h76, fun _ => rfl⟩

/-! ### The running process -/

/-- The owner that the handler finds is the running process. -/
theorem Inv.sysenter_owner {w : World} {O : ℕ → Prop} {B : Items} {P : Multiset ℕ}
    (H : Inv w O B P) {p : ℕ} (hp : Live w.k p) (hrun : RunningTask w.k p)
    (htype : w.k.mem p procType = processTypeProtected32) :
    w.k.mem (sysenterEntryBase (w.k.gdt (w.k.tr % 2 ^ 16 / 8))) tssOwnerProcess = p := by
  have hC := H.complete p (H.live_iff.mp hp)
  rw [(decoders_eq_descriptorBase _).1, ← hrun.2, Nat.mod_mod, Nat.mod_eq_of_lt hC.sel_lt, hC.desc]
  rcases hC.kind with ⟨-, h, -⟩ | ⟨h, -⟩
  · exact h
  · rw [htype] at h
    exact absurd h (by decide)

/-- The stack of a protected process: its place, its selector and the base that
the processor finds behind it. -/
structure UserStack (k : Kernel) (p slot : ℕ) : Prop where
  slot_lt : slot < processMaxCount
  slotIndex : k.mem p procSlotIndex = slot
  base : k.mem p procSlotBase = slotBase slot
  ds_lt : k.mem p procUserDs < 2 ^ 16
  ss_lt : k.mem p procUserSs < 2 ^ 16
  user : k.mem p procUserSs &&& 7 = 7
  segment : (entryFields (entryByte (ldtEntry (ldtOf k p) (k.mem p procUserSs)))).base =
    slotBase slot + userStackOffset

theorem reach_userStack {w₀ w : World} (h₀ : Booted w₀) (h : Reach Careful w₀ w) {p : ℕ}
    (hp : Live w.k p) (htype : w.k.mem p procType = processTypeProtected32) :
    ∃ slot, UserStack w.k p slot := by
  obtain ⟨-, c, e, g, hS⟩ := reach_segments h₀ h hp htype
  obtain ⟨-, hlt, hbase⟩ := reach_placed h₀ h hp htype
  have hb := slotBase_lt hlt
  have hsel : ∀ {i : ℕ}, i < ldtEntryCount → i * 8 ||| 7 = 7 + i * 2 ^ 3 := fun {i} hi => by
    rw [Nat.or_comm, show i * 8 = i * 2 ^ 3 from rfl, or_mul_two_pow (by decide)]
  have hcount : ldtEntryCount = 512 := rfl
  have hdata := hS.data_lt
  have hstack := hS.stack_lt
  -- the two selectors are entries of the table at level 3
  refine ⟨_, hlt, rfl, hbase, ?_, ?_, ?_, ?_⟩
  · rw [hS.ds, hsel hdata]
    omega
  · rw [hS.ss, hsel hstack]
    omega
  · rw [hS.ss, Nat.and_two_pow_sub_one_eq_mod _ 3, hsel hstack]
    omega
  · -- the base that the stack entry holds
    have hentry : ldtEntry (ldtOf w.k p) (g * 8 ||| 7) =
        segmentDescriptor (add32 (w.k.mem p procSlotBase) userStackOffset) (userStackSize - 1) 0xF2 := by
      rw [ldtEntry, ldt_offset g hstack]
      exact hS.stack
    have hadd : add32 (w.k.mem p procSlotBase) userStackOffset =
        w.k.mem p procSlotBase + userStackOffset := by
      refine add32_of_lt ?_
      simp only [userStackOffset]
      omega
    have hlt32 : w.k.mem p procSlotBase + userStackOffset < 2 ^ 32 := by
      simp only [userStackOffset]
      omega
    rw [hS.ss, hentry, hadd, (segmentDescriptor_decodes hlt32 (by decide) (by decide)).base_eq, hbase]

/-! ### What the handler reads and where it returns to -/

/-- A frame on the stack of the process in `slot`. -/
structure FrameOf (k : Kernel) (p slot ebx : ℕ) : Prop where
  low : slotBase slot + userStackOffset ≤ ebx
  high : ebx + 8 ≤ slotBase slot + userStackOffset + userStackSize
  page : ∀ i < 8, (ebx + i) / pageSize = ebx / pageSize
  access : ∀ i < 8, userAccess (k.mem p procPageDir) (ebx + i) k.ram = true ↔ slot ≠ 76

/-- What passes the checks is a frame on the stack. -/
theorem Inv.frameOf {w : World} {O : ℕ → Prop} {B : Items} {P : Multiset ℕ} (H : Inv w O B P)
    {p slot ebx : ℕ} (hp : Live w.k p) (U : UserStack w.k p slot) {r : StorageRegisters}
    (h : sysenterFrameAddress w.k p r = some ebx) : FrameOf w.k p slot ebx := by
  obtain ⟨-, hecx, hebx, hlimit, hpage, hphys⟩ := sysenterFrameAddress_eq_some.mp h
  rw [U.base] at hebx
  have hsame : ∀ i < 8, (ebx + i) / pageSize = ebx / pageSize := fun i hi => by
    simp only [pageSize] at hpage ⊢
    omega
  refine ⟨by omega, by omega, hsame, fun i hi => ?_⟩
  rw [userAccess_page (hsame i hi)]
  have hdir := H.dir_mem (H.live_iff.mp hp)
  have hv : ebx < 2 ^ 32 := by
    simp only [userSpaceLimit] at hlimit
    omega
  obtain ⟨hv0, hk⟩ := kernelPdes_stack (v := ebx) H.pdes U.slot_lt (by omega) (by omega)
  constructor
  · rintro hu rfl
    rw [not_userAccess_of_kernel H.holds.ram.tables hdir hv hv0 fun h => hk.mp h rfl] at hu
    cases hu
  · intro hslot
    refine userAccess_of_translated H.holds.ram.tables hdir hv (hk.mpr hslot) fun hno => hphys ?_
    rw [hno]
    rfl

/-- The second half of the checks reads the eight bytes of the frame. -/
theorem sysenterFrameMatches_congr {k : Kernel} {esi ebx : ℕ} {r : StorageRegisters}
    {mem mem' : ℕ → ℕ} (h : ∀ i < 8, mem' (ebx + i) = mem (ebx + i)) :
    sysenterFrameMatches k esi r mem' ebx = sysenterFrameMatches k esi r mem ebx := by
  have hread : ∀ o n, o + n ≤ 8 → getLe mem' n (ebx + o) = getLe mem n (ebx + o) := fun o n hn =>
    getLe_congr fun i hi => by
      rw [Nat.add_assoc]
      exact h (o + i) (by omega)
  have h₀ := hread 0 4 (by decide)
  rw [Nat.add_zero] at h₀
  rw [sysenterFrameMatches, sysenterFrameMatches, h₀, hread 4 2 (by decide), hread 6 2 (by decide)]

/-- What the handler does for the running process. -/
theorem Inv.sysenter_eq {w : World} {O : ℕ → Prop} {B : Items} {P : Multiset ℕ} (H : Inv w O B P)
    {p : ℕ} (hp : Live w.k p) (hrun : RunningTask w.k p)
    (htype : w.k.mem p procType = processTypeProtected32) (storage : Option Service) (ret : ℕ)
    (r : StorageRegisters) (mem : ℕ → ℕ) : sysenterEntry w.k storage ret r mem =
      (sysenterFrameAddress w.k p r).bind fun ebx =>
        if sysenterFrameMatches w.k p r mem ebx = true then
          let r := sysexitRegisters r ebx ret (w.k.mem p procUserDs % 2 ^ 16)
          let res := sysenterDispatch storage r p mem
          some ⟨{ r with eax := res.1 }, w.k.mem p procUserDs % 2 ^ 16, res.2⟩
        else none := by
  unfold sysenterEntry
  dsimp only
  rw [H.sysenter_owner hp hrun htype, if_neg hp.1]
  cases sysenterFrameAddress w.k p r with
  | none => rfl
  | some ebx => simp only [Option.bind_some]

/-- **What SYSENTER touches for its caller.**  After boot and any calls and
interrupts let a protected process run and enter the kernel with any registers.
Either the handler reads nothing of the caller's, and halts; or it reads eight
bytes: they lie in one page of the caller's own stack segment, and the caller may
access them itself unless it has slot 76.  Whether the handler halts depends on
these bytes alone, and if it does not, it leaves with ECX at them, EDX at the
gateway, the data selector of the caller, and EBX, EBP, ESI and EDI as they were. -/
theorem sysenter_frame {w₀ w : World} (h₀ : Booted w₀) (h : Reach Careful w₀ w) {p : ℕ}
    (hp : Live w.k p) (hrun : RunningTask w.k p)
    (htype : w.k.mem p procType = processTypeProtected32) (storage : Option Service) (ret : ℕ)
    (r : StorageRegisters) :
    (sysenterFrameAddress w.k p r = none → ∀ mem, sysenterEntry w.k storage ret r mem = none) ∧
    (∀ ebx, sysenterFrameAddress w.k p r = some ebx →
      FrameOf w.k p (w.k.mem p procSlotIndex) ebx ∧
      ∀ mem mem', (∀ i < 8, mem' (ebx + i) = mem (ebx + i)) →
        (sysenterEntry w.k storage ret r mem').isSome = (sysenterEntry w.k storage ret r mem).isSome) ∧
    ∀ mem x, sysenterEntry w.k storage ret r mem = some x →
      sysenterFrameAddress w.k p r = some x.regs.ecx ∧ x.regs.edx = ret ∧
      x.ds = w.k.mem p procUserDs ∧ x.regs.ebx = r.ebx ∧ x.regs.ebp = r.ebp ∧
      x.regs.esi = r.esi ∧ x.regs.edi = r.edi := by
  obtain ⟨O, B, P, H⟩ := reach_inv h₀ h
  obtain ⟨slot, U⟩ := reach_userStack h₀ h hp htype
  have heq := H.sysenter_eq hp hrun htype storage ret r
  refine ⟨fun hnone mem => ?_, fun ebx hebx => ⟨?_, fun mem mem' hmem => ?_⟩, fun mem x hx => ?_⟩
  · rw [heq, hnone]
    rfl
  · rw [U.slotIndex]
    exact H.frameOf hp U hebx
  · rw [heq, heq, hebx, Option.bind_some, Option.bind_some, sysenterFrameMatches_congr hmem]
    split_ifs <;> rfl
  · rw [heq] at hx
    obtain ⟨ebx, hebx, hx⟩ := Option.bind_eq_some_iff.mp hx
    by_cases hm : sysenterFrameMatches w.k p r mem ebx = true
    · rw [if_pos hm] at hx
      obtain rfl := Option.some.inj hx
      exact ⟨hebx, rfl, Nat.mod_eq_of_lt U.ds_lt, rfl, rfl, rfl, rfl⟩
    · rw [if_neg hm] at hx
      cases hx

/-- A page of a directory's own has a physical address other than 0. -/
theorem getPhysicalAddress_owned {r : Ram} {O D : ℕ → Prop} {pend : Option ℕ} {c d v : ℕ}
    (H : RamInv r O D pend c) (hd : D d) (h : r.Owns d v) :
    (getPhysicalAddress d v r).getD 0 ≠ 0 := by
  obtain ⟨n, hown⟩ := h
  have hn : Allocatable n := H.pages.ok (.pte d _ _) n ⟨hd, hown⟩ nofun
  obtain ⟨t, ht, hpte⟩ := Option.bind_eq_some_iff.mp hown
  obtain ⟨-, hp, -, hps, haddr⟩ := tableOf_eq_some.mp ht
  split_ifs at hpte with hword
  have hpage := Option.some.inj hpte
  rw [getPhysicalAddress_table (dir_ne_zero H.tables hd) hp hps (by rw [haddr]), if_pos hword.2.1,
    Option.getD_some]
  intro hzero
  have haligned := pageAddr_aligned (r.frame t (pteIndex v))
  rw [or_offset haligned] at hzero
  have hlow := hn.1
  simp only [mainRamStart, pageSize, pteIndex] at hlow hpage hzero
  omega

/-- A process that has been loaded enters with a frame at the base of its stack page. -/
theorem sysenter_frame_first : ∃ w₀ w p r ebx, Booted w₀ ∧ Reach Careful w₀ w ∧ Live w.k p ∧
    RunningTask w.k p ∧ sysenterFrameAddress w.k p r = some ebx ∧
    FrameOf w.k p (w.k.mem p procSlotIndex) ebx := by
  obtain ⟨w₀, w, p, h₀, h, hp, hrun, htype, hslot, hstack, -⟩ := exists_loaded_running
  obtain ⟨O, B, P, H⟩ := reach_inv h₀ h
  obtain ⟨slot, U⟩ := reach_userStack h₀ h hp htype
  obtain rfl : slot = 0 := U.slotIndex.symm.trans hslot
  obtain ⟨r, hebp, hecx⟩ : ∃ r : StorageRegisters, r.ebp = w.k.mem p procUserSs ∧
      r.ecx = userStackSize - pageSize :=
    ⟨⟨0, 0, w.k.mem p procUserSs, 0, 0, 0, userStackSize - pageSize, 0⟩, rfl, rfl⟩
  have hphys := getPhysicalAddress_owned H.holds.ram (H.dir_mem (H.live_iff.mp hp)) hstack
  have hframe : sysenterFrameAddress w.k p r = some (stackPage 0) := by
    rw [sysenterFrameAddress_eq_some, hebp, hecx, U.base]
    exact ⟨⟨U.ss_lt, (Nat.mod_eq_of_lt U.ss_lt).symm, U.user⟩, by decide, by decide, by decide,
      by decide, hphys⟩
  exact ⟨w₀, w, p, r, stackPage 0, h₀, h, hp, hrun, hframe,
    ((sysenter_frame h₀ h hp hrun htype none 0 r).2.1 _ hframe).1⟩

end VirtualKernel
