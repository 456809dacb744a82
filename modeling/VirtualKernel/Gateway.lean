/-
The gateway of user mode, and a call through it.

A request that the kernel serves itself goes through `user_gateway_kernel`, which
leaves the frame for `sysenter_entry` on the stack of the process.  The gateway runs
in user mode: an access that the page tables do not allow it ends in a page fault,
with which the process is terminated.

* **`userGatewayKernel_eq`** — the gateway reaches SYSENTER exactly if user mode may
  write to the twelve bytes below ESP;
* **`storageSyscall_spares`** — `storage_syscall` leaves the stacks alone;
* **`gateway_call`** — the builder and the checker of the frame agree for every stack
  pointer but those for which the frame would cross a page; there the machine halts,
  elsewhere the call ends as an ordinary far call.
-/
import VirtualKernel.Sysenter
import VirtualKernel.StorageUser

namespace VirtualKernel

open Lib

/-! ### User mode -/

/-- Where user mode may read and write. -/
structure UserMode where
  reads : ℕ → Bool
  writes : ℕ → Bool

/-- The rights of the process `p`. -/
def userMode (k : Kernel) (p : ℕ) : UserMode where
  reads a := userReads (k.mem p procPageDir) a k.ram
  writes a := userWrites (k.mem p procPageDir) a k.ram

@[simp] theorem userMode_reads (k : Kernel) (p a : ℕ) :
    (userMode k p).reads a = userReads (k.mem p procPageDir) a k.ram := rfl

@[simp] theorem userMode_writes (k : Kernel) (p a : ℕ) :
    (userMode k p).writes a = userWrites (k.mem p procPageDir) a k.ram := rfl

/-- A store of `n` bytes; `none` is a page fault. -/
def UserMode.store (m : UserMode) (n a v : ℕ) (mem : ℕ → ℕ) : Option (ℕ → ℕ) :=
  if ∀ i < n, m.writes (a + i) = true then some (putLe mem n a v) else none

/-- A load of `n` bytes; `none` is a page fault. -/
def UserMode.load (m : UserMode) (n a : ℕ) (mem : ℕ → ℕ) : Option ℕ :=
  if ∀ i < n, m.reads (a + i) = true then some (getLe mem n a) else none

/-! ### The gateway -/

/-- The targets of `user_gateway_table`. -/
inductive GatewayTarget
  | unknown
  | kernel
  | keyboard
  | graphics
  | mouse
  | audio
deriving DecidableEq, Repr

/-- `user_gateway_table`. -/
def userGatewayTable : List GatewayTarget :=
  [.unknown, .kernel, .keyboard, .keyboard, .graphics, .kernel, .kernel, .kernel, .mouse, .mouse,
    .mouse, .graphics, .unknown, .audio]

/-- The jump of `user_syscall_gateway_blob`. -/
def userSyscallGateway (eax : ℕ) : GatewayTarget :=
  if 13 < eax then .unknown else userGatewayTable.getD eax .unknown

/-- The registers of user mode; ESP is an offset in the stack segment. -/
structure UserRegisters where
  eax : ℕ
  ebx : ℕ
  ecx : ℕ
  edx : ℕ
  esi : ℕ
  edi : ℕ
  ebp : ℕ
  esp : ℕ
  ss : ℕ

/-- `push v` within the limit of a stack segment with the given base. -/
def pushDword (m : UserMode) (base v : ℕ) (s : ℕ × (ℕ → ℕ)) : Option (ℕ × (ℕ → ℕ)) :=
  let esp := sub32 s.1 4
  (m.store 4 (base + esp) v s.2).map fun mem => (esp, mem)

/-- The PUSHAD image of the handler after `user_gateway_kernel`: ECX is the stack
pointer, EDX the address to return to and EBP the stack selector. -/
def gatewayRegisters (u : UserRegisters) (esp ret : ℕ) : StorageRegisters where
  edi := u.edi
  esi := u.esi
  ebp := u.ss
  ignoredEsp := 0
  ebx := u.ebx
  edx := ret
  ecx := esp
  eax := u.eax

/-- From `user_syscall_gateway_blob` through `user_gateway_kernel` to SYSENTER:
the PUSHAD image of the handler and the memory.  What was just pushed can be popped. -/
def userGatewayKernel (m : UserMode) (base ret : ℕ) (u : UserRegisters) (mem : ℕ → ℕ) :
    Option (StorageRegisters × (ℕ → ℕ)) := do
  -- push edx, pop edx around the jump
  let s ← pushDword m base u.edx (u.esp, mem)
  let s ← pushDword m base u.ebp (add32 s.1 4, s.2)
  -- push eax, pop eax around the load of SS
  let t ← pushDword m base u.eax s
  let ecx := add32 t.1 4
  let esp := sub32 ecx 8
  let mem ← m.store 4 (base + esp) ecx t.2
  let mem ← m.store 2 (base + esp + 4) u.ss mem
  let mem ← m.store 2 (base + esp + 6) 0 mem
  return (gatewayRegisters u esp ret, mem)

/-- What a far return from the gateway restores. -/
structure FarReturn where
  eax : ℕ
  ebp : ℕ
  esp : ℕ
  ss : ℕ
  eip : ℕ
  cs : ℕ
deriving DecidableEq

/-- `user_gateway_unknown`, with the push of EDX before the jump. -/
def userGatewayUnknown (m : UserMode) (base : ℕ) (u : UserRegisters) (mem : ℕ → ℕ) :
    Option FarReturn := do
  let s ← pushDword m base u.edx (u.esp, mem)
  let esp := add32 s.1 4
  let eip ← m.load 4 (base + esp) s.2
  let cs ← m.load 2 (base + esp + 4) s.2
  return { eax := 0xFFFFFFFE, ebp := u.ebp, esp := add32 esp 8, ss := u.ss, eip, cs }

/-- `user_syscall_gateway_blob_return` after SYSEXIT: LSS, POP EBP, RETF.
`segmentBase` is the base that the processor finds behind a stack selector. -/
def userGatewayReturn (m : UserMode) (segmentBase : ℕ → ℕ) (x : Sysexit) : Option FarReturn := do
  let esp ← m.load 4 x.regs.ecx x.mem
  let ss ← m.load 2 (x.regs.ecx + 4) x.mem
  let base := segmentBase ss
  let ebp ← m.load 4 (base + esp) x.mem
  let esp := add32 esp 4
  let eip ← m.load 4 (base + esp) x.mem
  let cs ← m.load 2 (base + esp + 4) x.mem
  return { eax := x.regs.eax, ebp, esp := add32 esp 8, ss, eip, cs }

/-- How a call of the gateway ends. -/
inductive GatewayEnd
  | faulted
  | halted
  | returned (x : FarReturn)

/-- A page fault of user mode terminates the process. -/
def GatewayEnd.ofUser : Option FarReturn → GatewayEnd
  | none => .faulted
  | some x => .returned x

/-- The base that the processor finds behind a selector of a local table. -/
def segmentBase (l : ℕ → ℕ) (sel : ℕ) : ℕ := (entryFields (entryByte (ldtEntry l sel))).base

/-- A request of the process `p`, from the call of the gateway to its far return.
`driver` are the requests that go through a call gate instead. -/
def gatewayCall (driver : UserRegisters → (ℕ → ℕ) → GatewayEnd) (k : Kernel) (p : ℕ)
    (storage : Option Service) (ret : ℕ) (u : UserRegisters) (mem : ℕ → ℕ) : GatewayEnd :=
  let m := userMode k p
  let base := segmentBase (ldtOf k p) u.ss
  match userSyscallGateway u.eax with
  | .kernel =>
    match userGatewayKernel m base ret u mem with
    | none => .faulted
    | some (r, mem) =>
      match sysenterEntry k storage ret r mem with
      | none => .halted
      | some x => .ofUser (userGatewayReturn m (segmentBase (ldtOf k p)) x)
  | .unknown => .ofUser (userGatewayUnknown m base u mem)
  | _ => driver u mem

/-- The requests that the gateway hands to the kernel are those that the handler
serves. -/
theorem userSyscallGateway_kernel {eax : ℕ} : userSyscallGateway eax = .kernel ↔
    eax = syscallVgaWrite ∨ 5 ≤ eax ∧ eax ≤ 7 := by
  have hall : ∀ eax < 14, userSyscallGateway eax = .kernel ↔
      eax = syscallVgaWrite ∨ 5 ≤ eax ∧ eax ≤ 7 := by decide
  by_cases h : eax < 14
  · exact hall eax h
  · rw [userSyscallGateway, if_pos (by omega)]
    simp only [syscallVgaWrite, reduceCtorEq, false_iff]
    omega

/-! ### The frame of the gateway -/

section Frame

variable {m : UserMode} {base esp ret : ℕ} {u : UserRegisters} {mem mem' : ℕ → ℕ}

/-- User mode may write to the twelve bytes that the gateway pushes from `a` on. -/
def Pushes (m : UserMode) (a : ℕ) : Prop := ∀ i < 12, m.writes (a + i) = true

instance (m : UserMode) (a : ℕ) : Decidable (Pushes m a) := by
  unfold Pushes
  infer_instance

/-- The memory after the stores of the gateway: EDX and then EBP, EAX, and the frame. -/
def gatewayMemory (base esp : ℕ) (u : UserRegisters) (mem : ℕ → ℕ) : ℕ → ℕ :=
  putLe (putLe (putLe (putLe (putLe (putLe mem 4 (base + (esp + 8)) u.edx) 4
    (base + (esp + 8)) u.ebp) 4 (base + (esp + 4)) u.eax) 4 (base + esp) (esp + 8)) 2
    (base + esp + 4) u.ss) 2 (base + esp + 6) 0

/-- Four bytes of them. -/
theorem Pushes.word {o : ℕ} (h : Pushes m (base + esp)) (ho : o ≤ 8) :
    ∀ i < 4, m.writes (base + (esp + o) + i) = true := by
  intro i hi
  have hbyte := h (o + i) (by omega)
  rwa [show base + esp + (o + i) = base + (esp + o) + i by omega] at hbyte

theorem UserMode.store_eq {n a v : ℕ} (h : ∀ i < n, m.writes (a + i) = true) :
    m.store n a v mem = some (putLe mem n a v) := if_pos h

/-- A push that is allowed. -/
theorem pushDword_eq {v sp : ℕ} (hsp : sp = esp + 4) (h32 : sp < 2 ^ 32)
    (h : ∀ i < 4, m.writes (base + esp + i) = true) :
    pushDword m base v (sp, mem) = some (esp, putLe mem 4 (base + esp) v) := by
  have hsub : sub32 sp 4 = esp := by
    rw [sub32_of_le (by omega) h32]
    omega
  rw [pushDword, hsub, UserMode.store_eq h]
  rfl

/-- A push that is not. -/
theorem pushDword_fault {v sp : ℕ} (hsp : sp = esp + 4) (h32 : sp < 2 ^ 32)
    (h : ¬∀ i < 4, m.writes (base + esp + i) = true) : pushDword m base v (sp, mem) = none := by
  have hsub : sub32 sp 4 = esp := by
    rw [sub32_of_le (by omega) h32]
    omega
  rw [pushDword, hsub, UserMode.store, if_neg h]
  rfl

/-- **The gateway** builds the frame twelve bytes below the return address, or faults. -/
theorem userGatewayKernel_eq (hesp : u.esp = esp + 12) (h32 : esp + 12 < 2 ^ 32) :
    userGatewayKernel m base ret u mem = if Pushes m (base + esp) then
      some (gatewayRegisters u esp ret, gatewayMemory base esp u mem) else none := by
  have e₁ : add32 (esp + 8) 4 = esp + 12 := add32_of_lt (by omega)
  have e₂ : add32 (esp + 4) 4 = esp + 8 := add32_of_lt (by omega)
  have e₃ : sub32 (esp + 8) 8 = esp := sub32_of_le (by omega) (by omega)
  -- EDX and EBP go to the same word, EAX to the one below it, the frame to the lowest two
  by_cases h₈ : ∀ i < 4, m.writes (base + (esp + 8) + i) = true
  swap
  · rw [userGatewayKernel, pushDword_fault (show u.esp = esp + 8 + 4 from hesp) (by omega) h₈,
      if_neg fun h : Pushes m (base + esp) => h₈ (h.word (by decide))]
    rfl
  have push₁ : pushDword m base u.edx (u.esp, mem) =
      some (esp + 8, putLe mem 4 (base + (esp + 8)) u.edx) := pushDword_eq hesp (by omega) h₈
  have push₂ : ∀ mem, pushDword m base u.ebp (esp + 12, mem) =
      some (esp + 8, putLe mem 4 (base + (esp + 8)) u.ebp) := fun mem =>
    pushDword_eq rfl (by omega) h₈
  by_cases h₄ : ∀ i < 4, m.writes (base + (esp + 4) + i) = true
  swap
  · have push₃ : ∀ mem, pushDword m base u.eax (esp + 8, mem) = none := fun mem =>
      pushDword_fault rfl (by omega) h₄
    simp only [userGatewayKernel, push₁, Option.bind_eq_bind, Option.bind_some, e₁, push₂, push₃,
      Option.bind_none]
    rw [if_neg fun h : Pushes m (base + esp) => h₄ (h.word (by decide))]
  have push₃ : ∀ mem, pushDword m base u.eax (esp + 8, mem) =
      some (esp + 4, putLe mem 4 (base + (esp + 4)) u.eax) := fun mem =>
    pushDword_eq rfl (by omega) h₄
  by_cases h₀ : ∀ i < 4, m.writes (base + esp + i) = true
  swap
  · have hstore : ∀ v mem, m.store 4 (base + esp) v mem = none := fun v mem => if_neg h₀
    simp only [userGatewayKernel, push₁, Option.bind_eq_bind, Option.bind_some, e₁, push₂, push₃,
      e₂, e₃, hstore, Option.bind_none]
    rw [if_neg fun h : Pushes m (base + esp) => h₀ fun i hi => h i (by omega)]
  have hall : Pushes m (base + esp) := by
    intro i hi
    rcases (show i < 4 ∨ (4 ≤ i ∧ i < 8) ∨ 8 ≤ i by omega) with hlow | hmid | hhigh
    · exact h₀ i hlow
    · have hbyte := h₄ (i - 4) (by omega)
      rwa [show base + (esp + 4) + (i - 4) = base + esp + i by omega] at hbyte
    · have hbyte := h₈ (i - 8) (by omega)
      rwa [show base + (esp + 8) + (i - 8) = base + esp + i by omega] at hbyte
  have store₁ : ∀ v mem, m.store 4 (base + esp) v mem = some (putLe mem 4 (base + esp) v) :=
    fun v mem => UserMode.store_eq h₀
  have store₂ : ∀ v mem, m.store 2 (base + esp + 4) v mem = some (putLe mem 2 (base + esp + 4) v) :=
    fun v mem => UserMode.store_eq fun i hi => by
      rw [Nat.add_assoc]
      exact hall (4 + i) (by omega)
  have store₃ : ∀ v mem, m.store 2 (base + esp + 6) v mem = some (putLe mem 2 (base + esp + 6) v) :=
    fun v mem => UserMode.store_eq fun i hi => by
      rw [Nat.add_assoc]
      exact hall (6 + i) (by omega)
  simp only [userGatewayKernel, push₁, Option.bind_eq_bind, Option.bind_some, e₁, push₂, push₃,
    e₂, e₃, store₁, store₂, store₃]
  rw [if_pos hall]
  rfl

/-- The stack of the caller when the gateway enters the kernel: the frame at `a`,
EBP above it, and the return address of the call. -/
structure GatewayStack (a esp : ℕ) (u : UserRegisters) (mem mem' : ℕ → ℕ) : Prop where
  frameEsp : getLe mem' 4 a = esp + 8
  frameSs : getLe mem' 2 (a + 4) = u.ss
  frameZero : getLe mem' 2 (a + 6) = 0
  ebp : getLe mem' 4 (a + 8) = u.ebp
  eip : getLe mem' 4 (a + 12) = getLe mem 4 (a + 12)
  cs : getLe mem' 2 (a + 16) = getLe mem 2 (a + 16)

/-- A memory with the same twenty bytes has the same stack. -/
theorem GatewayStack.congr {a : ℕ} {mem'' : ℕ → ℕ} (h : GatewayStack a esp u mem mem')
    (hsame : ∀ x, a ≤ x → x < a + 20 → mem'' x = mem' x) : GatewayStack a esp u mem mem'' := by
  have hread : ∀ o n, o + n ≤ 20 → getLe mem'' n (a + o) = getLe mem' n (a + o) := fun o n hn =>
    getLe_congr fun i hi => hsame _ (by omega) (by omega)
  have h₀ := hread 0 4 (by decide)
  rw [Nat.add_zero] at h₀
  exact ⟨h₀.trans h.frameEsp, (hread 4 2 (by decide)).trans h.frameSs,
    (hread 6 2 (by decide)).trans h.frameZero, (hread 8 4 (by decide)).trans h.ebp,
    (hread 12 4 (by decide)).trans h.eip, (hread 16 2 (by decide)).trans h.cs⟩

/-- The memory of the gateway shows this stack. -/
theorem gatewayMemory_stack (h32 : esp + 8 < 2 ^ 32) (hebp : u.ebp < 2 ^ 32) (hss : u.ss < 2 ^ 16) :
    GatewayStack (base + esp) esp u mem (gatewayMemory base esp u mem) := by
  rw [gatewayMemory]
  refine ⟨?_, ?_, ?_, ?_, ?_, ?_⟩
  · rw [getLe_putLe_of_disjoint (by omega), getLe_putLe_of_disjoint (by omega), getLe_putLe]
    exact Nat.mod_eq_of_lt (by omega)
  · rw [getLe_putLe_of_disjoint (by omega), getLe_putLe]
    exact Nat.mod_eq_of_lt hss
  · rw [getLe_putLe, Nat.zero_mod]
  · rw [Nat.add_assoc base esp 8, getLe_putLe_of_disjoint (by omega),
      getLe_putLe_of_disjoint (by omega), getLe_putLe_of_disjoint (by omega),
      getLe_putLe_of_disjoint (by omega), getLe_putLe]
    exact Nat.mod_eq_of_lt hebp
  · simp (disch := omega) only [getLe_putLe_of_disjoint]
  · simp (disch := omega) only [getLe_putLe_of_disjoint]

/-- The gateway changes the twelve bytes only, to bytes. -/
theorem gatewayMemory_outside {x : ℕ} (hx : x < base + esp ∨ base + esp + 12 ≤ x) :
    gatewayMemory base esp u mem x = mem x := by
  rw [gatewayMemory, putLe_of_outside (by omega), putLe_of_outside (by omega),
    putLe_of_outside (by omega), putLe_of_outside (by omega), putLe_of_outside (by omega),
    putLe_of_outside (by omega)]

theorem gatewayMemory_byte (hmem : ∀ x, mem x < 2 ^ 8) (x : ℕ) :
    gatewayMemory base esp u mem x < 2 ^ 8 :=
  putLe_byte (putLe_byte (putLe_byte (putLe_byte (putLe_byte (putLe_byte hmem))))) x

/-- User mode may read the return address at `a`. -/
def Pops (m : UserMode) (a : ℕ) : Prop := ∀ i < 6, m.reads (a + i) = true

instance (m : UserMode) (a : ℕ) : Decidable (Pops m a) := by
  unfold Pops
  infer_instance

theorem UserMode.load_eq {n a : ℕ} (h : ∀ i < n, m.reads (a + i) = true) :
    m.load n a mem = some (getLe mem n a) := if_pos h

/-- **The gateway takes the frame down** and returns to the caller, or faults at the return
address. -/
theorem userGatewayReturn_eq {segment : ℕ → ℕ} {x : Sysexit} (hbase : segment u.ss = base)
    (h32 : esp + 20 < 2 ^ 32) (hecx : x.regs.ecx = base + esp)
    (hreads : ∀ i < 12, m.reads (base + esp + i) = true)
    (h : GatewayStack (base + esp) esp u mem x.mem) : userGatewayReturn m segment x =
      if Pops m (base + esp + 12) then
        some { eax := x.regs.eax, ebp := u.ebp, esp := esp + 20, ss := u.ss
               eip := getLe mem 4 (base + esp + 12), cs := getLe mem 2 (base + esp + 16) }
      else none := by
  have e₁ : add32 (esp + 8) 4 = esp + 12 := add32_of_lt (by omega)
  have e₂ : add32 (esp + 12) 8 = esp + 20 := add32_of_lt (by omega)
  have a₁ : base + (esp + 8) = base + esp + 8 := by omega
  have a₂ : base + (esp + 12) = base + esp + 12 := by omega
  -- the frame has been read by the handler already, so the caller may read it
  have hpart : ∀ o n, o + n ≤ 12 → ∀ i < n, m.reads (base + esp + o + i) = true := by
    intro o n hon i hi
    rw [Nat.add_assoc]
    exact hreads (o + i) (by omega)
  have load₁ : m.load 4 (base + esp) x.mem = some (esp + 8) := by
    rw [UserMode.load_eq fun i hi => hreads i (by omega), h.frameEsp]
  have load₂ : m.load 2 (base + esp + 4) x.mem = some u.ss := by
    rw [UserMode.load_eq (hpart 4 2 (by decide)), h.frameSs]
  have load₃ : m.load 4 (base + esp + 8) x.mem = some u.ebp := by
    rw [UserMode.load_eq (hpart 8 4 (by decide)), h.ebp]
  simp only [userGatewayReturn, hecx, load₁, Option.bind_eq_bind, Option.bind_some, load₂, hbase, a₁,
    load₃, e₁, a₂, e₂]
  by_cases hpops : Pops m (base + esp + 12)
  · have load₄ : m.load 4 (base + esp + 12) x.mem = some (getLe mem 4 (base + esp + 12)) := by
      rw [UserMode.load_eq fun i hi => hpops i (by omega), h.eip]
    have load₅ : m.load 2 (base + esp + 16) x.mem = some (getLe mem 2 (base + esp + 16)) := by
      rw [UserMode.load_eq fun i hi => ?_, h.cs]
      rw [show base + esp + 16 + i = base + esp + 12 + (4 + i) by omega]
      exact hpops (4 + i) (by omega)
    rw [if_pos hpops, load₄, Option.bind_some, load₅]
    rfl
  · -- the far return faults at its first or at its second word
    rw [if_neg hpops]
    by_cases h₄ : ∀ i < 4, m.reads (base + esp + 12 + i) = true
    swap
    · rw [UserMode.load, if_neg h₄]
      rfl
    by_cases h₂ : ∀ i < 2, m.reads (base + esp + 16 + i) = true
    swap
    · rw [UserMode.load_eq h₄, Option.bind_some, UserMode.load, if_neg h₂]
      rfl
    refine absurd (fun i hi => ?_) hpops
    by_cases hi₄ : i < 4
    · exact h₄ i hi₄
    · have hbyte := h₂ (i - 4) (by omega)
      rwa [show base + esp + 16 + (i - 4) = base + esp + 12 + i by omega] at hbyte

end Frame

/-! ### The storage service -/

/-- **`storage_syscall`** leaves the stack segments of the processes alone: it writes to the
data segment of its caller and to the memory of the driver. -/
theorem storageSyscall_spares {s₀ s t : Storage} (h₀ : StorageBoot s₀) (h : StorageRun s₀ s)
    {r : StorageRegisters} {owner a slot b : ℕ} (hrun : (storageSyscall r owner).run s = some (a, t))
    (hslot : processWord s.mem owner procSlotWord = slotBase slot) (hcount : slot < processMaxCount)
    (hlow : slotBase slot + userStackOffset ≤ b)
    (hhigh : b < slotBase slot + userStackOffset + userStackSize) : t.mem b = s.mem b := by
  have hpost := storageSyscall_spec (h.served h₀.inv).inv r owner a t hrun
  have hown : ¬Own b := by
    simp only [Own, InDma, dmaBase, dmaSize, bootReport, storageMmioBase]
    simp only [slotBase, processSlotSize, processAreaBase, userStackOffset, userStackSize,
      processMaxCount] at hlow hhigh hcount
    omega
  by_cases hok : a ≠ storageOk ∨ r.eax ≠ syscallStorageInfo ∧ r.eax ≠ syscallStorageRead
  · exact hpost.refused hok b hown
  rw [not_or, not_not] at hok
  obtain ⟨buffer, h0, hout, -, -, hrest, -⟩ := hpost.answered hok.1 (by omega)
  -- the buffer is in the data segment, which ends where the stack segment begins
  obtain ⟨buffer', hout', hiff, heq⟩ := userOutput_spec owner r.edi r.size s
  obtain rfl : buffer = buffer' := (Prod.mk.inj (Option.some.inj (hout.symm.trans hout'))).1
  obtain ⟨-, hsegment⟩ := (hiff.mp h0).segment
  refine hrest b hown ?_
  rw [heq h0, dataAddress, hslot]
  simp only [userStackOffset] at hlow
  omega

/-- `mem` is a memory of bytes that shows the slot of the process `p`. -/
structure ShowsProcess (k : Kernel) (p : ℕ) (mem : ℕ → ℕ) : Prop where
  byte : ∀ a, mem a < 2 ^ 8
  slot : getLe mem 4 (p + procSlotBase) = k.mem p procSlotBase

/-- `serve` is `storage_syscall` for the process `p`, in calls that return: each call finds
the driver in some state of its runs. -/
def IsStorageSyscall (p : ℕ) (serve : Service) : Prop :=
  ∀ r mem, (∀ a, mem a < 2 ^ 8) → ∃ s₀ s t a, StorageBoot s₀ ∧ StorageRun s₀ s ∧
    (∀ b, (s.mem b).toNat = mem b) ∧ (storageSyscall r p).run s = some (a, t) ∧
    serve r p mem = (a, fun b => (t.mem b).toNat)

theorem word_eq_getLe {m : ℕ → UInt8} {mem : ℕ → ℕ} (h : ∀ b, (m b).toNat = mem b) (a : ℕ) :
    word m a = getLe mem 4 a := by
  have hbyte : ∀ b, mem b % 2 ^ 8 = (m b).toNat := fun b => by
    rw [← h b]
    exact Nat.mod_eq_of_lt (m b).toNat_lt
  simp only [word, getLe, hbyte, Nat.add_assoc, Nat.reduceAdd]
  omega

section Service

variable {k : Kernel} {p slot b : ℕ} {mem : ℕ → ℕ}

theorem IsStorageSyscall.spares {serve : Service} (h : IsStorageSyscall p serve)
    (hmem : ShowsProcess k p mem) (hslot : k.mem p procSlotBase = slotBase slot)
    (hcount : slot < processMaxCount) (hlow : slotBase slot + userStackOffset ≤ b)
    (hhigh : b < slotBase slot + userStackOffset + userStackSize) (r : StorageRegisters) :
    (serve r p mem).2 b = mem b := by
  obtain ⟨s₀, s, t, a, h₀, hrun, hsame, hcall, hserve⟩ := h r mem hmem.byte
  have hword : processWord s.mem p procSlotWord = slotBase slot := by
    rw [processWord, word_eq_getLe hsame, ← hslot]
    exact hmem.slot
  rw [hserve, ← hsame b]
  exact congrArg UInt8.toNat (storageSyscall_spares h₀ hrun hcall hword hcount hlow hhigh)

/-- **The requests** leave the stack alone: the screen is in the kernel's half. -/
theorem sysenterDispatch_spares {storage : Option Service}
    (hstorage : ∀ serve ∈ storage, IsStorageSyscall p serve) (hmem : ShowsProcess k p mem)
    (hslot : k.mem p procSlotBase = slotBase slot) (hcount : slot < processMaxCount)
    (hlow : slotBase slot + userStackOffset ≤ b)
    (hhigh : b < slotBase slot + userStackOffset + userStackSize) (r : StorageRegisters) :
    (sysenterDispatch storage r p mem).2 b = mem b := by
  have hvga : b < kernelVgaVirt := by
    have hlt := slotBase_lt hcount
    simp only [userStackOffset, userStackSize] at hhigh
    simp only [kernelVgaVirt]
    omega
  unfold sysenterDispatch
  split_ifs
  · rfl
  · cases storage with
    | none => rfl
    | some serve => exact (hstorage serve rfl).spares hmem hslot hcount hlow hhigh r
  · rfl
  · rfl
  · dsimp only
    rw [Function.update_of_ne (by omega), Function.update_of_ne (by omega)]

end Service

/-! ### The call -/

/-- Where the gateway puts the frame of `p`. -/
def gatewayFrame (k : Kernel) (p : ℕ) (u : UserRegisters) : ℕ :=
  segmentBase (ldtOf k p) u.ss + u.esp - 12

/-- A call of the gateway by the process `p`: a request for the kernel, on an aligned
stack with room for what the gateway pushes. -/
structure KernelRequest (k : Kernel) (p : ℕ) (u : UserRegisters) : Prop where
  request : u.eax = syscallVgaWrite ∨ 5 ≤ u.eax ∧ u.eax ≤ 7
  ss : u.ss = k.mem p procUserSs
  ebp : u.ebp < 2 ^ 32
  aligned : u.esp % 4 = 0
  low : 12 ≤ u.esp
  high : u.esp + 8 ≤ userStackSize

/-- The handler looks at the frame of the gateway, or at nothing. -/
theorem UserStack.gateway_frame {k : Kernel} {p slot esp : ℕ} {u : UserRegisters}
    (U : UserStack k p slot) (R : KernelRequest k p u) (ret ebx : ℕ) (hesp : u.esp = esp + 12) :
    sysenterFrameAddress k p (gatewayRegisters u esp ret) = some ebx ↔
      ebx = slotBase slot + userStackOffset + esp ∧ u.esp % pageSize ≠ 8 ∧
      (getPhysicalAddress (k.mem p procPageDir) (slotBase slot + userStackOffset + esp) k.ram).getD 0
        ≠ 0 := by
  have hb := slotBase_lt U.slot_lt
  have hlimit : userSpaceLimit = 2 ^ 31 := rfl
  have hsize : userStackSize = 2 ^ 20 := rfl
  have hoff : userStackOffset = 0x900000 := rfl
  have hpage : (slotBase slot + userStackOffset) % pageSize = 0 := by
    simp only [slotBase, processSlotSize, processAreaBase, userStackOffset, pageSize]
    omega
  have halign := R.aligned
  have hhigh := R.high
  have hss_lt : u.ss < 2 ^ 16 := R.ss ▸ U.ss_lt
  have hecx : (gatewayRegisters u esp ret).ecx = esp := rfl
  have hebp : (gatewayRegisters u esp ret).ebp = u.ss := rfl
  rw [sysenterFrameAddress_eq_some, hecx, hebp, U.base, ← R.ss, Nat.mod_eq_of_lt hss_lt,
    Nat.add_comm esp (slotBase slot + userStackOffset)]
  simp only [pageSize] at hpage ⊢
  constructor
  · rintro ⟨-, -, rfl, -, hcross, hphys⟩
    exact ⟨rfl, by omega, hphys⟩
  · rintro ⟨rfl, hcross, hphys⟩
    exact ⟨⟨hss_lt, trivial, R.ss ▸ U.user⟩, by omega, rfl, by omega, by omega, hphys⟩

/-- The gateway leaves the process object alone, which is in the kernel's half. -/
theorem Inv.gatewayMemory_shows {w : World} {O : ℕ → Prop} {B : Items} {P : Multiset ℕ}
    (H : Inv w O B P) {p base esp : ℕ} (hp : Live w.k p) (hlimit : base + esp + 12 ≤ userSpaceLimit)
    {u : UserRegisters} {mem : ℕ → ℕ} (hmem : ShowsProcess w.k p mem) :
    ShowsProcess w.k p (gatewayMemory base esp u mem) := by
  have hrange := H.holds.block_range (H.mem_items (H.live_iff.mp hp) (block_mem_procItems _ _))
  simp only [kheapBase, userSpaceLimit] at hrange hlimit
  refine ⟨gatewayMemory_byte hmem.byte, ?_⟩
  rw [← hmem.slot]
  exact getLe_congr fun i _ => gatewayMemory_outside (by omega)

/-- How a request ends: the gateway faults if it may not write its frame; the handler halts
the machine if the frame crosses a page or is at the physical address 0; the return faults if
the return address cannot be read. -/
theorem Inv.gatewayCall_eq {w : World} {O : ℕ → Prop} {B : Items} {P : Multiset ℕ}
    (H : Inv w O B P) {p slot : ℕ} (hp : Live w.k p) (hrun : RunningTask w.k p)
    (htype : w.k.mem p procType = processTypeProtected32) (U : UserStack w.k p slot)
    (driver : UserRegisters → (ℕ → ℕ) → GatewayEnd) {storage : Option Service}
    (hstorage : ∀ serve ∈ storage, IsStorageSyscall p serve) (ret : ℕ) {u : UserRegisters}
    (R : KernelRequest w.k p u) {mem : ℕ → ℕ} (hmem : ShowsProcess w.k p mem) :
    ∃ eax, gatewayCall driver w.k p storage ret u mem =
      if Pushes (userMode w.k p) (gatewayFrame w.k p u) then
        if u.esp % pageSize = 8 ∨
            getPhysicalAddress (w.k.mem p procPageDir) (gatewayFrame w.k p u) w.k.ram = some 0 then
          .halted
        else if Pops (userMode w.k p) (gatewayFrame w.k p u + 12) then
          .returned { eax, ebp := u.ebp, esp := u.esp + 8, ss := u.ss
                      eip := getLe mem 4 (gatewayFrame w.k p u + 12)
                      cs := getLe mem 2 (gatewayFrame w.k p u + 16) }
        else .faulted
      else .faulted := by
  have hlow := R.low
  have hhigh := R.high
  obtain ⟨esp, hesp⟩ : ∃ esp, u.esp = esp + 12 := ⟨u.esp - 12, by omega⟩
  have hsize : userStackSize = 2 ^ 20 := rfl
  have hoff : userStackOffset = 0x900000 := rfl
  have hb := slotBase_lt U.slot_lt
  have hseg : segmentBase (ldtOf w.k p) u.ss = slotBase slot + userStackOffset := by
    rw [R.ss]
    exact U.segment
  have hss_lt : u.ss < 2 ^ 16 := R.ss ▸ U.ss_lt
  have hframe : gatewayFrame w.k p u = slotBase slot + userStackOffset + esp := by
    rw [gatewayFrame, hseg, hesp]
    omega
  rw [hframe]
  set base := slotBase slot + userStackOffset with hbase
  have hlimit : base + esp + 20 ≤ userSpaceLimit := by
    simp only [userSpaceLimit]
    omega
  rw [gatewayCall, userSyscallGateway_kernel.mpr R.request]
  dsimp only
  rw [hseg, userGatewayKernel_eq hesp (by omega)]
  by_cases hpush : Pushes (userMode w.k p) (base + esp)
  swap
  · exact ⟨0, by rw [if_neg hpush, if_neg hpush]⟩
  simp only [if_pos hpush]
  rw [H.sysenter_eq hp hrun htype]
  -- what can be written can be read, so the frame is mapped
  have hreads : ∀ i < 12, (userMode w.k p).reads (base + esp + i) = true := by
    intro i hi
    have hw := hpush i hi
    rw [userMode_writes, userWrites, Bool.and_eq_true, Bool.and_eq_true] at hw
    exact hw.1.1
  have hmapped : (getPhysicalAddress (w.k.mem p procPageDir) (base + esp) w.k.ram).isSome = true := by
    have hr := hreads 0 (by decide)
    rw [userMode_reads, userReads, Bool.and_eq_true] at hr
    exact hr.1
  obtain ⟨phys, hphys⟩ := Option.isSome_iff_exists.mp hmapped
  have haddr := fun ebx => U.gateway_frame R ret ebx hesp
  rw [hphys] at haddr ⊢
  by_cases hbad : u.esp % pageSize = 8 ∨ some phys = some 0
  · have hnone : sysenterFrameAddress w.k p (gatewayRegisters u esp ret) = none := by
      refine Option.eq_none_iff_forall_ne_some.mpr fun ebx h => ?_
      obtain ⟨-, hcross, hzero⟩ := (haddr ebx).mp h
      rcases hbad with hbad | hbad
      · exact hcross hbad
      · exact hzero (Option.some.inj hbad)
    rw [hnone]
    exact ⟨0, by rw [if_pos hbad]; rfl⟩
  rw [not_or] at hbad
  have hsome : sysenterFrameAddress w.k p (gatewayRegisters u esp ret) = some (base + esp) :=
    (haddr _).mpr ⟨rfl, hbad.1, fun hz => hbad.2 (congrArg some hz)⟩
  have hstack : GatewayStack (base + esp) esp u mem (gatewayMemory base esp u mem) :=
    gatewayMemory_stack (by omega) R.ebp hss_lt
  have hmatch : sysenterFrameMatches w.k p (gatewayRegisters u esp ret)
      (gatewayMemory base esp u mem) (base + esp) = true := by
    rw [sysenterFrameMatches, decide_eq_true_eq, ← R.ss, Nat.mod_eq_of_lt hss_lt]
    exact ⟨hstack.frameEsp.trans (add32_of_lt (show esp + 8 < 2 ^ 32 by omega)).symm, hstack.frameSs,
      hstack.frameZero⟩
  rw [hsome, Option.bind_some, if_pos hmatch]
  simp only [if_neg (not_or.mpr hbad)]
  -- the service has left the stack as it was
  have hshows := H.gatewayMemory_shows (u := u) hp (by omega : base + esp + 12 ≤ _) hmem
  set x := sysexitRegisters (gatewayRegisters u esp ret) (base + esp) ret
    (w.k.mem p procUserDs % 2 ^ 16) with hx
  have hstack' := hstack.congr fun a h1 h2 => sysenterDispatch_spares hstorage hshows U.base U.slot_lt
    (show slotBase slot + userStackOffset ≤ a by omega) (by omega) x
  refine ⟨(sysenterDispatch storage x p (gatewayMemory base esp u mem)).1, ?_⟩
  rw [userGatewayReturn_eq (u := u) hseg (by omega) rfl hreads hstack', hesp]
  by_cases hpops : Pops (userMode w.k p) (base + esp + 12)
  · rw [if_pos hpops, if_pos hpops]
    rfl
  · rw [if_neg hpops, if_neg hpops]
    rfl

/-- The stack of slot 76 is under a large page of the kernel. -/
theorem Inv.pushes_slot {w : World} {O : ℕ → Prop} {B : Items} {P : Multiset ℕ} (H : Inv w O B P)
    {p slot : ℕ} (hp : Live w.k p) (U : UserStack w.k p slot) {u : UserRegisters}
    (R : KernelRequest w.k p u) (h : Pushes (userMode w.k p) (gatewayFrame w.k p u)) : slot ≠ 76 := by
  intro h76
  have hlow := R.low
  have hhigh := R.high
  have hseg : segmentBase (ldtOf w.k p) u.ss = slotBase slot + userStackOffset := by
    rw [R.ss]
    exact U.segment
  have hb := slotBase_lt U.slot_lt
  have hsize : userStackSize = 2 ^ 20 := rfl
  have hoff : userStackOffset = 0x900000 := rfl
  obtain ⟨hv0, hk⟩ := kernelPdes_stack (v := gatewayFrame w.k p u) H.pdes U.slot_lt
    (by rw [gatewayFrame, hseg]; omega) (by rw [gatewayFrame, hseg]; omega)
  have hno := not_userAccess_of_kernel H.holds.ram.tables (H.dir_mem (H.live_iff.mp hp))
    (by rw [gatewayFrame, hseg]; omega) hv0 fun h => hk.mp h h76
  have hw := h 0 (by decide)
  rw [Nat.add_zero, userMode_writes, userWrites, userReads, hno, Bool.and_false, Bool.false_and,
    Bool.false_and] at hw
  cases hw

/-- **A request through the gateway.**  After boot and any calls and interrupts let a
protected process call the gateway with a request that the kernel serves, on an aligned stack
with room for what the gateway pushes.  If the process may not write the frame, as in slot 76,
it is terminated.  Otherwise the machine halts exactly if the frame crosses a page, which it
does when ESP is 8 above a multiple of the page size, or is at the physical address 0; and the
call comes back exactly if it does not halt and the return address can be read.  What comes
back is an ordinary far return: ESP above the return address, SS and EBP as they were, and the
address that the call has pushed. -/
theorem gateway_call {w₀ w : World} (h₀ : Booted w₀) (h : Reach Careful w₀ w) {p : ℕ}
    (hp : Live w.k p) (hrun : RunningTask w.k p)
    (htype : w.k.mem p procType = processTypeProtected32)
    (driver : UserRegisters → (ℕ → ℕ) → GatewayEnd) {storage : Option Service}
    (hstorage : ∀ serve ∈ storage, IsStorageSyscall p serve) (ret : ℕ) {u : UserRegisters}
    (R : KernelRequest w.k p u) {mem : ℕ → ℕ} (hmem : ShowsProcess w.k p mem) :
    (gatewayCall driver w.k p storage ret u mem = .halted ↔
      Pushes (userMode w.k p) (gatewayFrame w.k p u) ∧ (u.esp % pageSize = 8 ∨
        getPhysicalAddress (w.k.mem p procPageDir) (gatewayFrame w.k p u) w.k.ram = some 0)) ∧
    ((∃ x, gatewayCall driver w.k p storage ret u mem = .returned x) ↔
      Pushes (userMode w.k p) (gatewayFrame w.k p u) ∧ u.esp % pageSize ≠ 8 ∧
        getPhysicalAddress (w.k.mem p procPageDir) (gatewayFrame w.k p u) w.k.ram ≠ some 0 ∧
        Pops (userMode w.k p) (gatewayFrame w.k p u + 12)) ∧
    (∀ x, gatewayCall driver w.k p storage ret u mem = .returned x →
      x.esp = u.esp + 8 ∧ x.ss = u.ss ∧ x.ebp = u.ebp ∧
      x.eip = getLe mem 4 (gatewayFrame w.k p u + 12) ∧
      x.cs = getLe mem 2 (gatewayFrame w.k p u + 16)) ∧
    (w.k.mem p procSlotIndex = 76 → gatewayCall driver w.k p storage ret u mem = .faulted) := by
  obtain ⟨O, B, P, H⟩ := reach_inv h₀ h
  obtain ⟨slot, U⟩ := reach_userStack h₀ h hp htype
  obtain ⟨eax, heq⟩ := H.gatewayCall_eq hp hrun htype U driver hstorage ret R hmem
  have h76 : w.k.mem p procSlotIndex = 76 →
      ¬Pushes (userMode w.k p) (gatewayFrame w.k p u) := fun hs hpush =>
    H.pushes_slot hp U R hpush (U.slotIndex.symm.trans hs)
  rw [heq]
  by_cases hpush : Pushes (userMode w.k p) (gatewayFrame w.k p u)
  swap
  · -- the gateway cannot write its frame
    rw [if_neg hpush]
    refine ⟨⟨fun h => ?_, fun h => absurd h.1 hpush⟩, ⟨fun ⟨x, h⟩ => ?_, fun h => absurd h.1 hpush⟩,
      fun x h => ?_, fun _ => rfl⟩ <;> cases h
  rw [if_pos hpush]
  by_cases hbad : u.esp % pageSize = 8 ∨
      getPhysicalAddress (w.k.mem p procPageDir) (gatewayFrame w.k p u) w.k.ram = some 0
  · -- the handler does not accept the frame
    rw [if_pos hbad]
    refine ⟨⟨fun _ => ⟨hpush, hbad⟩, fun _ => rfl⟩, ⟨fun ⟨x, h⟩ => ?_, fun h => ?_⟩, fun x h => ?_,
      fun hs => absurd hpush (h76 hs)⟩
    · cases h
    · exact absurd hbad (not_or.mpr ⟨h.2.1, h.2.2.1⟩)
    · cases h
  rw [if_neg hbad]
  by_cases hpops : Pops (userMode w.k p) (gatewayFrame w.k p u + 12)
  · rw [if_pos hpops]
    refine ⟨⟨fun h => ?_, fun h => absurd h.2 hbad⟩, ⟨fun _ => ?_, fun _ => ⟨_, rfl⟩⟩, fun x h => ?_,
      fun hs => absurd hpush (h76 hs)⟩
    · cases h
    · exact ⟨hpush, (not_or.mp hbad).1, (not_or.mp hbad).2, hpops⟩
    · cases h
      exact ⟨rfl, rfl, rfl, rfl, rfl⟩
  · rw [if_neg hpops]
    refine ⟨⟨fun h => ?_, fun h => absurd h.2 hbad⟩, ⟨fun ⟨x, h⟩ => ?_, fun h => ?_⟩, fun x h => ?_,
      fun hs => absurd hpush (h76 hs)⟩
    · cases h
    · cases h
    · exact absurd h.2.2.2 hpops
    · cases h

/-- `storage_syscall` before the driver has been initialised. -/
def unreadyStorage : Service := fun _ _ mem => (storageNotReady, mem)

theorem unreadyStorage_isStorageSyscall (p : ℕ) : IsStorageSyscall p unreadyStorage := by
  intro r mem hbyte
  refine ⟨{ coldStorage with mem := fun b => UInt8.ofNat (mem b) }, _, _, storageNotReady,
    ⟨rfl, rfl, rfl, rfl, rfl, rfl, fun _ => rfl, rfl, rfl, rfl, rfl⟩, .nil, fun b => ?_, rfl, ?_⟩
  · exact UInt8.toNat_ofNat_of_lt (hbyte b)
  · exact Prod.ext rfl (funext fun b => (UInt8.toNat_ofNat_of_lt (hbyte b)).symm)

/-- A request of a process that has been loaded comes back, with the answer of the driver. -/
theorem gateway_call_returns : ∃ w₀ w p u mem, Booted w₀ ∧ Reach Careful w₀ w ∧ Live w.k p ∧
    RunningTask w.k p ∧ u.eax = syscallStorageInfo ∧ ∀ driver, ∃ x,
      gatewayCall driver w.k p (some unreadyStorage) 0 u mem = .returned x ∧ x.esp = userStackSize := by
  obtain ⟨w₀, w, p, h₀, h, hp, hrun, htype, hslot, hstack, hwrites⟩ := exists_loaded_running
  obtain ⟨O, B, P, H⟩ := reach_inv h₀ h
  obtain ⟨slot, U⟩ := reach_userStack h₀ h hp htype
  obtain rfl : slot = 0 := U.slotIndex.symm.trans hslot
  -- ESP is eight bytes below the end of the stack
  obtain ⟨u, heax, hss, hebp, hesp⟩ : ∃ u : UserRegisters, u.eax = syscallStorageInfo ∧
      u.ss = w.k.mem p procUserSs ∧ u.ebp = 0 ∧ u.esp = userStackSize - 8 :=
    ⟨⟨syscallStorageInfo, 0, 0, 0, 0, 0, 0, userStackSize - 8, w.k.mem p procUserSs⟩, rfl, rfl, rfl, rfl⟩
  have R : KernelRequest w.k p u := ⟨Or.inr (by rw [heax]; decide), hss, by rw [hebp]; decide,
    by rw [hesp]; decide, by rw [hesp]; decide, by rw [hesp]; decide⟩
  have hframe : gatewayFrame w.k p u = stackPage 0 + 4076 := by
    rw [gatewayFrame, hss, hesp, segmentBase, U.segment]
    decide
  have hpage : ∀ i < 20, (stackPage 0 + 4076 + i) / pageSize = stackPage 0 / pageSize := by decide
  have hpush : Pushes (userMode w.k p) (gatewayFrame w.k p u) := fun i hi => by
    rw [hframe]
    exact hwrites _ (hpage i (by omega))
  have hpops : Pops (userMode w.k p) (gatewayFrame w.k p u + 12) := fun i hi => by
    rw [hframe, Nat.add_assoc]
    have hw := hwrites _ (hpage (12 + i) (by omega))
    rw [userWrites, Bool.and_eq_true, Bool.and_eq_true] at hw
    exact hw.1.1
  have hphys : getPhysicalAddress (w.k.mem p procPageDir) (gatewayFrame w.k p u) w.k.ram ≠ some 0 := by
    intro hz
    obtain ⟨n, hn⟩ := hstack
    obtain ⟨hi, hj⟩ := same_page_iff.mp (hpage 0 (by decide))
    refine getPhysicalAddress_owned (v := gatewayFrame w.k p u) H.holds.ram
      (H.dir_mem (H.live_iff.mp hp)) ⟨n, ?_⟩ (by rw [hz]; rfl)
    rw [hframe, ← hn]
    exact congrArg₂ (ownedAt w.k.ram _) hi hj
  obtain ⟨mem, hmem⟩ : ∃ mem, ShowsProcess w.k p mem :=
    ⟨putLe (fun _ => 0) 4 (p + procSlotBase) (slotBase 0), putLe_byte fun _ => by decide, by
      rw [getLe_putLe, U.base]
      decide⟩
  refine ⟨w₀, w, p, u, mem, h₀, h, hp, hrun, heax, fun driver => ?_⟩
  obtain ⟨-, hreturns, hregs, -⟩ := gateway_call h₀ h hp hrun htype driver
    (fun _ h => Option.some.inj h ▸ unreadyStorage_isStorageSyscall p) 0 R hmem
  obtain ⟨x, hx⟩ := hreturns.mpr ⟨hpush, by rw [hesp]; decide, hphys, hpops⟩
  exact ⟨x, hx, (hregs x hx).1.trans (by rw [hesp]; rfl)⟩

end VirtualKernel
