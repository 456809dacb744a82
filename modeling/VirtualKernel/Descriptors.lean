/-
Segment descriptors: what is written, what is read.

A descriptor scatters a base, a limit, an access byte and four flags over eight
bytes.  `entryFields` gathers them by the IA-32 layout.

* **`fields_of_words`** — the two words that the kernel's encoders build hold their arguments;
* **`decoders_eq_descriptorBase`** — the decoders in assembly compute `descriptorBase`;
* **`segment_descriptors_decode`** — the writers of the GDT and of an LDT, and
  `build_system_descriptor`, encode what was asked, and all four decoders of the kernel
  find the base;
* **`setGdtEntry_decodes`** — the writer of the boot GDT takes the top of the limit from
  bits 8 to 11: it encodes its arguments exactly when these are the same as bits 16 to 19.
-/
import VirtualKernel.Process

namespace VirtualKernel

open Lib

/-! ### The IA-32 layout -/

/-- The contents of a segment descriptor. -/
structure SegmentFields where
  base : ℕ
  limit : ℕ
  access : ℕ
  flags : ℕ
deriving DecidableEq, Repr

/-- The layout, by the bytes of an entry. -/
def entryFields (b : ℕ → ℕ) : SegmentFields where
  base := b 2 + b 3 * 2 ^ 8 + b 4 * 2 ^ 16 + b 7 * 2 ^ 24
  limit := b 0 + b 1 * 2 ^ 8 + b 6 % 2 ^ 4 * 2 ^ 16
  access := b 5
  flags := b 6 / 2 ^ 4

/-- The largest offset in the segment: the limit counts bytes, or pages of 4 KiB when
the flag G is set. -/
def SegmentFields.effectiveLimit (s : SegmentFields) : ℕ :=
  if s.flags.testBit 3 then s.limit * 2 ^ 12 + 0xFFF else s.limit

/-- The bytes of an entry that is given by its two words. -/
def entryByte (desc : ℕ × ℕ) (i : ℕ) : ℕ :=
  if i < 4 then desc.1 / 2 ^ (8 * i) % 2 ^ 8 else desc.2 / 2 ^ (8 * (i - 4)) % 2 ^ 8

/-! ### The decoders of the kernel -/

/-- The word at `[entry + 2]` and the bytes at `[entry + 4]` and `[entry + 7]`. -/
def gatherBase (b : ℕ → ℕ) : ℕ :=
  (b 2 + b 3 * 2 ^ 8) ||| b 4 * 2 ^ 16 ||| b 7 * 2 ^ 24

/-- The base of the running TSS in `sysenter_entry`. -/
def sysenterEntryBase (desc : ℕ × ℕ) : ℕ := gatherBase (entryByte desc)

/-- The base of the code segment in `process_prepare_test_task`. -/
def processPrepareTestTaskBase (desc : ℕ × ℕ) : ℕ := gatherBase (entryByte desc)

/-- The base of the running TSS in `exception_terminate_current`. -/
def exceptionTerminateCurrentBase (desc : ℕ × ℕ) : ℕ := gatherBase (entryByte desc)

/-- The base of the running TSS in `kernel_check_task_address_space`. -/
def kernelCheckTaskAddressSpaceBase (desc : ℕ × ℕ) : ℕ :=
  desc.1 / 2 ^ 16 ||| (desc.2 &&& 255) * 2 ^ 16 ||| (desc.2 &&& 0xFF000000)

/-! ### Writers -/

/-- `gdt_write_segment_descriptor(selector, base, limit, access)`. -/
def gdtWriteSegmentDescriptor (sel base limit access : ℕ) : KM Unit :=
  gdtWriteRawDescriptor sel (segmentDescriptor base limit access)

/-- `mov word [a], v`. -/
def writeWord (mem : ℕ → ℕ) (a v : ℕ) : ℕ → ℕ :=
  Function.update (Function.update mem a (v % 2 ^ 8)) (a + 1) (v / 2 ^ 8 % 2 ^ 8)

abbrev gdtBase : ℕ := 0x30010000

/-- `set_gdt_entry` of the bootstrap, on bytes. -/
def setGdtEntry (ecx eax edx bl bh : ℕ) (mem : ℕ → ℕ) : ℕ → ℕ :=
  let edi := gdtBase + ecx * 8
  let mem := writeWord mem edi (edx % 2 ^ 16)
  let mem := writeWord mem (edi + 2) (eax % 2 ^ 16)
  let eax := eax / 2 ^ 16
  let mem := Function.update mem (edi + 4) (eax % 2 ^ 8)
  let mem := Function.update mem (edi + 5) bl
  -- `mov al, dh` takes bits 8 to 15 of the limit
  let al := edx / 2 ^ 8 % 2 ^ 8
  let al := (al &&& 0x0F) ||| bh
  let mem := Function.update mem (edi + 6) al
  Function.update mem (edi + 7) (eax / 2 ^ 8 % 2 ^ 8)

/-! ### Packed words -/

section Packed

/-- The top byte of a word. -/
theorem and_topByte {x : ℕ} (h : x < 2 ^ 32) : x &&& 0xFF000000 = x / 2 ^ 24 * 2 ^ 24 := by
  have hmask : (0xFF000000 : ℕ) = (2 ^ 8 - 1) <<< 24 := by decide
  refine Nat.eq_of_testBit_eq fun j => ?_
  rw [Nat.testBit_and, hmask, Nat.testBit_shiftLeft, Nat.testBit_two_pow_sub_one,
    Nat.testBit_mul_two_pow, Nat.testBit_div_two_pow]
  by_cases hj : 24 ≤ j
  · by_cases h32 : j < 32
    · simp [hj, show j - 24 < 8 by omega, Nat.sub_add_cancel hj]
    · have hbig : x.testBit j = false := Nat.testBit_lt_two_pow
        (lt_of_lt_of_le h (Nat.pow_le_pow_right (by decide) (by omega)))
      simp [hbig, Nat.sub_add_cancel hj]
  · simp [hj]

variable {base x access f : ℕ}

/-- The high word of a descriptor as a sum of its fields. -/
theorem highWord_eq (hb : base < 2 ^ 32) (ha : access < 2 ^ 8) (hf : f < 2 ^ 4) :
    base / 2 ^ 16 % 2 ^ 8 ||| access * 2 ^ 8 ||| x / 2 ^ 16 % 2 ^ 4 * 2 ^ 16 ||| f * 2 ^ 20 |||
        (base &&& 0xFF000000) =
      base / 2 ^ 16 % 2 ^ 8 + access * 2 ^ 8 + x / 2 ^ 16 % 2 ^ 4 * 2 ^ 16 + f * 2 ^ 20 +
        base / 2 ^ 24 * 2 ^ 24 := by
  -- each field lies above the ones before it
  have h₁ : base / 2 ^ 16 % 2 ^ 8 < 2 ^ 8 := Nat.mod_lt _ (by decide)
  have h₂ : base / 2 ^ 16 % 2 ^ 8 + access * 2 ^ 8 < 2 ^ 16 := by omega
  have h₃ : base / 2 ^ 16 % 2 ^ 8 + access * 2 ^ 8 + x / 2 ^ 16 % 2 ^ 4 * 2 ^ 16 < 2 ^ 20 := by
    omega
  have h₄ : base / 2 ^ 16 % 2 ^ 8 + access * 2 ^ 8 + x / 2 ^ 16 % 2 ^ 4 * 2 ^ 16 +
      f * 2 ^ 20 < 2 ^ 24 := by
    omega
  rw [or_mul_two_pow h₁, or_mul_two_pow h₂, or_mul_two_pow h₃, and_topByte hb,
    or_mul_two_pow h₄]

/-- The words of an entry, from the pieces of its fields. -/
theorem entryFields_packed {b₀ b₂ b₃ l₀ l₂ : ℕ} (h₀ : b₀ < 2 ^ 16) (h₂ : b₂ < 2 ^ 8)
    (h₃ : b₃ < 2 ^ 8) (hl : l₀ < 2 ^ 16) (hl₂ : l₂ < 2 ^ 4) (ha : access < 2 ^ 8)
    (hf : f < 2 ^ 4) :
    entryFields (entryByte (b₀ * 2 ^ 16 + l₀,
        b₂ + access * 2 ^ 8 + l₂ * 2 ^ 16 + f * 2 ^ 20 + b₃ * 2 ^ 24)) =
      ⟨b₀ + b₂ * 2 ^ 16 + b₃ * 2 ^ 24, l₀ + l₂ * 2 ^ 16, access, f⟩ := by
  simp only [entryFields, entryByte, SegmentFields.mk.injEq, Nat.reduceLT, if_true, if_false,
    Nat.reduceMul, Nat.reducePow, Nat.reduceSub, Nat.lt_irrefl]
  refine ⟨?base, ?limit, ?access, ?flags⟩
  case base =>
    have e₂ : (b₀ * 65536 + l₀) / 65536 % 256 = b₀ % 256 := by omega
    have e₃ : (b₀ * 65536 + l₀) / 16777216 % 256 = b₀ / 256 := by omega
    have e₄ : (b₂ + access * 256 + l₂ * 65536 + f * 1048576 + b₃ * 16777216) / 1 % 256 = b₂ := by
      omega
    have e₇ : (b₂ + access * 256 + l₂ * 65536 + f * 1048576 + b₃ * 16777216) / 16777216 % 256 =
        b₃ := by
      omega
    rw [e₂, e₃, e₄, e₇]
    omega
  case limit => omega
  case access => omega
  case flags => omega

/-- The two words as an entry: they hold the base, the low 20 bits of `x`, the access
byte and the flags. -/
theorem fields_of_words (hb : base < 2 ^ 32) (ha : access < 2 ^ 8) (hf : f < 2 ^ 4) :
    entryFields (entryByte (base % 2 ^ 16 * 2 ^ 16 + x % 2 ^ 16,
        base / 2 ^ 16 % 2 ^ 8 + access * 2 ^ 8 + x / 2 ^ 16 % 2 ^ 4 * 2 ^ 16 + f * 2 ^ 20 +
          base / 2 ^ 24 * 2 ^ 24)) =
      ⟨base, x % 2 ^ 20, access, f⟩ := by
  have htop : base / 2 ^ 24 < 2 ^ 8 := by omega
  rw [entryFields_packed (Nat.mod_lt _ (by decide)) (Nat.mod_lt _ (by decide)) htop
    (Nat.mod_lt _ (by decide)) (Nat.mod_lt _ (by decide)) ha hf, SegmentFields.mk.injEq]
  exact ⟨by omega, by omega, rfl, rfl⟩

/-- The low 12 bits of a limit set. -/
theorem or_lowBits (x : ℕ) : x ||| 0xFFF = x / 2 ^ 12 * 2 ^ 12 + 0xFFF := by
  have hlow : (0xFFF : ℕ) < 2 ^ 12 := by decide
  rw [Nat.add_comm, ← or_mul_two_pow hlow, Nat.or_comm, show (0xFFF : ℕ) = 2 ^ 12 - 1 from rfl]
  refine Nat.eq_of_testBit_eq fun j => ?_
  rw [Nat.testBit_or, Nat.testBit_or, Nat.testBit_two_pow_sub_one, Nat.testBit_mul_two_pow,
    Nat.testBit_div_two_pow]
  by_cases hj : j < 12
  · simp [hj]
  · simp [hj, show 12 ≤ j by omega, Nat.sub_add_cancel (show 12 ≤ j by omega)]

/-- What `gdt_write_segment_descriptor` and `ldt_write_segment_descriptor` encode: above
1 MiB the limit in pages, with the flag G. -/
theorem fields_segmentDescriptor (hb : base < 2 ^ 32) (ha : access < 2 ^ 8) (limit : ℕ) :
    entryFields (entryByte (segmentDescriptor base limit access)) =
      if limit ≤ 0xFFFFF then ⟨base, limit % 2 ^ 20, access, 4⟩
      else ⟨base, limit / 2 ^ 12 % 2 ^ 20, access, 0xC⟩ := by
  have h40 : 0x40 * 2 ^ 16 = 4 * 2 ^ 20 := by decide
  have hC0 : 0xC0 * 2 ^ 16 = 0xC * 2 ^ 20 := by decide
  by_cases hl : limit ≤ 0xFFFFF
  · simp only [segmentDescriptor, if_pos hl]
    rw [h40, highWord_eq hb ha (by decide), fields_of_words hb ha (by decide)]
  · simp only [segmentDescriptor, if_neg hl]
    rw [hC0, highWord_eq hb ha (by decide), fields_of_words hb ha (by decide)]

/-- What `build_system_descriptor` encodes: the limit in bytes, and no flags. -/
theorem fields_buildSystemDescriptor (hb : base < 2 ^ 32) (ha : access < 2 ^ 8) (limit : ℕ) :
    entryFields (entryByte (buildSystemDescriptor base limit access)) =
      ⟨base, limit % 2 ^ 20, access, 0⟩ := by
  have hz : ∀ y : ℕ, y = y ||| 0 * 2 ^ 20 := fun y => by rw [Nat.zero_mul, Nat.or_zero]
  simp only [buildSystemDescriptor]
  rw [hz (base / 2 ^ 16 % 2 ^ 8 ||| access * 2 ^ 8 ||| limit / 2 ^ 16 % 2 ^ 4 * 2 ^ 16),
    highWord_eq hb ha (by decide), fields_of_words hb ha (by decide)]

end Packed

/-! ### The bases that the kernel reads -/

/-- The bytes of an entry are bytes. -/
theorem entryByte_lt (desc : ℕ × ℕ) (i : ℕ) : entryByte desc i < 2 ^ 8 := by
  unfold entryByte
  split <;> exact Nat.mod_lt _ (by decide)

/-- The base that is gathered from bytes is the base of the layout. -/
theorem gatherBase_eq (desc : ℕ × ℕ) :
    gatherBase (entryByte desc) = (entryFields (entryByte desc)).base := by
  have h₂ := entryByte_lt desc 2
  have h₃ := entryByte_lt desc 3
  have h₄ := entryByte_lt desc 4
  have hw : entryByte desc 2 + entryByte desc 3 * 2 ^ 8 < 2 ^ 16 := by omega
  have hww : entryByte desc 2 + entryByte desc 3 * 2 ^ 8 + entryByte desc 4 * 2 ^ 16 < 2 ^ 24 := by
    omega
  rw [gatherBase, or_mul_two_pow hw, or_mul_two_pow hww, entryFields]

/-- So is the base that is gathered from the two words. -/
theorem kernelCheckTaskAddressSpaceBase_eq {desc : ℕ × ℕ} (h₁ : desc.1 < 2 ^ 32)
    (h₂ : desc.2 < 2 ^ 32) :
    kernelCheckTaskAddressSpaceBase desc = (entryFields (entryByte desc)).base := by
  have hlow : desc.1 / 2 ^ 16 < 2 ^ 16 := by omega
  have hmid : desc.1 / 2 ^ 16 + desc.2 % 2 ^ 8 * 2 ^ 16 < 2 ^ 24 := by omega
  rw [kernelCheckTaskAddressSpaceBase, show (255 : ℕ) = 2 ^ 8 - 1 from rfl,
    Nat.and_two_pow_sub_one_eq_mod, or_mul_two_pow hlow, and_topByte h₂, or_mul_two_pow hmid]
  simp only [entryFields, entryByte, Nat.reduceLT, if_true, if_false, Nat.reduceMul, Nat.reduceSub,
    Nat.lt_irrefl]
  have hword : desc.1 / 2 ^ 16 = desc.1 / 2 ^ 16 % 2 ^ 8 + desc.1 / 2 ^ 24 % 2 ^ 8 * 2 ^ 8 := by
    omega
  have htop : desc.2 / 2 ^ 24 = desc.2 / 2 ^ 24 % 2 ^ 8 := by omega
  rw [← hword, ← htop, Nat.pow_zero, Nat.div_one]

/-- `descriptorBase`, through which processes and interrupts are modelled, is what each of
the three routines in assembly reads byte by byte. -/
theorem decoders_eq_descriptorBase (desc : ℕ × ℕ) :
    sysenterEntryBase desc = descriptorBase desc ∧
      processPrepareTestTaskBase desc = descriptorBase desc ∧
      exceptionTerminateCurrentBase desc = descriptorBase desc := by
  have hgather : gatherBase (entryByte desc) = descriptorBase desc := by
    simp only [gatherBase, descriptorBase, entryByte, Nat.reduceLT, if_true, if_false,
      Nat.reduceMul, Nat.reduceSub, Nat.lt_irrefl, Nat.pow_zero, Nat.div_one]
    -- the word at `[entry + 2]` is the upper half of the low dword
    congr 2
    omega
  exact ⟨hgather, hgather, hgather⟩

/-! ### What is written and what is read -/

/-- The entry holds the base and the access byte, its segment ends at `limit`, and every
decoder of the kernel finds the base. -/
structure Decodes (desc : ℕ × ℕ) (base limit access : ℕ) : Prop where
  base_eq : (entryFields (entryByte desc)).base = base
  access_eq : (entryFields (entryByte desc)).access = access
  limit_eq : (entryFields (entryByte desc)).effectiveLimit = limit
  sysenter : sysenterEntryBase desc = base
  prepare : processPrepareTestTaskBase desc = base
  terminate : exceptionTerminateCurrentBase desc = base
  check : kernelCheckTaskAddressSpaceBase desc = base

/-- The decoders follow from the layout. -/
theorem Decodes.of_fields {desc : ℕ × ℕ} {s : SegmentFields} {limit : ℕ}
    (hs : entryFields (entryByte desc) = s) (hl : s.effectiveLimit = limit)
    (h₁ : desc.1 < 2 ^ 32) (h₂ : desc.2 < 2 ^ 32) : Decodes desc s.base limit s.access where
  base_eq := by rw [hs]
  access_eq := by rw [hs]
  limit_eq := by rw [hs, hl]
  sysenter := by rw [sysenterEntryBase, gatherBase_eq, hs]
  prepare := by rw [processPrepareTestTaskBase, gatherBase_eq, hs]
  terminate := by rw [exceptionTerminateCurrentBase, gatherBase_eq, hs]
  check := by rw [kernelCheckTaskAddressSpaceBase_eq h₁ h₂, hs]

section Encoders

variable {base limit access : ℕ}

theorem segmentDescriptor_lt (hb : base < 2 ^ 32) (ha : access < 2 ^ 8) (limit : ℕ) :
    (segmentDescriptor base limit access).1 < 2 ^ 32 ∧
      (segmentDescriptor base limit access).2 < 2 ^ 32 := by
  have h40 : 0x40 * 2 ^ 16 = 4 * 2 ^ 20 := by decide
  have hC0 : 0xC0 * 2 ^ 16 = 0xC * 2 ^ 20 := by decide
  by_cases hl : limit ≤ 0xFFFFF
  · simp only [segmentDescriptor, if_pos hl]
    rw [h40, highWord_eq hb ha (by decide)]
    exact ⟨by omega, by omega⟩
  · simp only [segmentDescriptor, if_neg hl]
    rw [hC0, highWord_eq hb ha (by decide)]
    exact ⟨by omega, by omega⟩

theorem buildSystemDescriptor_lt (hb : base < 2 ^ 32) (ha : access < 2 ^ 8) (limit : ℕ) :
    (buildSystemDescriptor base limit access).1 < 2 ^ 32 ∧
      (buildSystemDescriptor base limit access).2 < 2 ^ 32 := by
  have hz : ∀ y : ℕ, y = y ||| 0 * 2 ^ 20 := fun y => by rw [Nat.zero_mul, Nat.or_zero]
  simp only [buildSystemDescriptor]
  rw [hz (base / 2 ^ 16 % 2 ^ 8 ||| access * 2 ^ 8 ||| limit / 2 ^ 16 % 2 ^ 4 * 2 ^ 16),
    highWord_eq hb ha (by decide)]
  exact ⟨by omega, by omega⟩

/-- A segment ends at the limit that was asked for, or where its last page does. -/
theorem segmentDescriptor_decodes (hb : base < 2 ^ 32) (hl : limit < 2 ^ 32)
    (ha : access < 2 ^ 8) :
    Decodes (segmentDescriptor base limit access) base
      (if limit ≤ 0xFFFFF then limit else limit ||| 0xFFF) access := by
  have hfields := fields_segmentDescriptor hb ha limit
  obtain ⟨h₁, h₂⟩ := segmentDescriptor_lt hb ha limit
  by_cases h : limit ≤ 0xFFFFF
  · rw [if_pos h] at hfields ⊢
    have hflag : (4 : ℕ).testBit 3 = false := by decide
    refine Decodes.of_fields hfields ?_ h₁ h₂
    simp only [SegmentFields.effectiveLimit, hflag, Bool.false_eq_true, if_false]
    omega
  · rw [if_neg h] at hfields ⊢
    have hflag : (0xC : ℕ).testBit 3 = true := by decide
    refine Decodes.of_fields hfields ?_ h₁ h₂
    simp only [SegmentFields.effectiveLimit, hflag, if_true, or_lowBits]
    omega

/-- A system segment ends at the limit that was asked for. -/
theorem buildSystemDescriptor_decodes (hb : base < 2 ^ 32) (hl : limit ≤ 0xFFFFF)
    (ha : access < 2 ^ 8) :
    Decodes (buildSystemDescriptor base limit access) base limit access := by
  obtain ⟨h₁, h₂⟩ := buildSystemDescriptor_lt hb ha limit
  have hflag : (0 : ℕ).testBit 3 = false := by decide
  refine Decodes.of_fields (fields_buildSystemDescriptor hb ha limit) ?_ h₁ h₂
  simp only [SegmentFields.effectiveLimit, hflag, Bool.false_eq_true, if_false]
  omega

/-- A segment never ends before the limit that was asked for, and it ends there when the
limit is the end of a page. -/
theorem le_orLowBits (limit : ℕ) :
    limit ≤ (if limit ≤ 0xFFFFF then limit else limit ||| 0xFFF) ∧
      (limit % 2 ^ 12 = 0xFFF → (if limit ≤ 0xFFFFF then limit else limit ||| 0xFFF) = limit) := by
  rw [or_lowBits]
  constructor
  · split <;> omega
  · intro h
    split <;> omega

end Encoders

/-- **Segment descriptors decode to what was asked.**  The writer of the GDT and the
writer of an LDT change one entry, to the same eight bytes; these hold the base and the
access byte, the segment ends at the limit or at the end of its page, and every decoder of
the kernel finds the base.  `build_system_descriptor` does the same below 1 MiB. -/
theorem segment_descriptors_decode {base limit access : ℕ} (hb : base < 2 ^ 32)
    (hl : limit < 2 ^ 32) (ha : access < 2 ^ 8) :
    (∀ sel ldt lsel k, ∃ g m,
      (gdtWriteSegmentDescriptor sel base limit access).run k = some ((), { k with gdt := g }) ∧
      (ldtWriteSegmentDescriptor ldt lsel base limit access).run k = some ((), k.setMem ldt m) ∧
      (∀ i, i ≠ sel % 2 ^ 16 / 8 → g i = k.gdt i) ∧
      (∀ o, o ≠ (lsel &&& 0xFFF8) → o ≠ (lsel &&& 0xFFF8) + 4 → m o = k.mem ldt o) ∧
      (m (lsel &&& 0xFFF8), m ((lsel &&& 0xFFF8) + 4)) = g (sel % 2 ^ 16 / 8) ∧
      Decodes (g (sel % 2 ^ 16 / 8)) base (if limit ≤ 0xFFFFF then limit else limit ||| 0xFFF)
        access) ∧
    limit ≤ (if limit ≤ 0xFFFFF then limit else limit ||| 0xFFF) ∧
    (limit % 2 ^ 12 = 0xFFF → (if limit ≤ 0xFFFFF then limit else limit ||| 0xFFF) = limit) ∧
    (limit ≤ 0xFFFFF → Decodes (buildSystemDescriptor base limit access) base limit access) := by
  refine ⟨?writers, (le_orLowBits limit).1, (le_orLowBits limit).2,
    fun h => buildSystemDescriptor_decodes hb h ha⟩
  case writers =>
    intro sel ldt lsel k
    refine ⟨Function.update k.gdt (sel % 2 ^ 16 / 8) (segmentDescriptor base limit access),
      Function.update (Function.update (k.mem ldt) (lsel &&& 0xFFF8)
        (segmentDescriptor base limit access).1) ((lsel &&& 0xFFF8) + 4)
        (segmentDescriptor base limit access).2, rfl, rfl, ?gdt, ?ldt, ?same, ?decodes⟩
    case gdt =>
      intro i hi
      rw [Function.update_of_ne hi]
    case ldt =>
      intro o h₁ h₂
      rw [Function.update_of_ne h₂, Function.update_of_ne h₁]
    case same =>
      rw [Function.update_self, Function.update_self,
        Function.update_of_ne (Nat.ne_of_lt (by omega)), Function.update_self]
    case decodes =>
      rw [Function.update_self]
      exact segmentDescriptor_decodes hb hl ha

/-- The task state segment of a process. -/
theorem segment_descriptors_decode_tss :
    Decodes (buildSystemDescriptor 0x12345678 0x67 0x89) 0x12345678 0x67 0x89 :=
  (@segment_descriptors_decode 0x12345678 0x67 0x89 (by decide) (by decide) (by decide)).2.2.2
    (by decide)

/-! ### The boot table -/

section BootTable

variable (ecx eax edx bl bh : ℕ) (mem : ℕ → ℕ)

/-- Only the eight bytes of the entry change. -/
theorem setGdtEntry_of_outside {a : ℕ} (ha : a < gdtBase + ecx * 8 ∨ gdtBase + ecx * 8 + 8 ≤ a) :
    setGdtEntry ecx eax edx bl bh mem a = mem a := by
  have hne : ∀ i < 8, a ≠ gdtBase + ecx * 8 + i := fun i hi => by omega
  simp only [setGdtEntry, writeWord]
  rw [Function.update_of_ne (hne 7 (by decide)), Function.update_of_ne (hne 6 (by decide)),
    Function.update_of_ne (hne 5 (by decide)), Function.update_of_ne (hne 4 (by decide)),
    Function.update_of_ne (hne 3 (by decide)), Function.update_of_ne (hne 2 (by decide)),
    Function.update_of_ne (hne 1 (by decide))]
  exact Function.update_of_ne (hne 0 (by decide)) _ _

/-- The eight bytes: the top of the limit, in byte 6, comes from bits 8 to 11. -/
theorem setGdtEntry_bytes :
    entryFields (fun i => setGdtEntry ecx eax edx bl bh mem (gdtBase + ecx * 8 + i)) =
      { base := eax % 2 ^ 8 + eax / 2 ^ 8 % 2 ^ 8 * 2 ^ 8 + eax / 2 ^ 16 % 2 ^ 8 * 2 ^ 16 +
          eax / 2 ^ 24 % 2 ^ 8 * 2 ^ 24
        limit := edx % 2 ^ 8 + edx / 2 ^ 8 % 2 ^ 8 * 2 ^ 8 +
          ((edx / 2 ^ 8 % 2 ^ 8 &&& 0x0F) ||| bh) % 2 ^ 4 * 2 ^ 16
        access := bl
        flags := ((edx / 2 ^ 8 % 2 ^ 8 &&& 0x0F) ||| bh) / 2 ^ 4 } := by
  generalize hedi : gdtBase + ecx * 8 = edi
  simp only [setGdtEntry, writeWord, hedi, entryFields, Nat.add_assoc, Function.update_apply,
    Nat.add_right_inj, Nat.reduceAdd, Nat.reduceEqDiff, if_true, if_false, Nat.add_eq_left,
    SegmentFields.mk.injEq, and_true]
  -- words are cut into bytes
  have e₀ : ∀ x : ℕ, x % 2 ^ 16 % 2 ^ 8 = x % 2 ^ 8 := fun x => by omega
  have e₁ : ∀ x : ℕ, x % 2 ^ 16 / 2 ^ 8 % 2 ^ 8 = x / 2 ^ 8 % 2 ^ 8 := fun x => by omega
  have e₂ : eax / 2 ^ 16 / 2 ^ 8 = eax / 2 ^ 24 := by omega
  rw [e₀, e₀, e₁, e₁, e₂]
  exact ⟨rfl, rfl⟩

end BootTable

/-- **When the boot GDT writer encodes its arguments.**  Base, access byte and flags always
arrive, and no other entry changes; the limit arrives exactly when its bits 16 to 19 are
the same as its bits 8 to 11. -/
theorem setGdtEntry_decodes (index access flags : ℕ) {base limit : ℕ} (hb : base < 2 ^ 32)
    (hl : limit < 2 ^ 20) (mem : ℕ → ℕ) :
    (entryFields (fun i => setGdtEntry index base limit access (flags * 2 ^ 4) mem
        (gdtBase + index * 8 + i)) = ⟨base, limit, access, flags⟩ ∧
      ∀ j < 8192, j ≠ index → ∀ i < 8,
        setGdtEntry index base limit access (flags * 2 ^ 4) mem (gdtBase + j * 8 + i) =
          mem (gdtBase + j * 8 + i)) ↔
      limit / 2 ^ 16 = limit / 2 ^ 8 % 2 ^ 4 := by
  -- byte 6: bits 8 to 11 of the limit below the flags
  have hlow : limit / 2 ^ 8 % 2 ^ 8 &&& 0x0F = limit / 2 ^ 8 % 2 ^ 4 := by
    rw [show (0x0F : ℕ) = 2 ^ 4 - 1 from rfl, Nat.and_two_pow_sub_one_eq_mod]
    omega
  have hal : (limit / 2 ^ 8 % 2 ^ 8 &&& 0x0F) ||| flags * 2 ^ 4 =
      limit / 2 ^ 8 % 2 ^ 4 + flags * 2 ^ 4 := by
    rw [hlow, or_mul_two_pow (Nat.mod_lt _ (by decide))]
  rw [setGdtEntry_bytes, hal, SegmentFields.mk.injEq]
  constructor
  · rintro ⟨⟨-, hlimit, -, -⟩, -⟩
    omega
  · intro h
    have hflags : (limit / 2 ^ 8 % 2 ^ 4 + flags * 2 ^ 4) / 2 ^ 4 = flags := by
      rw [Nat.add_mul_div_right _ _ (by decide), Nat.div_eq_of_lt (Nat.mod_lt _ (by decide)),
        Nat.zero_add]
    refine ⟨⟨by omega, by omega, rfl, hflags⟩, ?_⟩
    intro j hj hne i hi8
    have hout : gdtBase + j * 8 + i < gdtBase + index * 8 ∨
        gdtBase + index * 8 + 8 ≤ gdtBase + j * 8 + i := by
      omega
    exact setGdtEntry_of_outside index base limit access (flags * 2 ^ 4) mem hout

/-- The entries of `init_gdt`: a limit of `0xFFFFF` arrives. -/
theorem setGdtEntry_decodes_initGdt :
    entryFields (fun i => setGdtEntry 1 0 0xFFFFF 0x9A (0xC * 2 ^ 4) (fun _ => 0)
      (gdtBase + 1 * 8 + i)) = ⟨0, 0xFFFFF, 0x9A, 0xC⟩ :=
  ((setGdtEntry_decodes 1 0x9A 0xC (by decide) (by decide) _).2 (by decide)).1

/-- A limit of `0x0FFFF` becomes `0xFFFFF`: a segment of 64 KiB becomes one of 1 MiB. -/
theorem setGdtEntry_not_decodes :
    ¬∀ index base limit access flags : ℕ, index < 8192 → base < 2 ^ 32 → limit < 2 ^ 20 →
      access < 2 ^ 8 → flags < 2 ^ 4 → ∀ mem : ℕ → ℕ,
        entryFields (fun i => setGdtEntry index base limit access (flags * 2 ^ 4) mem
          (gdtBase + index * 8 + i)) = ⟨base, limit, access, flags⟩ := by
  intro h
  have h64K := congrArg SegmentFields.limit (h 9 0x00100000 0x0FFFF 0xFA 0x4 (by decide)
    (by decide) (by decide) (by decide) (by decide) fun _ => 0)
  have h1M : (entryFields (fun i => setGdtEntry 9 0x00100000 0x0FFFF 0xFA (0x4 * 2 ^ 4)
      (fun _ => 0) (gdtBase + 9 * 8 + i))).limit = 0xFFFFF := by
    decide
  rw [h1M] at h64K
  exact absurd h64K (by decide)

end VirtualKernel
