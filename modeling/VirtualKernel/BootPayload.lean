/-
The payloads of the bootstrap and their checksum.

`boot_crc32` takes a byte at a time, but what it computes is the register of a cyclic
redundancy check over the bits of the payload, least significant bit first
(`crcBytes_eq_crcFeed`).  The polynomial has its top bit, so two
payloads that differ, and only within 32 bits in a row, have different checksums, and
`load_image` never accepts the wrong one (**`bootCrc32_burst`**).
-/
import VirtualKernel.Storage
import VirtualKernel.Lib.Crc

namespace VirtualKernel

open Lib

/-! ### The checksum -/

/-- A turn of the inner loop of `boot_crc32`. -/
def crcBit (crc : BitVec 32) : BitVec 32 :=
  (crc >>> 1) ^^^ (0xEDB88320#32 &&& (0#32 - (crc &&& 1#32)))

/-- A turn of the outer loop. -/
def crcByte (crc : BitVec 32) (byte : UInt8) : BitVec 32 :=
  crcBit^[8] (crc ^^^ byte.toBitVec.setWidth 32)

/-- The outer loop of `boot_crc32` over the first `size` bytes. -/
def crcBytes (bytes : ℕ → UInt8) : ℕ → BitVec 32
  | 0 => 0xFFFFFFFF#32
  | index + 1 => crcByte (crcBytes bytes index) (bytes index)

/-- `boot_crc32`. -/
def bootCrc32 (bytes : ℕ → UInt8) (size : ℕ) : BitVec 32 := ~~~crcBytes bytes size

example : bootCrc32 (fun i => ("123456789".toUTF8.toList).getD i 0) 9 = 0xCBF43926#32 := by
  decide +kernel

/-- Bit `k` of a stream of bytes, least significant bit first. -/
def streamBit (bytes : ℕ → UInt8) (k : ℕ) : Bool := (bytes (k / 8)).toBitVec.getLsbD (k % 8)

/-- Only the first `size` bytes matter. -/
theorem crcBytes_congr {bytes other : ℕ → UInt8} {size : ℕ} (h : ∀ i < size, bytes i = other i) :
    crcBytes bytes size = crcBytes other size := by
  induction size with
  | zero => rfl
  | succ size ih =>
    rw [crcBytes, crcBytes, ih fun i hi => h i (by omega), h size (Nat.lt_succ_self size)]

abbrev bootPolynomial : BitVec 32 := 0xEDB88320#32

/-- The mask is the polynomial when the low bit is set. -/
theorem crcBit_eq (crc : BitVec 32) : crcBit crc = crcStep bootPolynomial crc := by
  have hlow : crc &&& 1#32 = whenSet (crc.getLsbD 0) 1#32 := by
    refine BitVec.eq_of_getLsbD_eq fun i hi => ?_
    rw [BitVec.getLsbD_and, getLsbD_whenSet, BitVec.getLsbD_one]
    by_cases h0 : i = 0
    · rw [h0]
    · simp [h0]
  rw [crcBit, crcStep, hlow]
  cases crc.getLsbD 0
  · rfl
  · rfl

/-- A byte is eight bits. -/
theorem crcByte_eq (bytes : ℕ → UInt8) (index : ℕ) (crc : BitVec 32) :
    crcByte crc (bytes index) =
      crcFeed bootPolynomial (fun k => streamBit bytes (8 * index + k)) 8 crc := by
  have hstep : crcBit = crcStep bootPolynomial := funext crcBit_eq
  have hbyte : (bytes index).toBitVec.setWidth 32 =
      packed 32 (fun k => streamBit bytes (8 * index + k)) 8 := by
    refine BitVec.eq_of_getLsbD_eq fun i hi => ?_
    rw [BitVec.getLsbD_setWidth, getLsbD_packed]
    by_cases h8 : i < 8
    · have hdiv : (8 * index + i) / 8 = index := by omega
      have hmod : (8 * index + i) % 8 = i := by omega
      simp only [streamBit, hdiv, hmod, h8, hi, decide_true, Bool.true_and]
    · rw [BitVec.getLsbD_of_ge _ i (by omega)]
      simp [h8]
  rw [crcByte, hstep, hbyte, crcFeed_load (by decide)]

/-- **The loops compute the register of the stream of bits.** -/
theorem crcBytes_eq_crcFeed (bytes : ℕ → UInt8) (size : ℕ) :
    crcBytes bytes size = crcFeed bootPolynomial (streamBit bytes) (8 * size) 0xFFFFFFFF#32 := by
  induction size with
  | zero => rfl
  | succ size ih =>
    rw [crcBytes, crcByte_eq, ih, Nat.mul_succ, crcFeed_add]

/-- The payloads `bytes` and `other` differ, and the bits that differ lie within 32 in a row
from bit `start` on. -/
structure Burst (bytes other : ℕ → UInt8) (size start : ℕ) : Prop where
  within : ∀ k < 8 * size, streamBit bytes k ≠ streamBit other k → start ≤ k ∧ k < start + 32
  differ : ∃ i < size, bytes i ≠ other i

/-- Bytes that differ have a bit that differs. -/
theorem exists_streamBit_ne {bytes other : ℕ → UInt8} {size i : ℕ} (hi : i < size)
    (h : bytes i ≠ other i) : ∃ k < 8 * size, streamBit bytes k ≠ streamBit other k := by
  by_contra hall
  apply h
  apply UInt8.toBitVec_inj.mp
  refine BitVec.eq_of_getLsbD_eq fun j hj => ?_
  by_contra hbit
  refine hall ⟨8 * i + j, by omega, ?_⟩
  rwa [streamBit, streamBit, show (8 * i + j) / 8 = i by omega,
    show (8 * i + j) % 8 = j by omega]

/-- Every burst changes the checksum. -/
theorem Burst.bootCrc32_ne {bytes other : ℕ → UInt8} {size start : ℕ}
    (h : Burst bytes other size start) : bootCrc32 bytes size ≠ bootCrc32 other size := by
  obtain ⟨i, hi, hne⟩ := h.differ
  intro heq
  rw [bootCrc32, bootCrc32, BitVec.not_inj, crcBytes_eq_crcFeed, crcBytes_eq_crcFeed] at heq
  exact crcFeed_burst (by decide) h.within (exists_streamBit_ne hi hne) _ heq

/-! ### Loading -/

/-- `read_blocks`. -/
def readBlocks (backend lba blocks : ℕ) : StorageM Bool :=
  if backend = 1 then usbRead lba blocks else ataRead lba blocks

/-- The loop of `load_image` from `loaded` on.  Every turn loads at least one sector, so
`sectors` turns are enough; what it shows on the screen is left out. -/
def loadImageFrom (backend lba sectors destination : ℕ) : ℕ → ℕ → StorageM Unit
  | 0, _ => return ()
  | turns + 1, loaded => do
    if loaded < sectors then
      let count := if blocksPerRead < sectors - loaded then blocksPerRead else sectors - loaded
      report 6 (add32 lba loaded)
      if (← readBlocks backend (add32 lba loaded) count) = false then storageFail
      else
        copyOut (destination + loaded * 512) (count * 512)
        loadImageFrom backend lba sectors destination turns (loaded + count)
    else return ()

/-- `load_image`. -/
def loadImage (backend lba sectors destination : ℕ) (crc : BitVec 32) : StorageM Unit := do
  loadImageFrom backend lba sectors destination sectors 0
  let m := (← get).mem
  if bootCrc32 (fun i => m (destination + i)) (sectors * 512 % 2 ^ 32) ≠ crc then storageFail
  else return ()

/-- An image that was accepted has the checksum of the manifest. -/
theorem loadImage_crc (backend lba sectors destination : ℕ) (crc : BitVec 32) (s : Storage) :
    Ensures (loadImage backend lba sectors destination crc) s fun _ t =>
      bootCrc32 (fun i => t.mem (destination + i)) (sectors * 512 % 2 ^ 32) = crc := by
  refine ensures_last fun _ u => ensures_get_bind (ensures_ite (fun _ => ensures_none) fun heq => ?_)
  exact ensures_pure (not_not.mp heq)

/-- **The payload checksum catches every burst.**  Two payloads of one length that differ,
and only within 32 bits in a row, have different checksums; so `load_image` does not accept
the one with the checksum of the other. -/
theorem bootCrc32_burst {bytes other : ℕ → UInt8} {size start : ℕ}
    (h : Burst bytes other size start) :
    bootCrc32 bytes size ≠ bootCrc32 other size ∧
      ∀ backend lba sectors destination s t, sectors * 512 % 2 ^ 32 = size →
        (∀ i < size, t.mem (destination + i) = other i) →
        (loadImage backend lba sectors destination (bootCrc32 bytes size)).run s ≠ some ((), t) := by
  refine ⟨h.bootCrc32_ne, ?_⟩
  intro backend lba sectors destination s t hsize hmem hrun
  have hcrc := loadImage_crc backend lba sectors destination _ s _ t hrun
  rw [hsize, bootCrc32, crcBytes_congr hmem] at hcrc
  exact h.bootCrc32_ne hcrc.symm

/-- One bit of the second byte. -/
theorem bootCrc32_burst_bit :
    bootCrc32 (fun _ => 0) 512 ≠ bootCrc32 (fun i => if i = 1 then 0x10 else 0) 512 := by
  refine (@bootCrc32_burst _ _ _ 12 ⟨?_, 1, by decide, by decide⟩).1
  intro k _ hk
  by_contra hout
  apply hk
  by_cases h1 : k / 8 = 1
  · have hmod : k % 8 ≠ 4 := by omega
    have hrest : ∀ j < 8, j ≠ 4 →
        (0 : UInt8).toBitVec.getLsbD j = (0x10 : UInt8).toBitVec.getLsbD j := by
      decide
    simp only [streamBit, h1, if_true]
    exact hrest _ (Nat.mod_lt _ (by decide)) hmod
  · simp only [streamBit, if_neg h1]

end VirtualKernel
