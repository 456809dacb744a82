/-
The image builder.

`build.ps1` copies four payloads into the image, each to the sectors that
`BootLayout.inc` reserves for it, and `build-bootstrap.ps1` writes the checksums of two
of them, padded to their sectors, into the manifest that the bootstrap carries.  Both
scripts throw on sizes that do not fit.

* `bootImageCrc32_eq` — the checksum of the builder is that of the loader;
* `buildImage_payload` — the reserved sectors of the image hold the padded payloads;
* `bootManifest_of_image` — the manifest stands in sector 5, and its checksums are those
  of the sectors that it describes.
-/
import VirtualKernel.BootPayload
import VirtualKernel.Lib.Packing
import Mathlib.Data.List.Induction

namespace VirtualKernel

open Lib

/-! ### The layout of the image -/

abbrev setupStartLba : ℕ := 1
abbrev setupSectors : ℕ := 64
abbrev highStartLba : ℕ := 65
abbrev highSectors : ℕ := 256
abbrev intStartLba : ℕ := 321
abbrev intSectors : ℕ := 2049
abbrev imageSectors : ℕ := 4096

/-! ### The manifest -/

/-- `struct boot_manifest`. -/
structure BootManifest where
  magic : ℕ × ℕ
  version : ℕ
  setupSectors : ℕ
  highLba : ℕ
  highSectors : ℕ
  highCrc : ℕ
  interruptsLba : ℕ
  interruptsSectors : ℕ
  interruptsCrc : ℕ
deriving DecidableEq

/-- `boot_manifest_valid`. -/
def bootManifestValid (m : BootManifest) : Bool :=
  m.magic.1 = 0x4253554E ∧ m.magic.2 = 0x544F4F42 ∧ m.version = 1 ∧ m.setupSectors = 64 ∧
    m.highLba = 65 ∧ m.highSectors = 256 ∧ m.interruptsLba = 321 ∧ m.interruptsSectors = 2049

/-- The dwords of the manifest, in their order. -/
def BootManifest.words (m : BootManifest) : List ℕ :=
  [m.magic.1, m.magic.2, m.version, m.setupSectors, m.highLba, m.highSectors, m.highCrc,
    m.interruptsLba, m.interruptsSectors, m.interruptsCrc]

/-- What the assembler makes of `dd`. -/
def ddBytes (value : ℕ) : List UInt8 :=
  [UInt8.ofNat value, UInt8.ofNat (value >>> 8), UInt8.ofNat (value >>> 16),
    UInt8.ofNat (value >>> 24)]

/-- `BootManifest.inc`, assembled. -/
def BootManifest.bytes (m : BootManifest) : List UInt8 := m.words.flatMap ddBytes

/-- The manifest that lies at `a`. -/
def manifestAt (memory : ℕ → UInt8) (a : ℕ) : BootManifest where
  magic := (word memory a, word memory (a + 4))
  version := word memory (a + 8)
  setupSectors := word memory (a + 12)
  highLba := word memory (a + 16)
  highSectors := word memory (a + 20)
  highCrc := word memory (a + 24)
  interruptsLba := word memory (a + 28)
  interruptsSectors := word memory (a + 32)
  interruptsCrc := word memory (a + 36)

/-! ### `build-bootstrap.ps1` -/

/-- A turn of the inner loop of `BootImageCrc32.Compute`. -/
def imageCrcBit (crc : BitVec 32) : BitVec 32 :=
  (crc >>> 1) ^^^ if crc &&& 1#32 ≠ 0#32 then 0xEDB88320#32 else 0#32

/-- `BootImageCrc32.Compute`. -/
def bootImageCrc32 (bytes : List UInt8) : BitVec 32 :=
  ~~~bytes.foldl (fun crc value => imageCrcBit^[8] (crc ^^^ value.toBitVec.setWidth 32)) 0xFFFFFFFF#32

/-- `Get-PayloadCrc`. -/
def getPayloadCrc (bytes : List UInt8) (sectors : ℕ) : Option (BitVec 32) :=
  if sectors * 512 < bytes.length then none
  else (copyInto (List.replicate (sectors * 512) 0) 0 bytes).map bootImageCrc32

/-- The manifest for two payloads. -/
def buildManifest (high interrupts : List UInt8) : Option BootManifest := do
  let highCrc ← getPayloadCrc high highSectors
  let interruptCrc ← getPayloadCrc interrupts intSectors
  return ⟨(0x4253554E, 0x544F4F42), 1, setupSectors, highStartLba, highSectors, highCrc.toNat,
    intStartLba, intSectors, interruptCrc.toNat⟩

/-- `times size - ($-$$) db 0`. -/
def padTo (size : ℕ) (bytes : List UInt8) : Option (List UInt8) :=
  if bytes.length ≤ size then some (bytes ++ List.replicate (size - bytes.length) 0) else none

/-- `kernel.bin`: the code of `kernel.asm`, the manifest, and `BootStorage.bin`. -/
def assembleSetup (code : List UInt8) (m : BootManifest) (storage : List UInt8) :
    Option (List UInt8) := do
  let code ← padTo 0x800 code
  let code ← padTo 0x1000 (code ++ m.bytes)
  padTo (setupSectors * 512) (code ++ storage)

/-! ### `build.ps1` -/

/-- An entry of `$payloads`. -/
structure ImagePayload where
  bytes : List UInt8
  lba : ℕ
  sectors : ℕ
  exact : Bool

/-- The size of the payload does not throw. -/
def ImagePayload.Accepted (p : ImagePayload) : Prop :=
  p.bytes.length ≠ 0 ∧ p.bytes.length ≤ p.sectors * 512 ∧
    (p.exact = true → p.bytes.length = p.sectors * 512)

instance (p : ImagePayload) : Decidable p.Accepted :=
  inferInstanceAs (Decidable (_ ∧ _ ∧ (_ → _)))

/-- The loop over `$payloads`. -/
def packPayloads : List UInt8 → List ImagePayload → Option (List UInt8)
  | image, [] => some image
  | image, p :: rest =>
    if p.Accepted then
      (copyInto image (p.lba * 512) p.bytes).bind fun image => packPayloads image rest
    else none

/-- `$payloads`. -/
def imagePayloads (boot setup high interrupts : List UInt8) : List ImagePayload :=
  [⟨boot, 0, 1, true⟩, ⟨setup, setupStartLba, setupSectors, true⟩,
    ⟨high, highStartLba, highSectors, true⟩, ⟨interrupts, intStartLba, intSectors, false⟩]

/-- `build.ps1` from the payloads on: the bytes of `myos.img`. -/
def buildImage (boot setup high interrupts : List UInt8) : Option (List UInt8) := do
  let image ← packPayloads (List.replicate (imageSectors * 512) 0)
    (imagePayloads boot setup high interrupts)
  if image.getD 510 0 ≠ 0x55 ∨ image.getD 511 0 ≠ 0xAA then none else return image

/-! ### Two checksums -/

/-- Both turns look at the low bit. -/
theorem imageCrcBit_eq : imageCrcBit = crcBit := by
  funext crc
  rw [imageCrcBit, crcBit_eq, crcStep, BitVec.and_one_eq_setWidth_ofBool_getLsbD]
  cases crc.getLsbD 0 with
  | false => rfl
  | true => rfl

/-- **The checksum of the builder is that of the loader.** -/
theorem bootImageCrc32_eq (bytes : List UInt8) :
    bootImageCrc32 bytes = bootCrc32 (fun i => bytes.getD i 0) bytes.length := by
  rw [bootImageCrc32, bootCrc32, imageCrcBit_eq]
  congr 1
  induction bytes using List.reverseRecOn with
  | nil => rfl
  | append_singleton bytes byte ih =>
    have hlast : (bytes ++ [byte]).getD bytes.length 0 = byte := by
      rw [List.getD_append_right _ _ _ _ (Nat.le_refl _), Nat.sub_self]
      rfl
    rw [List.foldl_append, ih, List.length_append, List.length_singleton, crcBytes, hlast]
    refine congrArg (fun crc => crcByte crc byte) (crcBytes_congr fun i hi => ?_)
    exact (List.getD_append _ _ _ _ hi).symm

/-- A payload padded with zeros, as `Get-PayloadCrc` pads it. -/
theorem padded_getD {bytes padded : List UInt8} {n : ℕ}
    (h : copyInto (List.replicate n 0) 0 bytes = some padded) (i : ℕ) :
    padded.getD i 0 = bytes.getD i 0 := by
  by_cases hi : i < bytes.length
  · have hin : padded.getD (0 + i) 0 = bytes.getD i 0 := copyInto_inside h hi
    rwa [Nat.zero_add] at hin
  · rw [copyInto_outside h (Or.inr (by omega)), List.getD_eq_default _ _ (Nat.le_of_not_lt hi)]
    by_cases hn : i < n
    · rw [List.getD_replicate _ hn]
    · exact List.getD_eq_default _ _ (by rw [List.length_replicate]; omega)

/-- The checksum of a payload is that of its sectors. -/
theorem getPayloadCrc_eq {bytes : List UInt8} {sectors : ℕ} {crc : BitVec 32}
    (h : getPayloadCrc bytes sectors = some crc) :
    bytes.length ≤ sectors * 512 ∧
      crc = bootCrc32 (fun i => bytes.getD i 0) (sectors * 512) := by
  rw [getPayloadCrc] at h
  split_ifs at h with hlong
  obtain ⟨padded, hpadded, rfl⟩ := Option.map_eq_some_iff.mp h
  refine ⟨Nat.le_of_not_lt hlong, ?_⟩
  rw [bootImageCrc32_eq, length_copyInto hpadded, List.length_replicate]
  exact congrArg (fun bytes => bootCrc32 bytes (sectors * 512)) (funext (padded_getD hpadded))

/-! ### The manifest in memory -/

theorem length_flatMap_ddBytes (words : List ℕ) : (words.flatMap ddBytes).length = 4 * words.length := by
  induction words with
  | nil => rfl
  | cons value words ih =>
    rw [List.flatMap_cons, List.length_append, ih, List.length_cons]
    show 4 + 4 * words.length = 4 * (words.length + 1)
    omega

theorem flatMap_ddBytes (words : List ℕ) {k i : ℕ} (hk : k < words.length) (hi : i < 4) :
    (words.flatMap ddBytes).getD (4 * k + i) 0 = (ddBytes (words.getD k 0)).getD i 0 := by
  induction words generalizing k with
  | nil => exact absurd hk (Nat.not_lt_zero k)
  | cons value words ih =>
    have hlen : (ddBytes value).length = 4 := rfl
    rw [List.flatMap_cons]
    cases k with
    | zero =>
      rw [Nat.mul_zero, Nat.zero_add, List.getD_cons_zero]
      exact List.getD_append _ _ _ _ (by omega)
    | succ k =>
      rw [List.getD_append_right _ _ _ _ (by omega), hlen, show 4 * (k + 1) + i - 4 = 4 * k + i by omega,
        List.getD_cons_succ]
      exact ih (Nat.lt_of_succ_lt_succ hk)

/-- A dword is read back. -/
theorem word_ddBytes {memory : ℕ → UInt8} {a value : ℕ} (hv : value < 2 ^ 32)
    (h : ∀ i < 4, memory (a + i) = (ddBytes value).getD i 0) : word memory a = value := by
  have h0 : memory a = UInt8.ofNat value := h 0 (by decide)
  have h1 : memory (a + 1) = UInt8.ofNat (value >>> 8) := h 1 (by decide)
  have h2 : memory (a + 2) = UInt8.ofNat (value >>> 16) := h 2 (by decide)
  have h3 : memory (a + 3) = UInt8.ofNat (value >>> 24) := h 3 (by decide)
  rw [word, h0, h1, h2, h3]
  simp only [UInt8.toNat_ofNat', Nat.shiftRight_eq_div_pow]
  omega

/-- **A manifest is read back** from where its bytes lie. -/
theorem manifestAt_bytes {memory : ℕ → UInt8} {a : ℕ} {m : BootManifest}
    (hm : ∀ value ∈ m.words, value < 2 ^ 32) (h : ∀ i < 40, memory (a + i) = m.bytes.getD i 0) :
    manifestAt memory a = m := by
  have hword : ∀ k < 10, word memory (a + 4 * k) = m.words.getD k 0 := by
    intro k hk
    have hlen : m.words.length = 10 := rfl
    refine word_ddBytes (hm _ ?_) fun i hi => ?_
    · rw [List.getD_eq_getElem _ _ (by omega)]
      exact List.getElem_mem _
    · rw [Nat.add_assoc, h _ (by omega)]
      exact flatMap_ddBytes _ (by omega) hi
  exact congr (congr (congr (congr (congr (congr (congr (congr (congrArg BootManifest.mk
    (Prod.ext (hword 0 (by decide)) (hword 1 (by decide)))) (hword 2 (by decide)))
    (hword 3 (by decide))) (hword 4 (by decide))) (hword 5 (by decide))) (hword 6 (by decide)))
    (hword 7 (by decide))) (hword 8 (by decide))) (hword 9 (by decide))

/-- What `build-bootstrap.ps1` writes for two payloads. -/
theorem buildManifest_eq {high interrupts : List UInt8} {m : BootManifest}
    (h : buildManifest high interrupts = some m) :
    m = ⟨(0x4253554E, 0x544F4F42), 1, 64, 65, 256,
      (bootCrc32 (fun i => high.getD i 0) (highSectors * 512)).toNat, 321, 2049,
      (bootCrc32 (fun i => interrupts.getD i 0) (intSectors * 512)).toNat⟩ := by
  obtain ⟨highCrc, hhigh, h⟩ := Option.bind_eq_some_iff.mp h
  obtain ⟨interruptCrc, hinterrupt, h⟩ := Option.bind_eq_some_iff.mp h
  rw [← Option.some.inj h, (getPayloadCrc_eq hhigh).2, (getPayloadCrc_eq hinterrupt).2]

theorem buildManifest_words {high interrupts : List UInt8} {m : BootManifest}
    (h : buildManifest high interrupts = some m) : ∀ value ∈ m.words, value < 2 ^ 32 := by
  rw [buildManifest_eq h]
  intro value hvalue
  simp only [BootManifest.words, List.mem_cons, List.not_mem_nil, or_false] at hvalue
  rcases hvalue with rfl | rfl | rfl | rfl | rfl | rfl | rfl | rfl | rfl | rfl
  all_goals first | exact BitVec.isLt _ | decide

/-! ### The image -/

theorem padTo_eq {size : ℕ} {bytes padded : List UInt8} (h : padTo size bytes = some padded) :
    bytes.length ≤ size ∧ padded = bytes ++ List.replicate (size - bytes.length) 0 := by
  rw [padTo] at h
  split_ifs at h with hfits
  exact ⟨hfits, (Option.some.inj h).symm⟩

theorem length_padTo {size : ℕ} {bytes padded : List UInt8} (h : padTo size bytes = some padded) :
    padded.length = size := by
  obtain ⟨hfits, rfl⟩ := padTo_eq h
  rw [List.length_append, List.length_replicate]
  omega

theorem padTo_getD {size i : ℕ} {bytes padded : List UInt8} (h : padTo size bytes = some padded)
    (hi : i < bytes.length) : padded.getD i 0 = bytes.getD i 0 := by
  obtain ⟨-, rfl⟩ := padTo_eq h
  exact List.getD_append _ _ _ _ hi

/-- The manifest lies at 800h in `kernel.bin`. -/
theorem assembleSetup_manifest {code storage setup : List UInt8} {m : BootManifest}
    (h : assembleSetup code m storage = some setup) {i : ℕ} (hi : i < 40) :
    setup.getD (0x800 + i) 0 = m.bytes.getD i 0 := by
  obtain ⟨code₁, h₁, h⟩ := Option.bind_eq_some_iff.mp h
  obtain ⟨code₂, h₂, h₃⟩ := Option.bind_eq_some_iff.mp h
  have hlen₁ := length_padTo h₁
  have hlen₂ := length_padTo h₂
  have hlen : m.bytes.length = 40 := length_flatMap_ddBytes m.words
  rw [padTo_getD h₃ (by rw [List.length_append]; omega), List.getD_append _ _ _ _ (by omega),
    padTo_getD h₂ (by rw [List.length_append]; omega), List.getD_append_right _ _ _ _ (by omega),
    hlen₁, Nat.add_sub_cancel_left]

/-- An accepted payload in its sectors. -/
def ImagePayload.piece (p : ImagePayload) (h : p.Accepted) : Piece UInt8 :=
  ⟨p.bytes, p.lba * 512, p.sectors * 512, h.2.1⟩

/-- The loop packs pieces. -/
theorem packPayloads_pieces {image result : List UInt8} {payloads : List ImagePayload}
    (h : packPayloads image payloads = some result) :
    ∃ hok : ∀ p ∈ payloads, p.Accepted,
      packInto image (payloads.pmap ImagePayload.piece hok) = some result := by
  induction payloads generalizing image with
  | nil => exact ⟨fun p hp => absurd hp List.not_mem_nil, h⟩
  | cons p rest ih =>
    rw [packPayloads] at h
    split_ifs at h with hp
    obtain ⟨next, hnext, hrest⟩ := Option.bind_eq_some_iff.mp h
    obtain ⟨hok, hpack⟩ := ih hrest
    refine ⟨fun q hq => ?_, ?_⟩
    · rcases List.mem_cons.mp hq with rfl | hq
      · exact hp
      · exact hok q hq
    · rw [List.pmap_cons, packInto]
      exact Option.bind_eq_some_iff.mpr ⟨next, hnext, hpack⟩

/-- The sectors of a payload hold it, padded with zeros. -/
theorem packPayloads_payload {n : ℕ} {boot setup high interrupts image : List UInt8}
    (h : packPayloads (List.replicate n 0) (imagePayloads boot setup high interrupts) = some image)
    {p : ImagePayload} (hp : p ∈ imagePayloads boot setup high interrupts) {i : ℕ}
    (hi : i < p.sectors * 512) : image.getD (p.lba * 512 + i) 0 = p.bytes.getD i 0 := by
  obtain ⟨hok, hpack⟩ := packPayloads_pieces h
  refine packInto_piece (p := p.piece (hok p hp)) hpack (List.mem_pmap.mpr ⟨p, hp, rfl⟩) ?_ ?_ hi
  · rw [List.pairwise_pmap]
    -- the reservations follow one another
    have hafter : (imagePayloads boot setup high interrupts).Pairwise fun q r =>
        q.lba + q.sectors ≤ r.lba := by
      simp [imagePayloads, setupStartLba, setupSectors, highStartLba, highSectors, intStartLba]
    refine hafter.imp fun hqr _ _ j hq hr => ?_
    have h₁ := hq.2
    have h₂ := hr.1
    simp only [ImagePayload.piece] at h₁ h₂
    omega
  · intro j _
    by_cases hj : j < n
    · exact List.getD_replicate _ hj
    · exact List.getD_eq_default _ _ (by rw [List.length_replicate]; omega)

theorem buildImage_packed {boot setup high interrupts image : List UInt8}
    (h : buildImage boot setup high interrupts = some image) :
    packPayloads (List.replicate (imageSectors * 512) 0) (imagePayloads boot setup high interrupts) =
      some image := by
  obtain ⟨packed, hpacked, h⟩ := Option.bind_eq_some_iff.mp h
  split_ifs at h
  rwa [← Option.some.inj h]

/-! ### Loading -/

/-- The area and the checksum are those of a payload of the manifest. -/
def BootManifest.Describes (m : BootManifest) (lba sectors crc : ℕ) : Prop :=
  lba = m.highLba ∧ sectors = m.highSectors ∧ crc = m.highCrc ∨
    lba = m.interruptsLba ∧ sectors = m.interruptsSectors ∧ crc = m.interruptsCrc

/-- After its loop `load_image` compares the checksums. -/
theorem loadImage_of_loaded {backend lba sectors destination : ℕ} {crc : BitVec 32} {s u : Storage}
    (h : (loadImageFrom backend lba sectors destination sectors 0).run s = some ((), u)) :
    (loadImage backend lba sectors destination crc).run s =
      if bootCrc32 (fun i => u.mem (destination + i)) (sectors * 512 % 2 ^ 32) = crc then
        some ((), u) else none := by
  rw [loadImage, StateT.run_bind, h]
  show (if bootCrc32 _ _ ≠ crc then storageFail else (pure () : StorageM Unit)).run u = _
  by_cases heq : bootCrc32 (fun i => u.mem (destination + i)) (sectors * 512 % 2 ^ 32) = crc
  · rw [if_pos heq, if_neg (not_not.mpr heq)]
    rfl
  · rw [if_neg heq, if_pos heq]
    rfl

section Packed

variable {boot code storage high interrupts setup image : List UInt8} {m : BootManifest}

/-- The manifest describes sectors of the image, with their checksum. -/
theorem describes_image (hm : buildManifest high interrupts = some m)
    (hi : buildImage boot setup high interrupts = some image) {lba sectors crc : ℕ}
    (h : m.Describes lba sectors crc) :
    sectors * 512 < 2 ^ 32 ∧
      BitVec.ofNat 32 crc = bootCrc32 (fun i => image.getD (lba * 512 + i) 0) (sectors * 512) := by
  have hpacked := buildImage_packed hi
  rw [buildManifest_eq hm] at h
  rcases h with ⟨rfl, rfl, rfl⟩ | ⟨rfl, rfl, rfl⟩
  · refine ⟨show 256 * 512 < 2 ^ 32 by decide, ?_⟩
    rw [BitVec.ofNat_toNat, BitVec.setWidth_eq, bootCrc32, bootCrc32]
    refine congrArg _ (crcBytes_congr fun i hi => (packPayloads_payload hpacked
      (p := ⟨high, highStartLba, highSectors, true⟩) ?_ hi).symm)
    simp [imagePayloads]
  · refine ⟨show 2049 * 512 < 2 ^ 32 by decide, ?_⟩
    rw [BitVec.ofNat_toNat, BitVec.setWidth_eq, bootCrc32, bootCrc32]
    refine congrArg _ (crcBytes_congr fun i hi => (packPayloads_payload hpacked
      (p := ⟨interrupts, intStartLba, intSectors, false⟩) ?_ hi).symm)
    simp [imagePayloads]

/-- The manifest stands in sector 5. -/
theorem image_manifest (hm : buildManifest high interrupts = some m)
    (hs : assembleSetup code m storage = some setup)
    (hi : buildImage boot setup high interrupts = some image) :
    manifestAt (fun i => image.getD i 0) (5 * 512) = m := by
  refine manifestAt_bytes (buildManifest_words hm) fun i hi' => ?_
  have hlt : 0x800 + i < 64 * 512 := by omega
  have hsetup : image.getD (1 * 512 + (0x800 + i)) 0 = setup.getD (0x800 + i) 0 :=
    packPayloads_payload (buildImage_packed hi) (p := ⟨setup, setupStartLba, setupSectors, true⟩)
      (by simp [imagePayloads]) hlt
  have hsector : 5 * 512 + i = 1 * 512 + (0x800 + i) := by omega
  rw [← assembleSetup_manifest hs hi', ← hsetup, hsector]

/-! The scripts accept payloads of the right sizes. -/

theorem exists_getPayloadCrc {bytes : List UInt8} {sectors : ℕ} (h : bytes.length ≤ sectors * 512) :
    ∃ crc, getPayloadCrc bytes sectors = some crc := by
  have hfits : 0 + bytes.length ≤ (List.replicate (sectors * 512) (0 : UInt8)).length := by
    rw [List.length_replicate]
    omega
  rw [getPayloadCrc, if_neg (Nat.not_lt.mpr h), copyInto, if_pos hfits]
  exact ⟨_, rfl⟩

theorem exists_buildManifest (hhigh : high.length ≤ highSectors * 512)
    (hinterrupts : interrupts.length ≤ intSectors * 512) :
    ∃ m, buildManifest high interrupts = some m := by
  obtain ⟨highCrc, h₁⟩ := exists_getPayloadCrc hhigh
  obtain ⟨interruptCrc, h₂⟩ := exists_getPayloadCrc hinterrupts
  rw [buildManifest, h₁, h₂]
  exact ⟨_, rfl⟩

theorem exists_assembleSetup (hcode : code.length ≤ 0x800) (hstorage : storage.length ≤ 0x7000) :
    ∃ setup, assembleSetup code m storage = some setup := by
  have hlen : m.bytes.length = 40 := length_flatMap_ddBytes m.words
  have hpad : ∀ {size : ℕ} {bytes : List UInt8}, bytes.length ≤ size →
      ∃ padded, padTo size bytes = some padded := fun h => ⟨_, if_pos h⟩
  obtain ⟨code₁, h₁⟩ := hpad hcode
  have hlen₁ := length_padTo h₁
  obtain ⟨code₂, h₂⟩ : ∃ padded, padTo 0x1000 (code₁ ++ m.bytes) = some padded :=
    hpad (by rw [List.length_append]; omega)
  have hlen₂ := length_padTo h₂
  obtain ⟨setup, h₃⟩ : ∃ padded, padTo (setupSectors * 512) (code₂ ++ storage) = some padded :=
    hpad (by rw [List.length_append, setupSectors]; omega)
  refine ⟨setup, Option.bind_eq_some_iff.mpr ⟨code₁, h₁, ?_⟩⟩
  exact Option.bind_eq_some_iff.mpr ⟨code₂, h₂, h₃⟩

theorem length_assembleSetup (h : assembleSetup code m storage = some setup) :
    setup.length = setupSectors * 512 := by
  obtain ⟨code₁, -, h⟩ := Option.bind_eq_some_iff.mp h
  obtain ⟨code₂, -, h⟩ := Option.bind_eq_some_iff.mp h
  exact length_padTo h

theorem exists_packPayloads {image : List UInt8} {payloads : List ImagePayload}
    (hok : ∀ p ∈ payloads, p.Accepted)
    (hroom : ∀ p ∈ payloads, (p.lba + p.sectors) * 512 ≤ image.length) :
    ∃ result, packPayloads image payloads = some result := by
  induction payloads generalizing image with
  | nil => exact ⟨image, rfl⟩
  | cons p rest ih =>
    have hp := hok p List.mem_cons_self
    have hroom₁ := hroom p List.mem_cons_self
    have hshort := hp.2.1
    have hfits : p.lba * 512 + p.bytes.length ≤ image.length := by
      rw [Nat.add_mul] at hroom₁
      exact (Nat.add_le_add_left hshort _).trans hroom₁
    obtain ⟨next, hnext⟩ : ∃ next, copyInto image (p.lba * 512) p.bytes = some next :=
      ⟨_, if_pos hfits⟩
    have hlen := length_copyInto hnext
    obtain ⟨result, hresult⟩ : ∃ result, packPayloads next rest = some result :=
      ih (fun q hq => hok q (List.mem_cons_of_mem p hq))
        fun q hq => hlen ▸ hroom q (List.mem_cons_of_mem p hq)
    rw [packPayloads, if_pos hp]
    exact ⟨result, Option.bind_eq_some_iff.mpr ⟨next, hnext, hresult⟩⟩

theorem ImagePayload.accepted_exact {bytes : List UInt8} {lba sectors : ℕ}
    (h : bytes.length = sectors * 512) (h0 : 0 < sectors) :
    (ImagePayload.mk bytes lba sectors true).Accepted :=
  ⟨show bytes.length ≠ 0 by omega, Nat.le_of_eq h, fun _ => h⟩

theorem exists_buildImage (hboot : boot.length = 1 * 512) (h55 : boot.getD 510 0 = 0x55)
    (hAA : boot.getD 511 0 = 0xAA) (hsetup : setup.length = setupSectors * 512)
    (hhigh : high.length = highSectors * 512) (h0 : interrupts.length ≠ 0)
    (hinterrupts : interrupts.length ≤ intSectors * 512) :
    ∃ image, buildImage boot setup high interrupts = some image := by
  have hok : ∀ p ∈ imagePayloads boot setup high interrupts,
      p.Accepted ∧ p.lba + p.sectors ≤ imageSectors := by
    intro p hp
    simp only [imagePayloads, List.mem_cons, List.not_mem_nil, or_false] at hp
    rcases hp with rfl | rfl | rfl | rfl
    · exact ⟨ImagePayload.accepted_exact hboot (by decide), show 0 + 1 ≤ 4096 by decide⟩
    · exact ⟨ImagePayload.accepted_exact hsetup (by decide), show 1 + 64 ≤ 4096 by decide⟩
    · exact ⟨ImagePayload.accepted_exact hhigh (by decide), show 65 + 256 ≤ 4096 by decide⟩
    · exact ⟨⟨h0, hinterrupts, fun h => Bool.noConfusion h⟩, show 321 + 2049 ≤ 4096 by decide⟩
  obtain ⟨image, himage⟩ : ∃ image, packPayloads (List.replicate (imageSectors * 512) 0)
      (imagePayloads boot setup high interrupts) = some image :=
    exists_packPayloads (fun p hp => (hok p hp).1) fun p hp => by
      rw [List.length_replicate]
      exact Nat.mul_le_mul_right 512 (hok p hp).2
  have hfirst : ∀ i < 512, image.getD i 0 = boot.getD i 0 := fun i hi => by
    have h := packPayloads_payload himage (p := ⟨boot, 0, 1, true⟩) List.mem_cons_self (i := i)
      (show i < 1 * 512 by omega)
    rwa [Nat.zero_mul, Nat.zero_add] at h
  refine ⟨image, Option.bind_eq_some_iff.mpr ⟨image, himage, if_neg ?_⟩⟩
  rw [hfirst 510 (by decide), hfirst 511 (by decide), h55, hAA]
  decide

/-- A kernel of zeros and one byte of interrupt handlers. -/
theorem exists_blankImage : ∃ m setup image,
    buildManifest (List.replicate (highSectors * 512) 0) [0x90] = some m ∧
    assembleSetup [] m [] = some setup ∧
    buildImage (List.replicate 510 0 ++ [0x55, 0xAA]) setup (List.replicate (highSectors * 512) 0)
      [0x90] = some image := by
  have hhigh : (List.replicate (highSectors * 512) (0 : UInt8)).length = highSectors * 512 :=
    List.length_replicate
  obtain ⟨m, hm⟩ : ∃ m, buildManifest (List.replicate (highSectors * 512) 0) [0x90] = some m :=
    exists_buildManifest (Nat.le_of_eq hhigh) (by decide)
  obtain ⟨setup, hs⟩ : ∃ setup, assembleSetup [] m [] = some setup :=
    exists_assembleSetup (by decide) (by decide)
  have hzeros : (List.replicate 510 (0 : UInt8)).length = 510 := List.length_replicate
  have hboot : (List.replicate 510 (0 : UInt8) ++ [0x55, 0xAA]).length = 1 * 512 := by
    rw [List.length_append, hzeros]
    rfl
  obtain ⟨image, hi⟩ : ∃ image, buildImage (List.replicate 510 0 ++ [0x55, 0xAA]) setup
      (List.replicate (highSectors * 512) 0) [0x90] = some image := exists_buildImage hboot
    (by rw [List.getD_append_right _ _ _ _ (Nat.le_of_eq hzeros), hzeros]; rfl)
    (by rw [List.getD_append_right _ _ _ _ (by omega), hzeros]; rfl)
    (length_assembleSetup hs) hhigh (by decide) (by decide)
  exact ⟨m, setup, image, hm, hs, hi⟩

/-- **What the builder packs is what the bootstrap accepts.**  For all payloads that the
scripts accept, sector 5 of the image holds a valid manifest, the sectors that it describes
hold the payloads padded with zeros, and `load_image` accepts these sectors; it refuses
whatever differs from them only within 32 bits in a row. -/
theorem packed_image_loads (hm : buildManifest high interrupts = some m)
    (hs : assembleSetup code m storage = some setup)
    (hi : buildImage boot setup high interrupts = some image) :
    (manifestAt (fun i => image.getD i 0) (5 * 512) = m ∧ bootManifestValid m = true) ∧
    (∀ i < m.highSectors * 512, image.getD (m.highLba * 512 + i) 0 = high.getD i 0) ∧
    (∀ i < m.interruptsSectors * 512,
      image.getD (m.interruptsLba * 512 + i) 0 = interrupts.getD i 0) ∧
    ∀ lba sectors crc, m.Describes lba sectors crc → ∀ backend destination s u,
      (loadImageFrom backend lba sectors destination sectors 0).run s = some ((), u) →
        ((∀ i < sectors * 512, u.mem (destination + i) = image.getD (lba * 512 + i) 0) →
          (loadImage backend lba sectors destination (BitVec.ofNat 32 crc)).run s = some ((), u)) ∧
        ∀ start, Burst (fun i => image.getD (lba * 512 + i) 0) (fun i => u.mem (destination + i))
            (sectors * 512) start →
          (loadImage backend lba sectors destination (BitVec.ofNat 32 crc)).run s = none := by
  have hpacked := buildImage_packed hi
  refine ⟨⟨image_manifest hm hs hi, ?_⟩, ?_, ?_, ?_⟩
  · rw [buildManifest_eq hm]
    rfl
  · rw [buildManifest_eq hm]
    exact fun i hlt => packPayloads_payload hpacked (p := ⟨high, highStartLba, highSectors, true⟩)
      (by simp [imagePayloads]) hlt
  · rw [buildManifest_eq hm]
    exact fun i hlt => packPayloads_payload hpacked
      (p := ⟨interrupts, intStartLba, intSectors, false⟩) (by simp [imagePayloads]) hlt
  · intro lba sectors crc h backend destination s u hrun
    obtain ⟨hsize, hcrc⟩ := describes_image hm hi h
    rw [loadImage_of_loaded hrun, Nat.mod_eq_of_lt hsize, hcrc]
    refine ⟨fun hmem => if_pos ?_, fun start hburst => if_neg hburst.bootCrc32_ne.symm⟩
    rw [bootCrc32, bootCrc32, crcBytes_congr hmem]

end Packed

/-- The blank image is accepted. -/
theorem packed_image_loads_blank : ∃ m setup image,
    buildManifest (List.replicate (highSectors * 512) 0) [0x90] = some m ∧
    buildImage (List.replicate 510 0 ++ [0x55, 0xAA]) setup (List.replicate (highSectors * 512) 0)
      [0x90] = some image ∧
    manifestAt (fun i => image.getD i 0) (5 * 512) = m ∧ bootManifestValid m = true := by
  obtain ⟨m, setup, image, hm, hs, hi⟩ := exists_blankImage
  exact ⟨m, setup, image, hm, hi, (packed_image_loads hm hs hi).1⟩

end VirtualKernel
