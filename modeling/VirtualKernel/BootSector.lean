/-
The boot sector reads the setup sectors.

`LoadFromDrive` reads sector by sector into a bounce buffer below 1 MiB, through the BIOS,
and copies each to its place.  The BIOS wants cylinder, head and sector, which
`ReadOneSectorToBounce` packs into CH, CL and DH.

* **`chsRegisters_exact`** — the packed registers name the only sector with the LBA;
* **`readOneSectorToBounce_spec`** — a read changes nothing but the bounce buffer;
* **`bootSector_exact`** — `LoadFromDrive` puts every sector in its place.
-/
import VirtualKernel.StorageTransport

namespace VirtualKernel

open Lib

abbrev biosMemoryEnd : ℕ := 0x500
abbrev bootOrigin : ℕ := 0x7C00
abbrev bootStack : ℕ := 0x8000
abbrev bounceBuffer : ℕ := 0x9000
abbrev sectorSize : ℕ := 512

/-! ### Cylinders, heads and sectors -/

/-- A sector as the BIOS names it; sectors count from 1. -/
structure Chs where
  cylinder : ℕ
  head : ℕ
  sector : ℕ
  deriving DecidableEq, Repr

/-- What INT 13h reads out of CH, CL and DH. -/
def decodeChs (ch cl dh : ℕ) : Chs := ⟨ch + cl / 2 ^ 6 * 2 ^ 8, dh, cl % 2 ^ 6⟩

/-- The number of a sector on a disk. -/
def Chs.linear (spt heads : ℕ) (t : Chs) : ℕ :=
  (t.cylinder * heads + t.head) * spt + (t.sector - 1)

/-- The sectors of a disk. -/
structure Chs.Valid (spt heads : ℕ) (t : Chs) : Prop where
  head_lt : t.head < heads
  sector_pos : 1 ≤ t.sector
  sector_le : t.sector ≤ spt

/-- `detect_drive_geometry`: sectors per track and heads, from CL and DH of INT 13h. -/
def detectDriveGeometry (cl dh : ℕ) : ℕ × ℕ := (cl % 2 ^ 8 &&& 0x3F, dh % 2 ^ 8 + 1)

/-- Whatever a BIOS reports, with sectors at all, is a geometry of up to 63 sectors and 256
heads. -/
theorem detectDriveGeometry_bounds {cl dh : ℕ} (h : cl % 2 ^ 6 ≠ 0) :
    1 ≤ (detectDriveGeometry cl dh).1 ∧ (detectDriveGeometry cl dh).1 ≤ 63 ∧
      1 ≤ (detectDriveGeometry cl dh).2 ∧ (detectDriveGeometry cl dh).2 ≤ 256 := by
  have hmask : cl % 2 ^ 8 &&& 0x3F = cl % 2 ^ 6 := by
    rw [Nat.and_two_pow_sub_one_eq_mod _ 6]
    omega
  simp only [detectDriveGeometry, hmask]
  omega

/-- `div word [v]`: quotient and remainder, or a divide error. -/
def div16 (ax dx v : ℕ) : Option (ℕ × ℕ) :=
  let n := dx * 2 ^ 16 + ax
  if v = 0 ∨ 2 ^ 16 ≤ n / v then none else some (n / v, n % v)

/-- The conversion in `ReadOneSectorToBounce`: CH, CL and DH. -/
def chsRegisters (spt heads bx : ℕ) : Option (ℕ × ℕ × ℕ) :=
  match div16 bx 0 spt with
  | none => none
  | some (ax, dx) =>
    let cl := (dx % 2 ^ 8 + 1) % 2 ^ 8
    match div16 ax 0 heads with
    | none => none
    | some (ax, dx) =>
      let dh := dx % 2 ^ 8
      let ch := ax % 2 ^ 8
      let ah := ax / 2 ^ 8 % 2 ^ 8 &&& 3
      let ah := ah <<< 6 % 2 ^ 8
      some (ch, cl ||| ah, dh)

section Conversion

variable {spt heads lba : ℕ}

theorem div16_zero {ax v : ℕ} (hv : 0 < v) (hax : ax < 2 ^ 16) :
    div16 ax 0 v = some (ax / v, ax % v) := by
  have hle : ax / v ≤ ax := Nat.div_le_self ax v
  rw [div16, Nat.zero_mul, Nat.zero_add]
  exact if_neg (by omega)

/-- The sector with a number is unique. -/
theorem Chs.linear_inj {t t' : Chs} (h : t.Valid spt heads) (h' : t'.Valid spt heads)
    (heq : t.linear spt heads = t'.linear spt heads) : t = t' := by
  have hspt : 0 < spt := lt_of_lt_of_le h.sector_pos h.sector_le
  have hheads : 0 < heads := Nat.lt_of_le_of_lt (Nat.zero_le _) h.head_lt
  have hs : t.sector - 1 < spt := by
    have h₁ := h.sector_pos
    have h₂ := h.sector_le
    omega
  have hs' : t'.sector - 1 < spt := by
    have h₁ := h'.sector_pos
    have h₂ := h'.sector_le
    omega
  -- the sector is a remainder and the track a quotient, and so on
  have htrack : t.cylinder * heads + t.head = t'.cylinder * heads + t'.head := by
    have hdiv := congrArg (· / spt) heq
    simpa only [Chs.linear, Nat.mul_comm _ spt, Nat.mul_add_div hspt, Nat.div_eq_of_lt hs,
      Nat.div_eq_of_lt hs', Nat.add_zero] using hdiv
  have hsector : t.sector - 1 = t'.sector - 1 := by
    have hmod := congrArg (· % spt) heq
    simpa only [Chs.linear, Nat.mul_comm _ spt, Nat.mul_add_mod, Nat.mod_eq_of_lt hs,
      Nat.mod_eq_of_lt hs'] using hmod
  have hcyl : t.cylinder = t'.cylinder := by
    have hdiv := congrArg (· / heads) htrack
    simpa only [Nat.mul_comm _ heads, Nat.mul_add_div hheads, Nat.div_eq_of_lt h.head_lt,
      Nat.div_eq_of_lt h'.head_lt, Nat.add_zero] using hdiv
  have hhead : t.head = t'.head := by
    have hmod := congrArg (· % heads) htrack
    simpa only [Nat.mul_comm _ heads, Nat.mul_add_mod, Nat.mod_eq_of_lt h.head_lt,
      Nat.mod_eq_of_lt h'.head_lt] using hmod
  have hcount : t.sector = t'.sector := by
    have h₁ := h.sector_pos
    have h₂ := h'.sector_pos
    omega
  cases t
  cases t'
  rw [Chs.mk.injEq]
  exact ⟨hcyl, hhead, hcount⟩

/-- The sector that has the number `lba`. -/
def chsOf (spt heads lba : ℕ) : Chs := ⟨lba / spt / heads, lba / spt % heads, lba % spt + 1⟩

theorem chsOf_valid (hspt : 0 < spt) (hheads : 0 < heads) : (chsOf spt heads lba).Valid spt heads :=
  ⟨Nat.mod_lt _ hheads, Nat.le_add_left 1 _, Nat.mod_lt _ hspt⟩

theorem chsOf_linear : (chsOf spt heads lba).linear spt heads = lba := by
  rw [Chs.linear, chsOf, Nat.add_sub_cancel, Nat.div_add_mod', Nat.div_add_mod']

/-- **The packed registers name the sector with the LBA.** -/
theorem chsRegisters_exact (hspt : 1 ≤ spt) (hspt' : spt ≤ 63) (hheads : 1 ≤ heads)
    (hheads' : heads ≤ 256) (hlba : lba < 2 ^ 16) (hcyl : lba / (spt * heads) < 1024) :
    ∃ ch cl dh, chsRegisters spt heads lba = some (ch, cl, dh) ∧ ch < 2 ^ 8 ∧ cl < 2 ^ 8 ∧
      dh < 2 ^ 8 ∧ decodeChs ch cl dh = chsOf spt heads lba := by
  have hsec : lba % spt < spt := Nat.mod_lt _ hspt
  have hhead : lba / spt % heads < heads := Nat.mod_lt _ hheads
  have hquot : lba / spt < 2 ^ 16 := lt_of_le_of_lt (Nat.div_le_self _ _) hlba
  rw [← Nat.div_div_eq_div_mul] at hcyl
  rw [chsRegisters, div16_zero hspt hlba]
  dsimp only
  rw [div16_zero hheads hquot]
  dsimp only
  generalize hc : lba / spt / heads = c at hcyl ⊢
  generalize hh : lba / spt % heads = h at hhead ⊢
  generalize hs : lba % spt = s at hsec ⊢
  -- the two top bits of the cylinder above the sector
  have hand : c / 2 ^ 8 % 2 ^ 8 &&& 3 = c / 2 ^ 8 := by
    rw [show (3 : ℕ) = 2 ^ 2 - 1 from rfl, Nat.and_two_pow_sub_one_eq_mod]
    omega
  have hcl : (s % 2 ^ 8 + 1) % 2 ^ 8 ||| (c / 2 ^ 8 % 2 ^ 8 &&& 3) <<< 6 % 2 ^ 8 =
      s + 1 + c / 2 ^ 8 * 2 ^ 6 := by
    have hlow : s + 1 < 2 ^ 6 := by omega
    rw [hand, Nat.shiftLeft_eq, show (s % 2 ^ 8 + 1) % 2 ^ 8 = s + 1 by omega,
      show c / 2 ^ 8 * 2 ^ 6 % 2 ^ 8 = c / 2 ^ 8 * 2 ^ 6 by omega, or_mul_two_pow hlow]
  refine ⟨c % 2 ^ 8, s + 1 + c / 2 ^ 8 * 2 ^ 6, h % 2 ^ 8, ?_, by omega, by omega, by omega, ?_⟩
  · rw [hcl]
  · rw [decodeChs, chsOf, hc, hh, hs, Chs.mk.injEq]
    omega

end Conversion

/-! ### The machine -/

/-- The BIOS disk services: the contents of a drive, and for every call whether it
succeeds, what AX is afterwards, and what a read that fails leaves in its buffer. -/
structure Bios where
  disk : ℕ → Chs → ℕ → UInt8
  answer : ℕ → Bool
  ax : ℕ → ℕ
  scrap : ℕ → ℕ → UInt8

/-- The registers of the boot sector, memory, its variables, and the number of BIOS calls
that were made. -/
structure BootMachine where
  ax : ℕ
  bx : ℕ
  cx : ℕ
  dx : ℕ
  si : ℕ
  edi : ℕ
  es : ℕ
  mem : ℕ → UInt8
  bootDrive : ℕ
  sectorsPerTrack : ℕ
  headCount : ℕ
  calls : ℕ

abbrev BootM (α : Type) : Type := StateT BootMachine Option α

/-- A divide error, or the halt at `disk_error`. -/
def bootStuck : BootM Unit := fun _ => none

/-- INT 13h with AH = 2 and AL = 1: one sector to ES:BX.  The result is the carry flag,
negated. -/
def int13Read (bios : Bios) : BootM Bool :=
  modifyGet fun m =>
    let data := if bios.answer m.calls then
        bios.disk (m.dx % 2 ^ 8) (decodeChs (m.cx / 2 ^ 8) (m.cx % 2 ^ 8) (m.dx / 2 ^ 8))
      else bios.scrap m.calls
    (bios.answer m.calls, { m with
      mem := overwrite m.mem (m.es * 16 + m.bx) sectorSize data
      ax := bios.ax m.calls
      calls := m.calls + 1 })

/-- INT 13h with AH = 0: reset. -/
def int13Reset (bios : Bios) : BootM Unit :=
  modify fun m => { m with ax := bios.ax m.calls, calls := m.calls + 1 }

/-- `mov dl, [boot_drive]`. -/
def setDrive : BootM Unit := modify fun m => { m with dx := m.dx / 2 ^ 8 * 2 ^ 8 + m.bootDrive }

/-- `.retry`, with `di` turns left. -/
def readRetry (bios : Bios) : ℕ → BootM Unit
  | 0 => bootStuck
  | di + 1 => do
    modify fun m => { m with ax := 0x0201, edi := m.edi / 2 ^ 16 * 2 ^ 16 + (di + 1) }
    setDrive
    if (← int13Read bios) then return ()
    else
      modify fun m => { m with ax := m.ax % 2 ^ 8 }
      setDrive
      int13Reset bios
      readRetry bios di

/-- `ReadOneSectorToBounce`. -/
def readOneSectorToBounce (bios : Bios) : BootM Unit := do
  let saved ← get
  match chsRegisters saved.sectorsPerTrack saved.headCount saved.bx with
  | none => bootStuck
  | some (ch, cl, dh) =>
    modify fun m => { m with
      ax := 0, bx := bounceBuffer, cx := ch * 2 ^ 8 + cl, dx := dh * 2 ^ 8 + dh, es := 0 }
    readRetry bios 3
    -- the registers that were pushed
    modify fun m => { m with
      ax := saved.ax, bx := saved.bx, cx := saved.cx, dx := saved.dx, es := saved.es
      edi := m.edi / 2 ^ 16 * 2 ^ 16 + saved.edi % 2 ^ 16 }

/-- `.copy_sector`, with `cx` turns left: four bytes from SI to EDI. -/
def copyDwords : ℕ → BootM Unit
  | 0 => return ()
  | cx + 1 => do
    modify fun m => { m with
      mem := overwrite m.mem m.edi 4 fun i => m.mem (m.si + i)
      ax := (m.mem m.si).toNat + (m.mem (m.si + 1)).toNat * 2 ^ 8
      si := (m.si + 4) % 2 ^ 16
      edi := (m.edi + 4) % 2 ^ 32
      cx := cx }
    copyDwords cx

/-- `.next_sector`, for at most `turns` turns. -/
def loadSectors (bios : Bios) : ℕ → BootM Unit
  | 0 => bootStuck
  | turns + 1 => do
    let m ← get
    if m.dx = 0 then return ()
    else
      let bx := m.bx
      readOneSectorToBounce bios
      modify fun m => { m with bx := bx }
      -- DX and SI are on the stack while the sector is copied
      let m ← get
      modify fun m => { m with si := bounceBuffer, cx := sectorSize / 4 }
      copyDwords (sectorSize / 4)
      modify fun m' => { m' with si := m.si, dx := m.dx }
      modify fun m => { m with bx := (m.bx + 1) % 2 ^ 16, dx := m.dx - 1 }
      loadSectors bios turns

/-- `LoadFromDrive(start, count, dest)`.  The loop counts DX down, so `count + 1` turns end
it. -/
def loadFromDrive (bios : Bios) (start count dest : ℕ) : BootM Unit := do
  let saved ← get
  modify fun m => { m with bx := start, dx := count, edi := dest }
  loadSectors bios (count + 1)
  modify fun m => { m with
    bx := saved.bx, cx := saved.cx, dx := saved.dx, si := saved.si
    edi := m.edi / 2 ^ 16 * 2 ^ 16 + saved.edi % 2 ^ 16 }

/-! ### One read -/

section Read

variable {bios : Bios}

/-- A store over a store of the same bytes. -/
theorem overwrite_overwrite (m : ℕ → UInt8) (a n : ℕ) (f g : ℕ → UInt8) :
    overwrite (overwrite m a n f) a n g = overwrite m a n g := by
  funext b
  unfold overwrite
  split_ifs <;> rfl

/-- Every read succeeds within three attempts; a reset lies between two of them. -/
def ReadsSucceed (bios : Bios) : Prop :=
  ∀ n, bios.answer n = true ∨ bios.answer (n + 2) = true ∨ bios.answer (n + 4) = true

/-- The attempts leave the sector that CH, CL, DH and the boot drive name in the buffer. -/
theorem readRetry_spec (ch dh : ℕ) {cl : ℕ} (hcl : cl < 2 ^ 8) : ∀ (di : ℕ) (m : BootMachine),
    m.cx = ch * 2 ^ 8 + cl → m.dx / 2 ^ 8 = dh → m.bootDrive < 2 ^ 8 → di < 2 ^ 16 →
    (∃ j < di, bios.answer (m.calls + 2 * j) = true) →
    Runs (readRetry bios di) m fun _ m' => ∃ ax dx edi calls, edi / 2 ^ 16 = m.edi / 2 ^ 16 ∧
      m' = { m with
        mem := overwrite m.mem (m.es * 16 + m.bx) sectorSize
          (bios.disk m.bootDrive (decodeChs ch cl dh))
        ax := ax, dx := dx, edi := edi, calls := calls } := by
  intro di
  induction di with
  | zero =>
    rintro m - - - - ⟨j, hj, -⟩
    omega
  | succ di ih =>
    intro m hcx hdx hdrive hdi hok
    have hcx₁ : m.cx / 2 ^ 8 = ch := by omega
    have hcx₂ : m.cx % 2 ^ 8 = cl := by omega
    have hdx₁ : (m.dx / 2 ^ 8 * 2 ^ 8 + m.bootDrive) / 2 ^ 8 = dh := by omega
    have hdx₂ : (m.dx / 2 ^ 8 * 2 ^ 8 + m.bootDrive) % 2 ^ 8 = m.bootDrive := by omega
    have hedi : (m.edi / 2 ^ 16 * 2 ^ 16 + (di + 1)) / 2 ^ 16 = m.edi / 2 ^ 16 := by
      rw [Nat.mul_comm, Nat.mul_add_div (Nat.two_pow_pos 16), Nat.div_eq_of_lt hdi, Nat.add_zero]
    generalize hdx' : m.dx / 2 ^ 8 * 2 ^ 8 + m.bootDrive = dx' at hdx₁ hdx₂
    generalize hedi' : m.edi / 2 ^ 16 * 2 ^ 16 + (di + 1) = edi' at hedi
    refine runs_modify_bind (runs_modify_bind (runs_modifyGet_bind (runs_ite (fun h => ?_) fun h => ?_)))
    · dsimp only at h ⊢
      rw [hdx', hedi', if_pos h, hcx₁, hcx₂, hdx₁, hdx₂]
      exact runs_pure ⟨_, _, _, _, hedi, rfl⟩
    · dsimp only at h ⊢
      have hfail : bios.answer m.calls = false := by simpa using h
      refine runs_modify_bind (runs_modify_bind (runs_modify_bind ?_))
      dsimp only
      rw [hdx', hedi', if_neg h]
      refine Runs.mono (ih _ ?_ ?_ ?_ ?_ ?_) ?_
      · exact hcx
      · dsimp only
        omega
      · exact hdrive
      · exact Nat.lt_of_succ_lt hdi
      · obtain ⟨j, hj, hans⟩ := hok
        cases j with
        | zero =>
          rw [Nat.mul_zero, Nat.add_zero, hfail] at hans
          cases hans
        | succ j => exact ⟨j, by omega, by rwa [show m.calls + 1 + 1 + 2 * j = m.calls + 2 * (j + 1) by omega]⟩
      · rintro _ m' ⟨ax, dx, edi, calls, he, rfl⟩
        refine ⟨ax, dx, edi, calls, he.trans hedi, ?_⟩
        dsimp only
        rw [overwrite_overwrite]

/-- A geometry that the BIOS can report, and a drive number. -/
structure Geometry (spt heads : ℕ) (m : BootMachine) : Prop where
  spt_pos : 1 ≤ spt
  spt_le : spt ≤ 63
  heads_pos : 1 ≤ heads
  heads_le : heads ≤ 256
  sectorsPerTrack : m.sectorsPerTrack = spt
  headCount : m.headCount = heads
  bootDrive : m.bootDrive < 2 ^ 8

variable {spt heads : ℕ} {m : BootMachine}

/-- **A read changes nothing but the bounce buffer**: it holds the sector then. -/
theorem readOneSectorToBounce_spec (hok : ReadsSucceed bios) (hg : Geometry spt heads m)
    (hbx : m.bx < 2 ^ 16) (hcyl : m.bx / (spt * heads) < 1024) :
    Runs (readOneSectorToBounce bios) m fun _ m' => ∃ calls, m' = { m with
      mem := overwrite m.mem bounceBuffer sectorSize
        (bios.disk m.bootDrive (chsOf spt heads m.bx))
      calls := calls } := by
  obtain ⟨ch, cl, dh, hregs, hch, hcl, hdh, hdecode⟩ :=
    chsRegisters_exact hg.spt_pos hg.spt_le hg.heads_pos hg.heads_le hbx hcyl
  have htry : ∃ j < 3, bios.answer (m.calls + 2 * j) = true := by
    rcases hok m.calls with h | h | h
    · exact ⟨0, by decide, h⟩
    · exact ⟨1, by decide, h⟩
    · exact ⟨2, by decide, h⟩
  rw [← hg.sectorsPerTrack, ← hg.headCount] at hregs
  refine runs_get_bind ?_
  rw [hregs]
  refine runs_modify_bind (runs_bind (readRetry_spec ch dh hcl 3 _ rfl ?_
    hg.bootDrive (by decide) htry) ?_)
  · dsimp only
    omega
  rintro _ m' ⟨ax, dx, edi, calls, hedi, rfl⟩
  refine runs_modify ⟨calls, ?_⟩
  dsimp only at hedi ⊢
  -- the high half of EDI has not changed, and the low half was on the stack
  have hrestore : edi / 2 ^ 16 * 2 ^ 16 + m.edi % 2 ^ 16 = m.edi := by
    rw [hedi, Nat.div_add_mod']
  rw [hrestore, hdecode, Nat.zero_mul, Nat.zero_add]

end Read

/-! ### The copy -/

section Copy

theorem overwrite_append (m : ℕ → UInt8) (a n k : ℕ) (f g h : ℕ → UInt8)
    (hf : ∀ i < n, f i = h i) (hg : ∀ i < k, g i = h (n + i)) :
    overwrite (overwrite m a n f) (a + n) k g = overwrite m a (n + k) h := by
  funext b
  by_cases h₁ : b < a
  · rw [overwrite_of_disjoint (Or.inl (by omega)), overwrite_of_disjoint (Or.inl h₁),
      overwrite_of_disjoint (Or.inl h₁)]
  · obtain ⟨i, rfl⟩ := Nat.exists_eq_add_of_le (Nat.not_lt.mp h₁)
    by_cases h₂ : i < n
    · rw [overwrite_of_disjoint (Or.inl (by omega)), overwrite_of_lt h₂, overwrite_of_lt (by omega),
        hf i h₂]
    · obtain ⟨j, rfl⟩ := Nat.exists_eq_add_of_le (Nat.not_lt.mp h₂)
      by_cases h₃ : j < k
      · rw [← Nat.add_assoc, overwrite_of_lt h₃, Nat.add_assoc, overwrite_of_lt (by omega), hg j h₃]
      · rw [overwrite_of_disjoint (Or.inr (by omega)), overwrite_of_disjoint (Or.inr (by omega)),
          overwrite_of_disjoint (Or.inr (by omega))]

/-- **The copy** moves `4 * n` bytes when the two ranges are apart. -/
theorem copyDwords_spec : ∀ (n : ℕ) (m : BootMachine), m.si + 4 * n ≤ 2 ^ 16 →
    m.edi + 4 * n ≤ 2 ^ 32 → (m.edi + 4 * n ≤ m.si ∨ m.si + 4 * n ≤ m.edi) →
    Runs (copyDwords n) m fun _ m' => ∃ ax cx si, m' = { m with
      mem := overwrite m.mem m.edi (4 * n) fun i => m.mem (m.si + i)
      ax := ax, cx := cx, si := si, edi := if n = 0 then m.edi else (m.edi + 4 * n) % 2 ^ 32 } := by
  intro n
  induction n with
  | zero =>
    intro m _ _ _
    refine runs_pure ⟨m.ax, m.cx, m.si, ?_⟩
    have hempty : overwrite m.mem m.edi 0 (fun i => m.mem (m.si + i)) = m.mem := by
      funext b
      exact overwrite_of_disjoint (by omega)
    rw [Nat.mul_zero, hempty, if_pos rfl]
  | succ n ih =>
    intro m hsi hedi hapart
    refine runs_modify_bind ?_
    by_cases hn : n = 0
    · subst hn
      exact runs_pure ⟨_, _, _, rfl⟩
    · have hsi₁ : (m.si + 4) % 2 ^ 16 = m.si + 4 := Nat.mod_eq_of_lt (by omega)
      have hedi₁ : (m.edi + 4) % 2 ^ 32 = m.edi + 4 := Nat.mod_eq_of_lt (by omega)
      rw [hsi₁, hedi₁]
      refine Runs.mono (ih _ ?_ ?_ ?_) ?_
      · dsimp only
        omega
      · dsimp only
        omega
      · dsimp only
        omega
      rintro _ m' ⟨ax, cx, si, rfl⟩
      refine ⟨ax, cx, si, ?_⟩
      dsimp only
      -- the bytes that are still to be copied have not been overwritten
      have hrest : ∀ i < 4 * n, overwrite m.mem m.edi 4 (fun i => m.mem (m.si + i)) (m.si + 4 + i) =
          m.mem (m.si + (4 + i)) := by
        intro i hi
        rw [overwrite_of_disjoint (by omega), Nat.add_assoc]
      rw [overwrite_append m.mem m.edi 4 (4 * n) _ _ (fun i => m.mem (m.si + i)) (fun _ _ => rfl)
        hrest, if_neg hn, if_neg (Nat.succ_ne_zero n), show 4 + 4 * n = 4 * (n + 1) by omega,
        show m.edi + 4 + 4 * n = m.edi + 4 * (n + 1) by omega]

end Copy

/-! ### The sectors -/

section Load

variable {bios : Bios} {spt heads start count dest : ℕ} {m : BootMachine}

/-- A load that the caller may ask for: the sectors exist, and their place is within memory
and apart from the bounce buffer, from the boot sector with its stack, and from the memory
of the BIOS.  The model keeps code, stack and BIOS out of `mem`, so it is `clear` that makes
it true of the machine. -/
structure LoadRequest (spt heads start count dest : ℕ) : Prop where
  start_lt : start < 2 ^ 16
  count_lt : count < 2 ^ 16
  inWord : start + count ≤ 2 ^ 16
  cylinder : ∀ k < count, (start + k) / (spt * heads) < 1024
  dest_lt : dest < 2 ^ 32
  inMemory : dest + sectorSize * count ≤ 2 ^ 32
  apart : dest + sectorSize * count ≤ bounceBuffer ∨ bounceBuffer + sectorSize ≤ dest
  clear : biosMemoryEnd ≤ dest ∧ dest + sectorSize * count ≤ bootOrigin ∨ bootStack ≤ dest

/-- `k` sectors have been copied, and the next one is in BX. -/
structure Loading (bios : Bios) (spt heads start count dest drive k : ℕ) (m : BootMachine) :
    Prop where
  geometry : Geometry spt heads m
  bootDrive : m.bootDrive = drive
  le : k ≤ count
  bx : m.bx = (start + k) % 2 ^ 16
  dx : m.dx = count - k
  edi : m.edi = (dest + sectorSize * k) % 2 ^ 32
  done : ∀ j < k, ∀ i < sectorSize,
    m.mem (dest + sectorSize * j + i) = bios.disk drive (chsOf spt heads (start + j)) i

/-- **One sector.** -/
theorem Loading.step {drive k : ℕ} (hok : ReadsSucceed bios)
    (hr : LoadRequest spt heads start count dest)
    (h : Loading bios spt heads start count dest drive k m) (hk : k < count) (turns : ℕ)
    {Q : Unit → BootMachine → Prop}
    (hrest : ∀ m', Loading bios spt heads start count dest drive (k + 1) m' →
      Runs (loadSectors bios turns) m' Q) : Runs (loadSectors bios (turns + 1)) m Q := by
  have hin := hr.inWord
  have hmem := hr.inMemory
  have hbx : m.bx = start + k := by rw [h.bx, Nat.mod_eq_of_lt (by omega)]
  have hedi : m.edi = dest + sectorSize * k := by
    rw [h.edi]
    simp only [sectorSize] at hmem ⊢
    exact Nat.mod_eq_of_lt (by omega)
  have hdx : m.dx ≠ 0 := by
    rw [h.dx]
    omega
  have hsize : 4 * (sectorSize / 4) = sectorSize := by decide
  refine runs_get_bind ?_
  rw [if_neg hdx]
  refine runs_bind (readOneSectorToBounce_spec hok h.geometry (by omega) ?_) ?_
  · rw [hbx]
    exact hr.cylinder k hk
  rintro _ _ ⟨calls, rfl⟩
  refine runs_modify_bind (runs_get_bind (runs_modify_bind ?_))
  refine runs_bind (copyDwords_spec _ _ ?_ ?_ ?_) ?_
  · dsimp only [bounceBuffer, sectorSize]
    decide
  · dsimp only
    rw [hedi]
    simp only [sectorSize] at hmem ⊢
    omega
  · have hapart := hr.apart
    dsimp only
    rw [hedi]
    simp only [sectorSize, bounceBuffer] at hapart ⊢
    omega
  rintro _ _ ⟨ax, cx, si, rfl⟩
  refine runs_modify_bind (runs_modify_bind (hrest _ ?_))
  refine ⟨⟨h.geometry.spt_pos, h.geometry.spt_le, h.geometry.heads_pos, h.geometry.heads_le,
    h.geometry.sectorsPerTrack, h.geometry.headCount, h.geometry.bootDrive⟩, h.bootDrive, hk, ?bx,
    ?dx, ?edi, ?done⟩
  case bx =>
    dsimp only
    rw [hbx, Nat.add_assoc]
  case dx =>
    dsimp only
    rw [h.dx, Nat.sub_sub]
  case edi =>
    dsimp only
    rw [if_neg (by decide), hedi, hsize, Nat.mul_succ, ← Nat.add_assoc]
  case done =>
    intro j hj i hi
    dsimp only
    rw [hedi]
    rw [hsize]
    by_cases hjk : j = k
    · -- the sector that was copied now
      rw [hjk, overwrite_of_lt hi, overwrite_of_lt hi, h.bootDrive, hbx]
    · -- the ones before it, which neither the read nor the copy touches
      have hapart := hr.apart
      rw [overwrite_of_disjoint, overwrite_of_disjoint, h.done j (by omega) i hi]
      · simp only [sectorSize, bounceBuffer] at hapart hi ⊢
        omega
      · simp only [sectorSize] at hi ⊢
        omega

/-- **The whole loop**: all sectors are in their places. -/
theorem Loading.run (drive : ℕ) (hok : ReadsSucceed bios)
    (hr : LoadRequest spt heads start count dest) : ∀ (turns k : ℕ) (m : BootMachine),
    count - k < turns → Loading bios spt heads start count dest drive k m →
    Runs (loadSectors bios turns) m fun _ m' =>
      Loading bios spt heads start count dest drive count m' := by
  intro turns
  induction turns with
  | zero =>
    intro k m hturns _
    omega
  | succ turns ih =>
    intro k m hturns h
    rcases Nat.lt_or_eq_of_le h.le with hk | rfl
    · exact h.step hok hr hk turns fun m' h' => ih (k + 1) m' (by omega) h'
    · refine runs_get_bind ?_
      rw [if_pos (by rw [h.dx, Nat.sub_self])]
      exact runs_pure h

end Load

/-- **LBA to CHS conversion is exact**, and the load puts every sector in its place: for
every geometry that the BIOS can report, CH, CL and DH name the only sector with the LBA,
and `LoadFromDrive` copies the sectors from `start` on, in order, to `dest`. -/
theorem bootSector_exact {spt heads : ℕ} (hspt : 1 ≤ spt) (hspt' : spt ≤ 63) (hheads : 1 ≤ heads)
    (hheads' : heads ≤ 256) :
    (∀ lba, lba < 2 ^ 16 → lba / (spt * heads) < 1024 →
      ∃ ch cl dh, chsRegisters spt heads lba = some (ch, cl, dh) ∧ ch < 2 ^ 8 ∧ cl < 2 ^ 8 ∧
        dh < 2 ^ 8 ∧ (decodeChs ch cl dh).Valid spt heads ∧
        (decodeChs ch cl dh).linear spt heads = lba ∧
        ∀ t : Chs, t.Valid spt heads → t.linear spt heads = lba → t = decodeChs ch cl dh) ∧
    ∀ bios start count dest m, ReadsSucceed bios → m.sectorsPerTrack = spt → m.headCount = heads →
      m.bootDrive < 2 ^ 8 → LoadRequest spt heads start count dest →
      Runs (loadFromDrive bios start count dest) m fun _ m' =>
        ∀ k < count, ∀ t : Chs, t.Valid spt heads → t.linear spt heads = start + k →
          ∀ i < sectorSize, m'.mem (dest + sectorSize * k + i) = bios.disk m.bootDrive t i := by
  refine ⟨?convert, ?load⟩
  case convert =>
    intro lba hlba hcyl
    obtain ⟨ch, cl, dh, hregs, hch, hcl, hdh, hdecode⟩ :=
      chsRegisters_exact hspt hspt' hheads hheads' hlba hcyl
    refine ⟨ch, cl, dh, hregs, hch, hcl, hdh, ?_⟩
    rw [hdecode]
    refine ⟨chsOf_valid hspt hheads, chsOf_linear, fun t ht hlinear => ?_⟩
    exact Chs.linear_inj ht (chsOf_valid hspt hheads) (hlinear.trans chsOf_linear.symm)
  case load =>
    intro bios start count dest m hok hs hh hdrive hr
    refine runs_get_bind (runs_modify_bind (runs_bind (Loading.run m.bootDrive hok hr
      (count + 1) 0 _ (by omega) ?_) ?_))
    · refine ⟨⟨hspt, hspt', hheads, hheads', hs, hh, hdrive⟩, rfl, Nat.zero_le _, ?_, rfl, ?_,
        fun j hj => absurd hj (Nat.not_lt_zero j)⟩
      · exact (Nat.mod_eq_of_lt hr.start_lt).symm
      · exact (Nat.mod_eq_of_lt hr.dest_lt).symm
    intro _ m₁ h
    refine runs_modify fun k hk t ht hlinear i hi => ?_
    have hchs : t = chsOf spt heads (start + k) :=
      Chs.linear_inj ht (chsOf_valid hspt hheads) (hlinear.trans chsOf_linear.symm)
    rw [hchs]
    exact h.done k hk i hi

/-- A BIOS whose reads all succeed. -/
def quietBios : Bios where
  disk _ t i := UInt8.ofNat (t.linear 63 255 + i)
  answer _ := true
  ax _ := 0
  scrap _ _ := 0

/-- The boot sector before `LoadFromDrive`, on a disk with 63 sectors and 255 heads: CL and
DH of the BIOS are FFh and FEh. -/
def beforeLoad : BootMachine :=
  let geometry := detectDriveGeometry 0xFF 0xFE
  ⟨0, 0, 0, 0, 0, 0, 0, fun _ => 0, 0x80, geometry.1, geometry.2, 0⟩

/-- The first sector of cylinder 256, the last sector of a full track, and the load of the
setup sectors. -/
theorem bootSector_exact_setup :
    (∃ ch cl dh, chsRegisters 1 63 (256 * 63) = some (ch, cl, dh) ∧
      decodeChs ch cl dh = ⟨256, 0, 1⟩) ∧
    (∃ ch cl dh, chsRegisters 63 256 62 = some (ch, cl, dh) ∧ decodeChs ch cl dh = ⟨0, 0, 63⟩) ∧
    Runs (loadFromDrive quietBios 1 64 0x30000000) beforeLoad fun _ m' =>
      ∀ k < 64, ∀ t : Chs, t.Valid 63 255 → t.linear 63 255 = 1 + k →
        ∀ i < sectorSize, m'.mem (0x30000000 + sectorSize * k + i) = quietBios.disk 0x80 t i := by
  refine ⟨?_, ?_, ?_⟩
  · obtain ⟨ch, cl, dh, hregs, -, -, -, -, -, hunique⟩ := (@bootSector_exact 1 63
      (by decide) (by decide) (by decide) (by decide)).1 (256 * 63) (by decide) (by decide)
    exact ⟨ch, cl, dh, hregs, (hunique ⟨256, 0, 1⟩ ⟨by decide, by decide, by decide⟩ (by decide)).symm⟩
  · obtain ⟨ch, cl, dh, hregs, -, -, -, -, -, hunique⟩ := (@bootSector_exact 63 256
      (by decide) (by decide) (by decide) (by decide)).1 62 (by decide) (by decide)
    exact ⟨ch, cl, dh, hregs, (hunique ⟨0, 0, 63⟩ ⟨by decide, by decide, by decide⟩ (by decide)).symm⟩
  · have hgeometry := @detectDriveGeometry_bounds 0xFF 0xFE (by decide)
    refine (bootSector_exact hgeometry.1 hgeometry.2.1 hgeometry.2.2.1 hgeometry.2.2.2).2 quietBios 1
      64 0x30000000 beforeLoad (fun _ => Or.inl rfl) rfl rfl (by decide) ?_
    refine ⟨by decide, by decide, by decide, fun k hk => ?_, by decide, by decide, Or.inr (by decide),
      Or.inr (by decide)⟩
    show (1 + k) / (63 * 255) < 1024
    omega

end VirtualKernel
