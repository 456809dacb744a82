/-
The walk of `heap_validate` along the headers in memory.

`HeaderWalk dword committed p bs q` says that the links lead from `p` along the
blocks `bs` to `q`, and that each of these blocks is one that `heap_validate`
passes (`SoundHeader`).  Such links ascend below `heap_committed`, so a walk ends:

* **`heapValidateLoop_eq_one`** — the loop returns 1 exactly when a walk comes to
  the null link;
* **`heapValidateLoop_eq_none`** — it does not return exactly when a walk comes to a
  header of which it reads an unmapped dword (`HeaderFault`).
-/
import VirtualKernel.HeapInv

namespace VirtualKernel

open Lib

/-- The header of the block `b` with the link `next` is in memory. -/
structure HeaderAt (dword : ℕ → ℕ → Option ℕ) (b : Block) (next : ℕ) : Prop where
  magic : dword b.addr 0 = some heapMagic
  size : dword b.addr 4 = some b.size
  flag : dword b.addr 8 = some (blockHeader b next).flag
  link : dword b.addr 12 = some next

/-- A block with its header in the heap, not empty, whose end modulo `2 ^ 32` is not
behind `heap_committed`. -/
structure PlacedBlock (committed : ℕ) (b : Block) : Prop where
  base : kheapBase ≤ b.addr
  below : b.addr < committed
  pos : b.size ≠ 0
  stop : add32 (add32 b.addr heapHdrSize) b.size ≤ committed

/-- A block with its header in place and a link that is null or ascends; no free block
lies directly behind a free one. -/
structure SoundHeader (dword : ℕ → ℕ → Option ℕ) (committed : ℕ) (b : Block) (next : ℕ) : Prop
    extends HeaderAt dword b next, PlacedBlock committed b where
  up : next ≠ 0 → b.addr < next ∧ next ≤ committed
  apart : next ≠ 0 → b.used = false → ∃ flag, dword next 8 = some flag ∧
    (flag = heapFlagFree → add32 (add32 b.addr heapHdrSize) b.size ≠ next)

/-- A dword that `heap_validate` reads at the header at `q` is not mapped: one of its
own, or the flag of the header behind a free block. -/
inductive HeaderFault (dword : ℕ → ℕ → Option ℕ) (committed q : ℕ) : Prop
  | magic : kheapBase ≤ q → q < committed → dword q 0 = none → HeaderFault dword committed q
  | size : kheapBase ≤ q → q < committed → dword q 0 = some heapMagic → dword q 4 = none →
      HeaderFault dword committed q
  | flag (size : ℕ) : kheapBase ≤ q → q < committed → dword q 0 = some heapMagic →
      dword q 4 = some size → size ≠ 0 → dword q 8 = none → HeaderFault dword committed q
  | next (b : Block) : b.addr = q → PlacedBlock committed b → dword q 0 = some heapMagic →
      dword q 4 = some b.size → dword q 8 = some (blockHeader b 0).flag → dword q 12 = none →
      HeaderFault dword committed q
  | neighbour (b : Block) (next : ℕ) : b.addr = q → PlacedBlock committed b → HeaderAt dword b next →
      b.used = false → next ≠ 0 → q < next → next ≤ committed → dword next 8 = none →
      HeaderFault dword committed q

/-- The walk from `p` along the blocks to an address. -/
inductive HeaderWalk (dword : ℕ → ℕ → Option ℕ) (committed : ℕ) : ℕ → List Block → ℕ → Prop
  | done (p : ℕ) : HeaderWalk dword committed p [] p
  | pass {b : Block} {next : ℕ} {bs : List Block} {q : ℕ} : SoundHeader dword committed b next →
      HeaderWalk dword committed next bs q → HeaderWalk dword committed b.addr (b :: bs) q

section Walk

variable {dword : ℕ → ℕ → Option ℕ} {committed : ℕ}

theorem kheapBase_pos : 0 < kheapBase := by decide

theorem HeaderFault.base {q : ℕ} (h : HeaderFault dword committed q) : kheapBase ≤ q := by
  cases h with
  | magic hbase => exact hbase
  | size hbase => exact hbase
  | flag size hbase => exact hbase
  | next b hb hplaced => exact hb ▸ hplaced.base
  | neighbour b next hb hplaced => exact hb ▸ hplaced.base

/-- Nothing but the null link is met behind the null link. -/
theorem HeaderWalk.of_zero {bs : List Block} {q : ℕ} (h : HeaderWalk dword committed 0 bs q) :
    bs = [] ∧ q = 0 := by
  have hfrom : ∀ p, HeaderWalk dword committed p bs q → p = 0 → bs = [] ∧ q = 0 := by
    intro p hwalk hp
    cases hwalk with
    | done => exact ⟨rfl, hp⟩
    | pass hsound =>
      have hbase := hsound.base
      have hpos := kheapBase_pos
      omega
  exact hfrom 0 h rfl

/-- A turn of the loop that passes the block. -/
theorem SoundHeader.turn {b : Block} {next : ℕ} (h : SoundHeader dword committed b next) (fuel : ℕ) :
    heapValidateLoop dword committed (fuel + 1) b.addr =
      if next = 0 then some 1 else heapValidateLoop dword committed fuel next := by
  have hpos := kheapBase_pos
  have hbase := h.base
  have hflag : ¬((blockHeader b next).flag ≠ heapFlagFree ∧ (blockHeader b next).flag ≠ heapFlagUsed) := by
    cases hu : b.used <;> simp [blockHeader, hu]
  rw [heapValidateLoop, if_neg (by omega), if_neg (by omega), if_neg (Nat.not_le.mpr h.below)]
  simp only [h.magic, h.size, h.flag, h.link, Option.bind_eq_bind, Option.bind_some]
  rw [if_neg (fun hne => hne rfl), if_neg h.pos, if_neg hflag, if_neg (Nat.not_lt.mpr h.stop)]
  by_cases hnext : next = 0
  · rw [if_pos hnext, if_pos hnext]
    rfl
  obtain ⟨hup, hin⟩ := h.up hnext
  rw [if_neg hnext, if_neg hnext, if_neg (Nat.not_le.mpr hup), if_neg (Nat.not_lt.mpr hin)]
  cases hu : b.used with
  | true => rw [if_pos (by rw [blockHeader_flag_free.ne, hu]; decide)]
  | false =>
    obtain ⟨flag, hread, happart⟩ := h.apart hnext hu
    rw [if_neg (by rw [not_not, blockHeader_flag_free]; exact hu), hread, Option.bind_some]
    by_cases hfree : flag = heapFlagFree
    · rw [if_neg (not_not.mpr hfree), if_neg (happart hfree)]
    · rw [if_pos hfree]

/-- A turn of the loop that faults. -/
theorem HeaderFault.turn {q : ℕ} (h : HeaderFault dword committed q) (fuel : ℕ) :
    heapValidateLoop dword committed (fuel + 1) q = none := by
  have hpos := kheapBase_pos
  have hbase := h.base
  have hplace : ∀ hq : q < committed, heapValidateLoop dword committed (fuel + 1) q = _ := fun hq => by
    rw [heapValidateLoop, if_neg (by omega), if_neg (by omega), if_neg (Nat.not_le.mpr hq)]
  have hflag : ∀ b : Block, ∀ n, ¬((blockHeader b n).flag ≠ heapFlagFree ∧
      (blockHeader b n).flag ≠ heapFlagUsed) := by
    intro b n
    cases hu : b.used <;> simp [blockHeader, hu]
  -- the dwords are read in this order, and the first that is not mapped ends the routine
  cases h with
  | magic _ hq hmagic => rw [hplace hq, hmagic]; rfl
  | size _ hq hmagic hsize =>
    simp only [hplace hq, hmagic, Option.bind_eq_bind, Option.bind_some]
    rw [if_neg (fun hne => hne rfl), hsize]
    rfl
  | flag size _ hq hmagic hsize hne hflag =>
    simp only [hplace hq, hmagic, hsize, Option.bind_eq_bind, Option.bind_some]
    rw [if_neg (fun hne => hne rfl), if_neg hne, hflag]
    rfl
  | next b hb hplaced hmagic hsize hread hnext =>
    subst hb
    simp only [hplace hplaced.below, hmagic, hsize, hread, Option.bind_eq_bind, Option.bind_some]
    rw [if_neg (fun hne => hne rfl), if_neg hplaced.pos, if_neg (hflag b 0),
      if_neg (Nat.not_lt.mpr hplaced.stop), hnext]
    rfl
  | neighbour b next hb hplaced hheader hfree hnext hup hin hread =>
    subst hb
    simp only [hplace hplaced.below, hheader.magic, hheader.size, hheader.flag, hheader.link,
      Option.bind_eq_bind, Option.bind_some]
    rw [if_neg (fun hne => hne rfl), if_neg hplaced.pos, if_neg (hflag b next),
      if_neg (Nat.not_lt.mpr hplaced.stop), if_neg hnext, if_neg (Nat.not_le.mpr hup),
      if_neg (Nat.not_lt.mpr hin), if_neg (by rw [not_not, blockHeader_flag_free]; exact hfree), hread]
    rfl

/-- **One turn of the loop**: it refuses the header, faults, or passes a block. -/
theorem heapValidateLoop_turn (fuel : ℕ) {esi : ℕ} (hzero : esi ≠ 0) :
    heapValidateLoop dword committed (fuel + 1) esi = some 0 ∨ HeaderFault dword committed esi ∨
      ∃ b next, b.addr = esi ∧ SoundHeader dword committed b next := by
  rw [heapValidateLoop, if_neg hzero]
  by_cases hbase : esi < kheapBase
  · exact Or.inl (if_pos hbase)
  rw [if_neg hbase]
  by_cases hbelow : committed ≤ esi
  · exact Or.inl (if_pos hbelow)
  rw [if_neg hbelow]
  rw [Nat.not_lt] at hbase
  rw [Nat.not_le] at hbelow
  -- the header, dword by dword
  cases hmagic : dword esi 0 with
  | none => exact Or.inr (Or.inl (.magic hbase hbelow hmagic))
  | some magic =>
    by_cases hgood : magic = heapMagic
    case neg => exact Or.inl (if_pos hgood)
    rw [hgood] at hmagic
    simp only [hgood, Option.bind_eq_bind, Option.bind_some, ne_eq, not_true_eq_false, if_false]
    cases hsize : dword esi 4 with
    | none => exact Or.inr (Or.inl (.size hbase hbelow hmagic hsize))
    | some size =>
      by_cases hempty : size = 0
      · exact Or.inl (if_pos hempty)
      simp only [Option.bind_some, if_neg hempty]
      cases hflag : dword esi 8 with
      | none => exact Or.inr (Or.inl (.flag size hbase hbelow hmagic hsize hempty hflag))
      | some flag =>
        simp only [Option.bind_some]
        by_cases hbad : ¬flag = heapFlagFree ∧ ¬flag = heapFlagUsed
        · exact Or.inl (if_pos hbad)
        rw [if_neg hbad]
        by_cases hstop : committed < add32 (add32 esi heapHdrSize) size
        · exact Or.inl (if_pos hstop)
        rw [if_neg hstop]
        -- the block that the header describes
        let b : Block := ⟨esi, size, decide (flag = heapFlagUsed)⟩
        have hb : ∀ n, (blockHeader b n).flag = flag := by
          intro n
          by_cases hused : flag = heapFlagUsed
          · simp [blockHeader, b, hused]
          · have hfree : flag = heapFlagFree := by
              by_contra hne
              exact hbad ⟨hne, hused⟩
            simp [blockHeader, b, hfree]
        have hplaced : PlacedBlock committed b := ⟨hbase, hbelow, hempty, Nat.not_lt.mp hstop⟩
        cases hnext : dword esi 12 with
        | none =>
          exact Or.inr (Or.inl (.next b rfl hplaced hmagic hsize (by rw [hb]; exact hflag) hnext))
        | some next =>
          have hheader : HeaderAt dword b next := ⟨hmagic, hsize, by rw [hb]; exact hflag, hnext⟩
          have hsound : (next ≠ 0 → b.addr < next ∧ next ≤ committed) → (next ≠ 0 → b.used = false →
              ∃ flag, dword next 8 = some flag ∧
                (flag = heapFlagFree → add32 (add32 b.addr heapHdrSize) b.size ≠ next)) →
              ∃ b next, b.addr = esi ∧ SoundHeader dword committed b next := fun hup happart =>
            ⟨b, next, rfl, hheader, hplaced, hup, happart⟩
          simp only [Option.bind_some]
          by_cases hnull : next = 0
          · exact Or.inr (Or.inr (hsound (fun h => absurd hnull h) fun h => absurd hnull h))
          rw [if_neg hnull]
          by_cases hup : next ≤ esi
          · exact Or.inl (if_pos hup)
          rw [if_neg hup]
          by_cases hin : committed < next
          · exact Or.inl (if_pos hin)
          rw [if_neg hin]
          have hlink : next ≠ 0 → b.addr < next ∧ next ≤ committed := fun _ =>
            ⟨Nat.not_le.mp hup, Nat.not_lt.mp hin⟩
          have hused : flag ≠ heapFlagFree → b.used = true := by
            intro hne
            rw [← @blockHeader_flag_used b next, hb]
            by_contra hne'
            exact hbad ⟨hne, hne'⟩
          by_cases hfree : flag = heapFlagFree
          case neg =>
            refine Or.inr (Or.inr (hsound hlink fun _ h => ?_))
            exact absurd (h.symm.trans (hused hfree)) Bool.false_ne_true
          rw [if_neg (not_not.mpr hfree)]
          have hbfree : b.used = false := by
            rw [← @blockHeader_flag_free b next, hb]
            exact hfree
          cases hneighbour : dword next 8 with
          | none =>
            exact Or.inr (Or.inl (.neighbour b next rfl hplaced hheader hbfree hnull
              (Nat.not_le.mp hup) (Nat.not_lt.mp hin) hneighbour))
          | some flag' =>
            simp only [Option.bind_some]
            by_cases hfree' : flag' = heapFlagFree
            case neg =>
              exact Or.inr (Or.inr (hsound hlink fun _ _ => ⟨flag', hneighbour, fun h => absurd h hfree'⟩))
            rw [if_neg (not_not.mpr hfree')]
            by_cases htouch : add32 (add32 esi heapHdrSize) size = next
            · exact Or.inl (if_pos htouch)
            · exact Or.inr (Or.inr (hsound hlink fun _ _ => ⟨flag', hneighbour, fun _ => htouch⟩))

/-- **What the loop accepts**: the links lead along sound blocks to the null link. -/
theorem heapValidateLoop_eq_one {fuel esi : ℕ} (hfuel : committed - esi < fuel) :
    heapValidateLoop dword committed fuel esi = some 1 ↔ ∃ bs, HeaderWalk dword committed esi bs 0 := by
  induction fuel generalizing esi with
  | zero => exact absurd hfuel (Nat.not_lt_zero _)
  | succ fuel ih =>
    -- the next link is nearer to the end of the heap
    have hnear : ∀ {b : Block} {next : ℕ}, b.addr = esi → SoundHeader dword committed b next →
        next ≠ 0 → committed - next < fuel := by
      intro b next hb hsound hnext
      have hup := hsound.up hnext
      have hbelow := hsound.below
      omega
    by_cases hzero : esi = 0
    · subst hzero
      exact ⟨fun _ => ⟨[], .done 0⟩, fun _ => rfl⟩
    constructor
    · intro hrun
      rcases heapValidateLoop_turn fuel hzero with h | h | ⟨b, next, rfl, hsound⟩
      · rw [hrun] at h
        exact absurd (Option.some.inj h) Nat.one_ne_zero
      · rw [h.turn fuel] at hrun
        cases hrun
      · rw [hsound.turn fuel] at hrun
        by_cases hnext : next = 0
        · exact ⟨[b], .pass hsound (hnext ▸ .done next)⟩
        · rw [if_neg hnext] at hrun
          obtain ⟨bs, hwalk⟩ := (ih (hnear rfl hsound hnext)).mp hrun
          exact ⟨b :: bs, .pass hsound hwalk⟩
    · rintro ⟨bs, hwalk⟩
      cases hwalk with
      | done => exact absurd rfl hzero
      | @pass b next bs _ hsound hrest =>
        rw [hsound.turn fuel]
        by_cases hnext : next = 0
        · rw [if_pos hnext]
        · rw [if_neg hnext]
          exact (ih (hnear rfl hsound hnext)).mpr ⟨bs, hrest⟩

/-- **Where the loop faults**: the links lead along sound blocks to a header of which
an unmapped dword is read. -/
theorem heapValidateLoop_eq_none {fuel esi : ℕ} (hfuel : committed - esi < fuel) :
    heapValidateLoop dword committed fuel esi = none ↔
      ∃ bs q, HeaderWalk dword committed esi bs q ∧ HeaderFault dword committed q := by
  induction fuel generalizing esi with
  | zero => exact absurd hfuel (Nat.not_lt_zero _)
  | succ fuel ih =>
    have hnear : ∀ {b : Block} {next : ℕ}, b.addr = esi → SoundHeader dword committed b next →
        next ≠ 0 → committed - next < fuel := by
      intro b next hb hsound hnext
      have hup := hsound.up hnext
      have hbelow := hsound.below
      omega
    -- the null link is no header
    have hnull : ∀ {bs : List Block} {q : ℕ}, HeaderWalk dword committed 0 bs q →
        ¬HeaderFault dword committed q := by
      intro bs q hwalk hfault
      have hbase := hfault.base
      have hpos := kheapBase_pos
      have hq := hwalk.of_zero.2
      omega
    by_cases hzero : esi = 0
    · subst hzero
      refine ⟨fun hrun => ?_, fun ⟨bs, q, hwalk, hfault⟩ => absurd hfault (hnull hwalk)⟩
      rw [heapValidateLoop, if_pos rfl] at hrun
      cases hrun
    constructor
    · intro hrun
      rcases heapValidateLoop_turn fuel hzero with h | h | ⟨b, next, rfl, hsound⟩
      · rw [hrun] at h
        cases h
      · exact ⟨[], esi, .done esi, h⟩
      · rw [hsound.turn fuel] at hrun
        by_cases hnext : next = 0
        · rw [if_pos hnext] at hrun
          cases hrun
        · rw [if_neg hnext] at hrun
          obtain ⟨bs, q, hwalk, hfault⟩ := (ih (hnear rfl hsound hnext)).mp hrun
          exact ⟨b :: bs, q, .pass hsound hwalk, hfault⟩
    · rintro ⟨bs, q, hwalk, hfault⟩
      cases hwalk with
      | done => exact hfault.turn fuel
      | @pass b next bs _ hsound hrest =>
        rw [hsound.turn fuel]
        by_cases hnext : next = 0
        · exact absurd hfault (hnull (hnext ▸ hrest))
        · rw [if_neg hnext]
          exact (ih (hnear rfl hsound hnext)).mpr ⟨bs, q, hrest, hfault⟩

end Walk

end VirtualKernel
