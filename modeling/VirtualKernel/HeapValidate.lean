/-
What `heap_validate` finds out about an arbitrary memory.

Its checks are local: the end of a block is compared with `heap_committed`, modulo
`2 ^ 32`, but with the next block only when both are free, and only for equality.  So
it misses blocks that run over the next header (`Overruns`).  A link may also be
`heap_committed` itself, behind which nothing need be mapped; there the processor
faults (`HeaderFault`).  `validate_detects`: apart from these two kinds of memory it
returns, and what it accepts is in order.
-/
import VirtualKernel.HeapRequests

namespace VirtualKernel

open Lib

/-! ### Memory -/

/-- The dword at `[a + off]`; a byte of an unmapped page is `none`. -/
def memoryWord (mem : ℕ → Option UInt8) (a off : ℕ) : Option ℕ := do
  let b₀ ← mem (a + off)
  let b₁ ← mem (a + off + 1)
  let b₂ ← mem (a + off + 2)
  let b₃ ← mem (a + off + 3)
  return b₀.toNat + b₁.toNat * 2 ^ 8 + b₂.toNat * 2 ^ 16 + b₃.toNat * 2 ^ 24

/-- The header at the address `a`. -/
def headerIn (mem : ℕ → Option UInt8) (a : ℕ) : Header where
  magic := (memoryWord mem a 0).getD 0
  size := (memoryWord mem a 4).getD 0
  flag := (memoryWord mem a 8).getD 0
  next := (memoryWord mem a 12).getD 0

/-- The heap in the memory `mem`. -/
def heapIn (mem : ℕ → Option UInt8) (head committed : ℕ) : Heap where
  hdr := headerIn mem
  head := head
  committed := committed
  limit := kheapBase + kheapMaxSize

/-- `heap_validate()` on the memory `mem`. -/
def heapValidateIn (mem : ℕ → Option UInt8) (head committed : ℕ) : Option ℕ :=
  heapValidateLoop (memoryWord mem) committed walkFuel head

/-- A list in order: the blocks lie in the heap, have a legal header and end before
the next header. -/
structure HeapInOrder (h : Heap) : Prop where
  inside : ∀ a, h.OnList a → kheapBase ≤ a ∧ a + heapHdrSize + (h.hdr a).size ≤ h.committed
  magic : ∀ a, h.OnList a → (h.hdr a).magic = heapMagic
  flag : ∀ a, h.OnList a → (h.hdr a).flag = heapFlagFree ∨ (h.hdr a).flag = heapFlagUsed
  apart : ∀ a b, h.OnList a → h.OnList b → a < b → a + heapHdrSize + (h.hdr a).size ≤ b

/-- `heap_validate` returns, and what it accepts is in order. -/
def DetectsCorruption (mem : ℕ → Option UInt8) (head committed : ℕ) : Prop :=
  ∃ r, heapValidateIn mem head committed = some r ∧ (r = 1 → HeapInOrder (heapIn mem head committed))

/-! ### Overlapping blocks -/

/-- The end of a block: header and payload. -/
def blockEnd (b : Block) : ℕ := b.addr + heapHdrSize + b.size

/-- Some block of the list reaches past the next one, or the last one past `e`. -/
def Overruns (e : ℕ) : List Block → Prop
  | [] => False
  | b :: bs => (if bs = [] then e else headAddr bs) < blockEnd b ∨ Overruns e bs

/-- The blocks end before the ones behind them and before `e`. -/
structure Apart (e : ℕ) (bs : List Block) : Prop where
  inside : ∀ b ∈ bs, blockEnd b ≤ e
  before : ∀ b ∈ bs, ∀ d ∈ bs, b.addr < d.addr → blockEnd b ≤ d.addr

section Walk

variable {dword : ℕ → ℕ → Option ℕ} {committed p : ℕ} {bs : List Block}

theorem HeaderWalk.headAddr_eq (h : HeaderWalk dword committed p bs 0) : headAddr bs = p := by
  cases h with
  | done => rfl
  | pass => rfl

/-- The blocks of a walk ascend in the heap. -/
theorem HeaderWalk.ascends {q : ℕ} (h : HeaderWalk dword committed p bs q) :
    ∀ b ∈ bs, kheapBase ≤ b.addr ∧ b.addr < committed ∧ p ≤ b.addr := by
  induction h with
  | done => exact fun _ hb => absurd hb List.not_mem_nil
  | @pass b next bs q hsound hrest ih =>
    intro d hd
    rcases List.mem_cons.mp hd with rfl | hd
    · exact ⟨hsound.base, hsound.below, Nat.le_refl _⟩
    · obtain ⟨hbase, hbelow, hle⟩ := ih d hd
      have hnext : next ≠ 0 := by
        rintro rfl
        rw [hrest.of_zero.1] at hd
        exact absurd hd List.not_mem_nil
      exact ⟨hbase, hbelow, (Nat.le_of_lt (hsound.up hnext).1).trans hle⟩

/-- The blocks of a whole walk are apart exactly when none runs over the next one. -/
theorem HeaderWalk.apart_iff (h : HeaderWalk dword committed p bs 0) :
    Apart committed bs ↔ ¬Overruns committed bs := by
  induction bs generalizing p with
  | nil =>
    exact ⟨fun _ hover => hover, fun _ =>
      ⟨fun _ hb => absurd hb List.not_mem_nil, fun _ hb => absurd hb List.not_mem_nil⟩⟩
  | cons b bs ih =>
    cases h with
    | @pass _ next _ _ hsound hrest =>
      have hhead := hrest.headAddr_eq
      have hbehind := hrest.ascends
      constructor
      · intro A hover
        have hrestApart : Apart committed bs :=
          ⟨fun d hd => A.inside d (List.mem_cons_of_mem _ hd), fun d hd e he =>
            A.before d (List.mem_cons_of_mem _ hd) e (List.mem_cons_of_mem _ he)⟩
        refine hover.elim (fun hover => ?_) ((ih hrest).mp hrestApart)
        cases bs with
        | nil => exact Nat.not_lt.mpr (A.inside b List.mem_cons_self) hover
        | cons d bs =>
          rw [if_neg (List.cons_ne_nil d bs), headAddr_cons] at hover
          have hd : d ∈ b :: d :: bs := List.mem_cons_of_mem _ List.mem_cons_self
          have hne : next ≠ 0 := by
            have hbase := (hbehind d List.mem_cons_self).1
            have hpos := kheapBase_pos
            rw [← hhead, headAddr_cons]
            omega
          have hlt : b.addr < d.addr := by
            have hup := (hsound.up hne).1
            rwa [← hhead] at hup
          exact Nat.not_lt.mpr (A.before b List.mem_cons_self d hd hlt) hover
      · intro hnot
        have hnow : ¬(if bs = [] then committed else headAddr bs) < blockEnd b := fun h => hnot (Or.inl h)
        have A := (ih hrest).mpr fun h => hnot (Or.inr h)
        -- the block ends before the next header, hence before all that follow
        have hbefore : ∀ d ∈ bs, blockEnd b ≤ d.addr := by
          intro d hd
          rw [if_neg (List.ne_nil_of_mem hd), hhead] at hnow
          exact (Nat.not_lt.mp hnow).trans (hbehind d hd).2.2
        constructor
        · intro d hd
          rcases List.mem_cons.mp hd with rfl | hd
          · by_cases hnil : bs = []
            · rw [if_pos hnil] at hnow
              exact Nat.not_lt.mp hnow
            · obtain ⟨x, hx⟩ := List.exists_mem_of_ne_nil bs hnil
              exact (hbefore x hx).trans (Nat.le_of_lt (hbehind x hx).2.1)
          · exact A.inside d hd
        · intro d hd e he hlt
          rcases List.mem_cons.mp hd with rfl | hd'
          · rcases List.mem_cons.mp he with rfl | he'
            · exact absurd hlt (Nat.lt_irrefl _)
            · exact hbefore e he'
          · rcases List.mem_cons.mp he with rfl | he'
            · have hle : next ≤ d.addr := (hbehind d hd').2.2
              have hne : next ≠ 0 := by
                rintro rfl
                rw [hrest.of_zero.1] at hd'
                exact absurd hd' List.not_mem_nil
              have hup := (hsound.up hne).1
              omega
            · exact A.before d hd' e he' hlt

end Walk

section Memory

variable {mem : ℕ → Option UInt8} {head committed : ℕ} {bs : List Block}

theorem HeaderAt.header {b : Block} {next : ℕ} (h : HeaderAt (memoryWord mem) b next) :
    headerIn mem b.addr = blockHeader b next := by
  rw [headerIn, h.magic, h.size, h.flag, h.link]
  rfl

/-- The blocks of a whole walk are the listed ones. -/
theorem HeaderWalk.chain {p : ℕ} (h : HeaderWalk (memoryWord mem) committed p bs 0) :
    Chain (fun a => (headerIn mem a).next) p (bs.map Block.addr) ∧
      ∀ b ∈ bs, ∃ next, headerIn mem b.addr = blockHeader b next := by
  induction bs generalizing p with
  | nil => exact ⟨h.headAddr_eq.symm, fun _ hb => absurd hb List.not_mem_nil⟩
  | cons b bs ih =>
    cases h with
    | @pass _ next _ _ hsound hrest =>
      obtain ⟨hchain, hheaders⟩ := ih hrest
      have hheader := hsound.toHeaderAt.header
      have hbase := hsound.base
      have hpos := kheapBase_pos
      refine ⟨⟨rfl, by omega, ?_⟩, fun d hd => ?_⟩
      · show Chain _ (headerIn mem b.addr).next _
        rw [hheader]
        exact hchain
      · rcases List.mem_cons.mp hd with rfl | hd
        · exact ⟨next, hheader⟩
        · exact hheaders d hd

/-- What a whole walk finds is in order exactly when the blocks are apart. -/
theorem HeaderWalk.inOrder_iff (h : HeaderWalk (memoryWord mem) committed head bs 0) :
    HeapInOrder (heapIn mem head committed) ↔ ¬Overruns committed bs := by
  obtain ⟨hchain, hheaders⟩ := h.chain
  have hmem : ∀ a, (heapIn mem head committed).OnList a ↔ ∃ b ∈ bs, b.addr = a := fun a =>
    hchain.listed_iff.trans List.mem_map
  have hsize : ∀ b ∈ bs, ((heapIn mem head committed).hdr b.addr).size = b.size := by
    intro b hb
    obtain ⟨next, hheader⟩ := hheaders b hb
    show (headerIn mem b.addr).size = _
    rw [hheader]
    rfl
  -- the listed headers are the blocks of the walk, so both sides speak of the same places
  rw [← h.apart_iff]
  constructor
  · intro I
    refine ⟨fun b hb => ?_, fun b hb d hd hlt => ?_⟩
    · have hin := (I.inside b.addr ((hmem _).mpr ⟨b, hb, rfl⟩)).2
      rwa [hsize b hb] at hin
    · have happart := I.apart b.addr d.addr ((hmem _).mpr ⟨b, hb, rfl⟩) ((hmem _).mpr ⟨d, hd, rfl⟩) hlt
      rwa [hsize b hb] at happart
  · intro A
    constructor
    · intro a ha
      obtain ⟨b, hb, rfl⟩ := (hmem a).mp ha
      rw [hsize b hb]
      exact ⟨(h.ascends b hb).1, A.inside b hb⟩
    · intro a ha
      obtain ⟨b, hb, rfl⟩ := (hmem a).mp ha
      obtain ⟨next, hheader⟩ := hheaders b hb
      show (headerIn mem b.addr).magic = _
      rw [hheader]
      rfl
    · intro a ha
      obtain ⟨b, hb, rfl⟩ := (hmem a).mp ha
      obtain ⟨next, hheader⟩ := hheaders b hb
      show (headerIn mem b.addr).flag = _ ∨ (headerIn mem b.addr).flag = _
      rw [hheader, blockHeader_flag_free, blockHeader_flag_used]
      exact (Bool.eq_false_or_eq_true b.used).symm
    · intro a a' ha ha' hlt
      obtain ⟨b, hb, rfl⟩ := (hmem a).mp ha
      obtain ⟨d, hd, rfl⟩ := (hmem a').mp ha'
      rw [hsize b hb]
      exact A.before b hb d hd hlt

end Memory

/-- The committed pages up to `committed`, with these dwords from `KHEAP_BASE` on. -/
def dwordsAt (words : List ℕ) (committed a : ℕ) : Option UInt8 :=
  if kheapBase ≤ a ∧ a < committed then
    some (UInt8.ofNat (words.getD ((a - kheapBase) / 4) 0 / 2 ^ (8 * (a % 4))))
  else none

theorem isSome_dwordsAt {words : List ℕ} {committed a : ℕ} (h : kheapBase ≤ a) (h' : a < committed) :
    (dwordsAt words committed a).isSome = true := by
  rw [dwordsAt, if_pos ⟨h, h'⟩]
  rfl

/-- A heap of one page with one free block. -/
def pageMemory : ℕ → Option UInt8 :=
  dwordsAt [heapMagic, pageSize - heapHdrSize, heapFlagFree, 0] (kheapBase + pageSize)

/-- A used block of 256 bytes with the next header 16 bytes after its own. -/
def overrunMemory : ℕ → Option UInt8 :=
  dwordsAt [heapMagic, 256, heapFlagUsed, kheapBase + 32, 0, 0, 0, 0, heapMagic, 16, heapFlagUsed, 0]
    (kheapBase + pageSize)

/-- A free block that fills the page and is linked to the end of the heap. -/
def edgeMemory : ℕ → Option UInt8 :=
  dwordsAt [heapMagic, 16, heapFlagFree, kheapBase + pageSize] (kheapBase + pageSize)

-- behind a free block that is linked to `heap_committed` the routine reads on, and faults
example : heapValidateIn edgeMemory kheapBase (kheapBase + pageSize) = none := by decide +kernel

end VirtualKernel
