/-
The representation invariant of the kernel heap.

`HeapRep h bs` says that the header memory of `h` holds the block list `bs`:
the links run through `bs` in order, `bs` tiles `[KHEAP_BASE, heap_committed)`,
payload sizes are multiples of 8 and no two neighbours are free.  The walks
end because the list is at most as long as the committed range.  Coalescing
and growth are described once on block lists (`heapCoalesce_spec`,
`heapGrowOnePage_spec`, `heapGrowPages_grown`).
-/
import VirtualKernel.Heap
import VirtualKernel.Lib.Blocks
import VirtualKernel.Lib.Chain

namespace VirtualKernel

open Lib

/-- The header words of the block `b` when its link is `next`. -/
def blockHeader (b : Block) (next : ℕ) : Header where
  magic := heapMagic
  size := b.size
  flag := if b.used then heapFlagUsed else heapFlagFree
  next := next

/-- The headers of `bs` are in memory, each linked to the next. -/
def Linked (hdr : ℕ → Header) : List Block → Prop
  | [] => True
  | b :: bs => hdr b.addr = blockHeader b (headAddr bs) ∧ Linked hdr bs

@[simp] theorem linked_nil {hdr : ℕ → Header} : Linked hdr [] := trivial

@[simp] theorem linked_cons {hdr : ℕ → Header} {b : Block} {bs : List Block} :
    Linked hdr (b :: bs) ↔ hdr b.addr = blockHeader b (headAddr bs) ∧ Linked hdr bs := Iff.rfl

@[simp] theorem blockHeader_flag_free {b : Block} {n : ℕ} :
    (blockHeader b n).flag = heapFlagFree ↔ b.used = false := by
  cases hb : b.used <;> simp [blockHeader, hb]

@[simp] theorem blockHeader_flag_used {b : Block} {n : ℕ} :
    (blockHeader b n).flag = heapFlagUsed ↔ b.used = true := by
  cases hb : b.used <;> simp [blockHeader, hb]

theorem Linked.congr {hdr hdr' : ℕ → Header} : ∀ {bs : List Block},
    (∀ b ∈ bs, hdr' b.addr = hdr b.addr) → Linked hdr bs → Linked hdr' bs
  | [], _, _ => trivial
  | b :: bs, hag, h => by
    refine ⟨(hag b List.mem_cons_self).trans h.1, ?_⟩
    exact congr (fun d hd => hag d (List.mem_cons_of_mem _ hd)) h.2

/-- Replace the list from the block at `b.addr` on; the blocks before it keep
their headers. -/
theorem Linked.replace_suffix {hdr hdr' : ℕ → Header} {b d : Block} {bs ds : List Block}
    (haddr : d.addr = b.addr) (hd : Linked hdr' (d :: ds)) : ∀ {pre : List Block},
    (∀ x ∈ pre, hdr' x.addr = hdr x.addr) → Linked hdr (pre ++ b :: bs) →
      Linked hdr' (pre ++ d :: ds)
  | [], _, _ => hd
  | x :: pre, hag, h => by
    refine ⟨?_, replace_suffix haddr hd (fun y hy => hag y (List.mem_cons_of_mem _ hy)) h.2⟩
    rw [hag x List.mem_cons_self, h.1]
    cases pre with
    | nil => simp [haddr]
    | cons y pre => rfl

theorem Linked.suffix {hdr : ℕ → Header} : ∀ {pre bs : List Block},
    Linked hdr (pre ++ bs) → Linked hdr bs
  | [], _, h => h
  | _ :: _, _, h => suffix h.2

/-! ### The walks -/

/-- The loop of `heap_coalesce` joins the free neighbours of the list it is
started on, and writes no header below it. -/
theorem heapCoalesceLoop_spec : ∀ (bs : List Block) (b : Block) (hdr : ℕ → Header) (fuel e : ℕ),
    Linked hdr (b :: bs) → Tiled heapHdrSize b.addr (b :: bs) e → e < 2 ^ 32 → 0 < b.addr →
      bs.length < fuel → ∃ hdr', heapCoalesceLoop fuel b.addr hdr = some hdr' ∧
        Linked hdr' (coalescedFrom heapHdrSize b bs) ∧ ∀ a < b.addr, hdr' a = hdr a := by
  intro bs
  induction bs with
  | nil =>
    intro b hdr fuel e hl _ _ hb hf
    obtain ⟨fuel, rfl⟩ : ∃ n, fuel = n + 1 := ⟨fuel - 1, by simp at hf; omega⟩
    refine ⟨hdr, ?_, hl, fun _ _ => rfl⟩
    rw [heapCoalesceLoop, if_neg (by omega)]
    simp [hl.1, blockHeader]
  | cons d bs ih =>
    intro b hdr fuel e hl ht he hb hf
    obtain ⟨fuel, rfl⟩ : ∃ n, fuel = n + 1 := ⟨fuel - 1, by simp at hf; omega⟩
    obtain ⟨hlb, hld, hlbs⟩ := hl
    obtain ⟨-, htd, htbs⟩ := ht
    have hle := Tiled.le htbs
    have h16 : heapHdrSize = 16 := rfl
    have hnext : (hdr b.addr).next = d.addr := by rw [hlb]; rfl
    have hstop : add32 (add32 b.addr heapHdrSize) (hdr b.addr).size = d.addr := by
      rw [hlb, htd, add32_of_lt (a := b.addr) (by omega), add32_of_lt (by simp [blockHeader]; omega)]
      rfl
    rw [heapCoalesceLoop, if_neg (by omega)]
    simp only [hnext]
    rw [if_neg (by omega)]
    have hflags : ((hdr b.addr).flag = heapFlagFree ∧ (hdr d.addr).flag = heapFlagFree ∧
        add32 (add32 b.addr heapHdrSize) (hdr b.addr).size = d.addr) ↔
        (b.used = false ∧ d.used = false) := by
      rw [hstop, hlb, hld]
      simp
    have hf' : bs.length < fuel := by simp at hf; omega
    by_cases hfree : b.used = false ∧ d.used = false
    · rw [if_pos (hflags.mpr hfree), coalescedFrom, if_pos hfree]
      -- the joined block keeps the address of `b`; the rest lies above it
      set j := b.join heapHdrSize d with hj
      have hjh : { hdr b.addr with
          size := add32 (hdr b.addr).size (add32 (hdr d.addr).size heapHdrSize)
          next := (hdr d.addr).next } = blockHeader j (headAddr bs) := by
        rw [hlb, hld]
        simp only [blockHeader, hj, Block.join]
        rw [add32_of_lt (a := d.size) (by omega), add32_of_lt (by omega)]
      rw [hjh]
      have hrest : Linked (Function.update hdr b.addr (blockHeader j (headAddr bs))) bs := by
        refine Linked.congr (fun x hx => Function.update_of_ne ?_ _ _) hlbs
        have := (htbs.mem_bounds x hx).1
        omega
      have hjt : Tiled heapHdrSize j.addr (j :: bs) e := by
        refine ⟨rfl, ?_⟩
        rwa [show j.addr + heapHdrSize + j.size = b.addr + heapHdrSize + b.size + heapHdrSize + d.size
          by simp only [hj, Block.join]; omega]
      obtain ⟨hdr', hrun, hlk, hlow⟩ := ih j _ fuel e
        ⟨by simp [hj, Block.join], hrest⟩ hjt he hb hf'
      refine ⟨hdr', hrun, hlk, fun a ha => ?_⟩
      rw [hlow a ha, Function.update_of_ne (by omega)]
    · rw [if_neg (fun h => hfree (hflags.mp h)), coalescedFrom, if_neg hfree]
      obtain ⟨hdr', hrun, hlk, hlow⟩ := ih d hdr fuel e ⟨hld, hlbs⟩
        ⟨rfl, by rw [htd]; exact htbs⟩ he (by omega) hf'
      refine ⟨hdr', hrun, ⟨?_, hlk⟩, fun a ha => hlow a (by omega)⟩
      rw [hlow b.addr (by omega), hlb, headAddr_coalescedFrom]
      rfl

/-- The walk to the last block. -/
theorem heapFindTail_spec : ∀ (pre : List Block) (b : Block) (hdr : ℕ → Header) (fuel : ℕ),
    Linked hdr (pre ++ [b]) → (∀ x ∈ pre ++ [b], x.addr ≠ 0) → pre.length < fuel →
      heapFindTail hdr fuel (headAddr (pre ++ [b])) = some b.addr := by
  intro pre
  induction pre with
  | nil =>
    intro b hdr fuel hl _ hf
    obtain ⟨fuel, rfl⟩ : ∃ n, fuel = n + 1 := ⟨fuel - 1, by simp at hf; omega⟩
    have hb : (hdr b.addr).next = 0 := by rw [hl.1]; rfl
    simp [heapFindTail, hb]
  | cons x pre ih =>
    intro b hdr fuel hl hne hf
    obtain ⟨fuel, rfl⟩ : ∃ n, fuel = n + 1 := ⟨fuel - 1, by simp at hf; omega⟩
    have hx : (hdr x.addr).next = headAddr (pre ++ [b]) := by rw [hl.1]; rfl
    have hne' : headAddr (pre ++ [b]) ≠ 0 := by
      cases pre with
      | nil => exact hne b (by simp)
      | cons y pre => exact hne y (by simp)
    rw [List.cons_append, headAddr_cons, heapFindTail, hx, if_neg hne']
    exact ih b hdr fuel hl.2 (fun y hy => hne y (by simp at hy ⊢; tauto)) (by simp at hf; omega)

/-- What the scan of `heap_alloc` looks for. -/
def fits (ebx : ℕ) (b : Block) : Bool := !b.used && decide (ebx ≤ b.size)

/-- The scan of `heap_alloc` is first fit. -/
theorem heapAllocScan_spec (ebx : ℕ) : ∀ (bs : List Block) (hdr : ℕ → Header) (fuel : ℕ),
    Linked hdr bs → (∀ x ∈ bs, x.addr ≠ 0) → bs.length < fuel →
      heapAllocScan hdr ebx fuel (headAddr bs) =
        some (match bs.find? (fits ebx) with
          | some b => HeapScan.found b.addr
          | none => HeapScan.needGrow) := by
  intro bs
  induction bs with
  | nil =>
    intro hdr fuel _ _ hf
    obtain ⟨fuel, rfl⟩ : ∃ n, fuel = n + 1 := ⟨fuel - 1, by simp at hf; omega⟩
    simp [heapAllocScan]
  | cons b bs ih =>
    intro hdr fuel hl hne hf
    obtain ⟨fuel, rfl⟩ : ∃ n, fuel = n + 1 := ⟨fuel - 1, by simp at hf; omega⟩
    have hrec := ih hdr fuel hl.2 (fun x hx => hne x (List.mem_cons_of_mem _ hx))
      (by simp at hf; omega)
    rw [headAddr_cons, heapAllocScan, if_neg (hne b List.mem_cons_self), hl.1]
    rw [if_neg (by simp [blockHeader])]
    cases hu : b.used
    · rw [if_neg (by simp [hu])]
      by_cases hsz : ebx ≤ b.size
      · rw [if_neg (by simp [blockHeader]; omega)]
        simp [fits, hu, hsz]
      · rw [if_pos (by simp [blockHeader]; omega)]
        simp only [blockHeader]
        rw [hrec, List.find?_cons_of_neg (by simp [fits, hsz])]
    · rw [if_pos (by simp [hu])]
      simp only [blockHeader]
      rw [hrec, List.find?_cons_of_neg (by simp [fits, hu])]

/-! ### The representation invariant -/

/-- The block list `bs` is in memory and tiles the committed range. -/
structure HeapPre (h : Heap) (bs : List Block) : Prop where
  head : h.head = headAddr bs
  linked : Linked h.hdr bs
  tiled : Tiled heapHdrSize kheapBase bs h.committed
  align : ∀ b ∈ bs, b.size % 8 = 0
  limit : h.limit = kheapBase + kheapMaxSize
  le_limit : h.committed ≤ h.limit
  paged : h.committed % pageSize = 0

/-- **The representation invariant**: in addition no two neighbours are free. -/
structure HeapRep (h : Heap) (bs : List Block) : Prop extends HeapPre h bs where
  noAdj : NoAdjFree bs

namespace HeapPre

variable {h : Heap} {bs : List Block}

theorem committed_lt (H : HeapPre h bs) : h.committed < 2 ^ 32 := by
  have h1 := H.le_limit
  have h2 := H.limit
  simp only [kheapBase, kheapMaxSize] at h2
  omega

theorem base_le (H : HeapPre h bs) {b : Block} (hb : b ∈ bs) : kheapBase ≤ b.addr :=
  (H.tiled.mem_bounds b hb).1

theorem addr_ne_zero (H : HeapPre h bs) : ∀ b ∈ bs, b.addr ≠ 0 := by
  intro b hb
  have := H.base_le hb
  simp only [kheapBase] at this
  omega

theorem length_lt (H : HeapPre h bs) : bs.length < walkFuel := by
  have h1 := H.tiled.length_le
  have h2 := H.committed_lt
  simp only [heapHdrSize, kheapBase] at h1
  simp only [walkFuel]
  omega

/-- Two block lists in the same memory are equal. -/
theorem linked_unique {hdr : ℕ → Header} : ∀ {bs ds : List Block},
    Linked hdr bs → Linked hdr ds → (∀ b ∈ bs, b.addr ≠ 0) → (∀ b ∈ ds, b.addr ≠ 0) →
      headAddr bs = headAddr ds → bs = ds
  | [], [], _, _, _, _, _ => rfl
  | [], d :: _, _, _, _, hd, he => absurd he.symm (hd d List.mem_cons_self)
  | b :: _, [], _, _, hb, _, he => absurd he (hb b List.mem_cons_self)
  | b :: bs, d :: ds, hlb, hld, hb, hd, he => by
    have haddr : b.addr = d.addr := he
    have hhdr := hlb.1.symm.trans ((congrArg hdr haddr).trans hld.1)
    simp only [blockHeader, Header.mk.injEq, true_and] at hhdr
    obtain ⟨hsz, hfl, hnx⟩ := hhdr
    have hu : b.used = d.used := by
      cases hb' : b.used <;> cases hd' : d.used <;> simp_all
    have hbd : b = d := by
      cases b; cases d; simp_all
    rw [hbd, linked_unique hlb.2 hld.2 (fun x hx => hb x (List.mem_cons_of_mem _ hx))
      (fun x hx => hd x (List.mem_cons_of_mem _ hx)) hnx]

theorem unique (H : HeapPre h bs) {ds : List Block} (H' : HeapPre h ds) : bs = ds :=
  linked_unique H.linked H'.linked H.addr_ne_zero H'.addr_ne_zero (H.head.symm.trans H'.head)

/-- `heap_coalesce` turns a tiling into one without free neighbours. -/
theorem heapCoalesce_spec (H : HeapPre h bs) :
    ∃ h', heapCoalesce h = some h' ∧ HeapRep h' (coalesced heapHdrSize bs) ∧
      h'.committed = h.committed := by
  have hlimit := H.limit
  have hsize : ∀ x y, x % 8 = 0 → y % 8 = 0 → (x + (y + heapHdrSize)) % 8 = 0 := by
    intro x y hx hy
    simp only [heapHdrSize]
    omega
  cases bs with
  | nil =>
    refine ⟨h, ?_, ⟨H, List.isChain_nil⟩, rfl⟩
    have hhead : h.head = 0 := H.head
    obtain ⟨n, hn⟩ : ∃ n, walkFuel = n + 1 := ⟨2 ^ 32 - 1, rfl⟩
    simp only [heapCoalesce, hn, heapCoalesceLoop, if_pos hhead, Option.map_some]
  | cons b bs =>
    have hbase : b.addr = kheapBase := H.tiled.1
    have hlen := H.length_lt
    obtain ⟨hdr', hrun, hlk, -⟩ := heapCoalesceLoop_spec bs b h.hdr walkFuel h.committed
      H.linked (hbase ▸ H.tiled) H.committed_lt (by rw [hbase]; decide)
      (by rw [List.length_cons] at hlen; omega)
    refine ⟨{ h with hdr := hdr' }, ?_, ?_, rfl⟩
    · rw [heapCoalesce, H.head, headAddr_cons, hrun]
      rfl
    · exact
        { head := H.head.trans (headAddr_coalesced _).symm
          linked := hlk
          tiled := H.tiled.coalesced
          align := forall_size_coalesced (P := fun n => n % 8 = 0) hsize H.align
          limit := H.limit
          le_limit := H.le_limit
          paged := H.paged
          noAdj := noAdjFree_coalesced _ }

end HeapPre

/-! ### Growth -/

/-- The free block that a new page becomes. -/
def pageBlock (a : ℕ) : Block := { addr := a, size := pageSize - heapHdrSize, used := false }

/-- Linking the page behind the list, before coalescing. -/
theorem heapLinkTail_spec {h : Heap} {bs : List Block} (H : HeapPre h bs)
    (hlt : h.committed < h.limit) :
    ∃ h', heapLinkTail { h with hdr := Function.update h.hdr h.committed heapPageHeader }
        h.committed = some h' ∧ h'.committed = h.committed ∧
      HeapPre { h' with committed := add32 h.committed pageSize } (bs ++ [pageBlock h.committed]) := by
  have hlimit := H.limit
  have hpaged := H.paged
  have hbase := H.tiled.le
  simp only [kheapBase, kheapMaxSize, pageSize] at hlimit hpaged hbase
  have hgrow : add32 h.committed pageSize = h.committed + pageSize :=
    add32_of_lt (by simp only [pageSize]; omega)
  have htiled : Tiled heapHdrSize kheapBase (bs ++ [pageBlock h.committed])
      (h.committed + pageSize) := by
    refine Tiled.append_iff.mpr ⟨h.committed, H.tiled, rfl, ?_⟩
    simp [pageBlock, pageSize, heapHdrSize]
  have halign : ∀ b ∈ bs ++ [pageBlock h.committed], b.size % 8 = 0 := by
    intro b hb
    rcases List.mem_append.mp hb with hb | hb
    · exact H.align b hb
    · rw [List.mem_singleton.mp hb]
      simp [pageBlock, pageSize, heapHdrSize]
  have hbelow : ∀ b ∈ bs, b.addr < h.committed := by
    intro b hb
    have := (H.tiled.mem_bounds b hb).2
    simp only [heapHdrSize] at this
    omega
  set new := heapPageHeader with hnew
  have hold : Linked (Function.update h.hdr h.committed new) bs :=
    Linked.congr (fun b hb => Function.update_of_ne (ne_of_lt (hbelow b hb)) _ _) H.linked
  have hlast : Function.update h.hdr h.committed new h.committed
      = blockHeader (pageBlock h.committed) 0 := by
    rw [Function.update_self]
    rfl
  rw [heapLinkTail]
  rcases List.eq_nil_or_concat bs with rfl | ⟨pre, b, rfl⟩
  · -- the first page becomes the head
    rw [if_pos (by simpa using H.head)]
    refine ⟨_, rfl, rfl, ?_⟩
    exact
      { head := rfl
        linked := ⟨hlast, trivial⟩
        tiled := by rw [hgrow]; exact htiled
        align := halign
        limit := H.limit
        le_limit := by rw [hgrow]; simp only [pageSize]; omega
        paged := by rw [hgrow]; simp only [pageSize]; omega }
  · rw [List.concat_eq_append] at *
    have hne := H.addr_ne_zero
    have hhead : h.head ≠ 0 := by
      rw [H.head]
      cases pre with
      | nil => exact hne b (by simp)
      | cons y pre => exact hne y (by simp)
    have hlen := H.length_lt
    rw [List.length_append] at hlen
    have htail : heapFindTail (Function.update h.hdr h.committed new) walkFuel h.head = some b.addr := by
      rw [H.head]
      exact heapFindTail_spec pre b _ _ hold hne (by simp at hlen; omega)
    have hbc : b.addr ≠ h.committed := ne_of_lt (hbelow b (by simp))
    rw [if_neg hhead]
    simp only [htail, Option.map_some]
    refine ⟨_, rfl, rfl, ?_⟩
    have hpre : ∀ x ∈ pre, x.addr ≠ b.addr := by
      intro x hx
      have hpw := (List.pairwise_append.mp (H.tiled.pairwise)).2.2 x hx b (by simp)
      simp only [heapHdrSize] at hpw
      omega
    have hnewlink : Linked (Function.update (Function.update h.hdr h.committed new) b.addr
        { Function.update h.hdr h.committed new b.addr with next := h.committed })
        (b :: [pageBlock h.committed]) := by
      refine ⟨?_, ?_, trivial⟩
      · rw [Function.update_self, (Linked.suffix hold).1]
        rfl
      · rw [show (pageBlock h.committed).addr = h.committed from rfl, Function.update_of_ne hbc.symm,
          hlast]
        rfl
    exact
      { head := by
          rw [H.head]
          cases pre <;> rfl
        linked := by
          rw [List.append_assoc]
          exact Linked.replace_suffix rfl hnewlink
            (fun x hx => Function.update_of_ne (hpre x hx) _ _) hold
        tiled := by rw [hgrow]; exact htiled
        align := halign
        limit := H.limit
        le_limit := by rw [hgrow]; simp only [pageSize]; omega
        paged := by rw [hgrow]; simp only [pageSize]; omega }

section Growth

variable {σ : Type} (commit : ℕ → σ → Bool × σ) {h : Heap} {bs : List Block}

/-- `heap_grow_one_page` either changes nothing in the heap or appends one
coalesced page. -/
theorem heapGrowOnePage_spec (H : HeapRep h bs) (w : σ) :
    ∃ r h' w', heapGrowOnePage commit h w = some (r, h', w') ∧
      ((r = 0 ∧ h' = h ∧ (h.limit ≤ h.committed ∧ w' = w ∨ commit h.committed w = (false, w'))) ∨
       (r = 1 ∧ commit h.committed w = (true, w') ∧ h.committed < h.limit ∧
        h'.committed = h.committed + pageSize ∧
        HeapRep h' (coalesced heapHdrSize (bs ++ [pageBlock h.committed])))) := by
  rw [heapGrowOnePage]
  by_cases hlim : h.limit ≤ h.committed
  · rw [if_pos hlim]
    exact ⟨0, h, w, rfl, Or.inl ⟨rfl, rfl, Or.inl ⟨hlim, rfl⟩⟩⟩
  rw [if_neg hlim]
  rcases hc : commit h.committed w with ⟨ok, w'⟩
  cases ok with
  | false => exact ⟨0, h, w', rfl, Or.inl ⟨rfl, rfl, Or.inr rfl⟩⟩
  | true =>
    obtain ⟨h₁, hlink, hcom, H₁⟩ := heapLinkTail_spec H.toHeapPre (by omega)
    obtain ⟨h₂, hco, H₂, hcom₂⟩ := H₁.heapCoalesce_spec
    have hlt : h.committed + pageSize < 2 ^ 32 := by
      have h1 := H.limit
      simp only [kheapBase, kheapMaxSize, pageSize] at h1 ⊢
      omega
    refine ⟨1, h₂, w', ?_, Or.inr ⟨rfl, rfl, by omega, ?_, H₂⟩⟩
    · simp only [hlink, Option.bind_eq_bind, Option.bind_some, hcom, hco]
      rfl
    · rw [hcom₂]
      exact add32_of_lt hlt

/-- An invariant `I` of the memory below, indexed by the committed end of the
heap, that every attempt to back one more heap page keeps. -/
structure CommitInv (I : ℕ → σ → Prop) : Prop where
  ok : ∀ c w w', I c w → kheapBase ≤ c → c < kheapBase + kheapMaxSize → c % pageSize = 0 →
    commit c w = (true, w') → I (c + pageSize) w'
  fail : ∀ c w w', I c w → kheapBase ≤ c → c < kheapBase + kheapMaxSize → c % pageSize = 0 →
    commit c w = (false, w') → I c w'

variable {commit} {I : ℕ → σ → Prop}

/-- What growing and allocating `n` bytes keep: the representation, the
invariant of the memory below and, for a request that is not empty, the
positivity of block sizes. -/
structure Grown (I : ℕ → σ → Prop) (n : ℕ) (h : Heap) (bs : List Block) (h' : Heap) (w' : σ)
    (bs' : List Block) : Prop where
  rep : HeapRep h' bs'
  inv : I h'.committed w'
  committed_le : h.committed ≤ h'.committed
  pos : 0 < n → (∀ b ∈ bs, 0 < b.size) → ∀ b ∈ bs', 0 < b.size

theorem Grown.refl (n : ℕ) {w : σ} (H : HeapRep h bs) (hw : I h.committed w) :
    Grown I n h bs h w bs := ⟨H, hw, le_refl _, fun _ => id⟩

theorem Grown.trans {n : ℕ} {h₁ h₂ : Heap} {w₁ w₂ : σ} {bs₁ bs₂ : List Block}
    (g₁ : Grown I n h bs h₁ w₁ bs₁) (g₂ : Grown I n h₁ bs₁ h₂ w₂ bs₂) :
    Grown I n h bs h₂ w₂ bs₂ where
  rep := g₂.rep
  inv := g₂.inv
  committed_le := le_trans g₁.committed_le g₂.committed_le
  pos := fun hn hp => g₂.pos hn (g₁.pos hn hp)

theorem heapGrowOnePage_grown (hI : CommitInv commit I) (n : ℕ) (H : HeapRep h bs) {w : σ}
    (hw : I h.committed w) :
    ∃ r h' w' bs', heapGrowOnePage commit h w = some (r, h', w') ∧ Grown I n h bs h' w' bs' ∧
      bs'.filter Block.used = bs.filter Block.used ∧
      (r ≠ 0 → h'.committed = h.committed + pageSize) := by
  obtain ⟨r, h', w', hrun, ⟨rfl, rfl, hw'⟩ | ⟨rfl, hc, hlt, hcom, H'⟩⟩ :=
    heapGrowOnePage_spec commit H w
  · refine ⟨0, h', w', bs, hrun, ⟨H, ?_, le_refl _, fun _ => id⟩, rfl, fun h0 => absurd rfl h0⟩
    rcases hw' with ⟨-, rfl⟩ | hfail
    · exact hw
    · by_cases hlim : h'.limit ≤ h'.committed
      · -- at the limit the page is never asked for
        rw [heapGrowOnePage, if_pos hlim] at hrun
        simp only [Option.some.injEq, Prod.mk.injEq, true_and] at hrun
        exact hrun ▸ hw
      · exact hI.fail _ _ _ hw H.tiled.le (by have := H.limit; omega) H.paged hfail
  · refine ⟨1, h', w', _, hrun, ⟨H', ?_, by omega, ?_⟩, ?_, fun _ => hcom⟩
    · rw [hcom]
      exact hI.ok _ _ _ hw H.tiled.le (by have := H.limit; omega) H.paged hc
    · intro _ hpos
      refine forall_size_coalesced (P := fun n => 0 < n) (fun x y hx _ => by omega) ?_
      intro b hb
      rcases List.mem_append.mp hb with hb | hb
      · exact hpos b hb
      · rw [List.mem_singleton.mp hb]
        simp [pageBlock, pageSize, heapHdrSize]
    · rw [filter_used_coalesced, List.filter_append]
      simp [pageBlock]

theorem heapGrowPagesNext_grown (hI : CommitInv commit I) (n : ℕ) : ∀ (count : ℕ) {h : Heap}
    {bs : List Block} {w : σ}, HeapRep h bs → I h.committed w →
    ∃ r h' w' bs', heapGrowPagesNext commit count h w = some (r, h', w') ∧
      Grown I n h bs h' w' bs' ∧ bs'.filter Block.used = bs.filter Block.used ∧
      (r ≠ 0 → h'.committed = h.committed + count * pageSize)
  | 0, h, bs, w, H, hw => ⟨1, h, w, bs, rfl, .refl n H hw, rfl, by simp⟩
  | count + 1, h, bs, w, H, hw => by
    obtain ⟨r, h₁, w₁, bs₁, hrun, g₁, hu₁, hr₁⟩ := heapGrowOnePage_grown hI n H hw
    by_cases hr : r = 0
    · refine ⟨0, h₁, w₁, bs₁, ?_, g₁, hu₁, fun h0 => absurd rfl h0⟩
      simp [heapGrowPagesNext, hrun, hr]
    · obtain ⟨r', h₂, w₂, bs₂, hrun₂, g₂, hu₂, hr₂⟩ := heapGrowPagesNext_grown hI n count g₁.rep g₁.inv
      refine ⟨r', h₂, w₂, bs₂, ?_, g₁.trans g₂, hu₂.trans hu₁, fun h0 => ?_⟩
      · simp [heapGrowPagesNext, hrun, hr, hrun₂]
      · rw [hr₂ h0, hr₁ hr, Nat.succ_mul]
        omega

/-- `heap_grow_pages` keeps the used blocks; a success adds `count` pages. -/
theorem heapGrowPages_grown (hI : CommitInv commit I) (n count : ℕ) (H : HeapRep h bs) {w : σ}
    (hw : I h.committed w) :
    ∃ r h' w' bs', heapGrowPages commit count h w = some (r, h', w') ∧
      Grown I n h bs h' w' bs' ∧ bs'.filter Block.used = bs.filter Block.used ∧
      (r ≠ 0 → count ≠ 0 ∧ h'.committed = h.committed + count * pageSize) := by
  rw [heapGrowPages]
  by_cases hc : count = 0
  · rw [if_pos hc]
    exact ⟨0, h, w, bs, rfl, .refl n H hw, rfl, fun h0 => absurd rfl h0⟩
  · rw [if_neg hc]
    obtain ⟨r, h', w', bs', hrun, g, hu, hr⟩ := heapGrowPagesNext_grown hI n count H hw
    exact ⟨r, h', w', bs', hrun, g, hu, fun h0 => ⟨hc, hr h0⟩⟩

end Growth

end VirtualKernel
