/-
Requests to the kernel heap, of any size.

`HeapHistory` are the runs of the heap in which clients may ask for any 32-bit
size.  Two results say when `heap_alloc` keeps its promises.
**`alloc_hands_out`**: a block that is handed out is as large as was asked,
unless the size is within 7 of `2 ^ 32` and the rounding wraps to 0.
**`alloc_complete`**: a request fails only when no free block fits, unless the
growth stops half-way and the pages that were added make the last free block
large enough; then the list is not scanned again.
-/
import VirtualKernel.HeapRuns

namespace VirtualKernel

open Lib

/-- The header at `a` is on the list. -/
def Heap.OnList (h : Heap) (a : ℕ) : Prop := Listed (fun a => (h.hdr a).next) h.head a

section History

variable {σ : Type} (commit : ℕ → σ → Bool × σ)

/-- One page can be added to the heap. -/
def CanGrow (h : Heap) (w : σ) : Prop := h.committed < h.limit ∧ (commit h.committed w).1 = true

/-- The rounding of the size does not wrap, or there is nothing to hand out. -/
def FairRequest (h : Heap) (w : σ) (size : ℕ) : Prop :=
  size ≤ 2 ^ 32 - 8 ∨
    (∀ a, h.OnList a → (h.hdr a).flag ≠ heapFlagFree) ∧ ¬CanGrow commit h w

/-- The heap states of a run in which all requests satisfy `A`, with the
payloads that were handed out and not yet freed.  A client may write to all of
its payload. -/
inductive HeapHistory (A : Heap → σ → ℕ → Prop) : Heap → List (ℕ × ℕ) → Prop
  | init {hdr : ℕ → Header} {w w' : σ} {r : ℕ} {h : Heap} :
      heapInit commit hdr w = some (r, h, w') → HeapHistory A h []
  | alloc {h h' : Heap} {live : List (ℕ × ℕ)} {size r : ℕ} {w w' : σ} :
      HeapHistory A h live → A h w size → heapAlloc commit size h w = some (r, h', w') →
      HeapHistory A h' (if r = 0 then live else (r, (h'.hdr (r - heapHdrSize)).size) :: live)
  | free {h h' : Heap} {live : List (ℕ × ℕ)} {p n : ℕ} :
      HeapHistory A h live → (p, n) ∈ live → heapFree p h = some h' → HeapHistory A h' (live.erase (p, n))
  | freeNull {h h' : Heap} {live : List (ℕ × ℕ)} :
      HeapHistory A h live → heapFree 0 h = some h' → HeapHistory A h' live
  | growPages {h h' : Heap} {live : List (ℕ × ℕ)} {count r : ℕ} {w w' : σ} :
      HeapHistory A h live → heapGrowPages commit count h w = some (r, h', w') → HeapHistory A h' live
  | coalesce {h h' : Heap} {live : List (ℕ × ℕ)} :
      HeapHistory A h live → heapCoalesce h = some h' → HeapHistory A h' live
  | write {h : Heap} {live : List (ℕ × ℕ)} {p n : ℕ} {hdr : ℕ → Header} :
      HeapHistory A h live → (p, n) ∈ live →
      (∀ a, a + heapHdrSize ≤ p ∨ p + n ≤ a → hdr a = h.hdr a) →
      HeapHistory A { h with hdr := hdr } live

end History

section Requests

variable {σ : Type} {commit : ℕ → σ → Bool × σ} {h : Heap} {bs : List Block} {w : σ} {n : ℕ}

theorem HeapRep.onList_iff (H : HeapRep h bs) {a : ℕ} : h.OnList a ↔ ∃ b ∈ bs, b.addr = a := by
  have hchain := H.linked.chain H.addr_ne_zero
  rw [← H.head] at hchain
  exact hchain.listed_iff.trans List.mem_map

/-- The header of a block on the list. -/
theorem HeapRep.header (H : HeapRep h bs) {b : Block} (hb : b ∈ bs) :
    (h.hdr b.addr).size = b.size ∧ ((h.hdr b.addr).flag = heapFlagFree ↔ b.used = false) ∧
      ((h.hdr b.addr).flag = heapFlagUsed ↔ b.used = true) := by
  obtain ⟨next, hn⟩ := H.linked.hdr_eq b hb
  rw [hn]
  exact ⟨rfl, blockHeader_flag_free, blockHeader_flag_used⟩

/-! ### The rounds of a request -/

theorem heapAllocRetry_found (H : HeapRep h bs) {b : Block} (hfind : bs.find? (fits n) = some b)
    (fuel : ℕ) (w : σ) :
    heapAllocRetry commit n (fuel + 1) h w =
      some (add32 b.addr heapHdrSize, { h with hdr := heapTakeBlock h.hdr b.addr n }, w) := by
  have hscan := heapAllocScan_spec n bs h.hdr walkFuel H.linked H.addr_ne_zero H.length_lt
  rw [← H.head, hfind] at hscan
  simp [heapAllocRetry, hscan]

theorem heapAllocRetry_grow (H : HeapRep h bs) (hfind : bs.find? (fits n) = none) (fuel : ℕ)
    {r : ℕ} {h₁ : Heap} {w₁ : σ} (hgrow : heapGrowPages commit (heapGrowCount n) h w = some (r, h₁, w₁)) :
    heapAllocRetry commit n (fuel + 1) h w =
      if r = 0 then some (0, h₁, w₁) else heapAllocRetry commit n fuel h₁ w₁ := by
  have hscan := heapAllocScan_spec n bs h.hdr walkFuel H.linked H.addr_ne_zero H.length_lt
  rw [← H.head, hfind] at hscan
  simp only [heapAllocRetry, hscan, hgrow, Option.bind_eq_bind, Option.bind_some]
  rfl

/-- A block that was found is not at address 0. -/
theorem found_ne_zero (H : HeapRep h bs) {b : Block} (hfind : bs.find? (fits n) = some b) :
    add32 b.addr heapHdrSize ≠ 0 := by
  have hb := List.mem_of_find?_eq_some hfind
  have hbd := (H.tiled.mem_bounds b hb).2
  have hlt := H.committed_lt
  rw [add32_of_lt (by omega)]
  simp

theorem find?_fits_none : bs.find? (fits n) = none ↔ ∀ b ∈ bs, b.used = false → b.size < n := by
  rw [List.find?_eq_none]
  refine forall₂_congr fun b _ => ?_
  simp only [fits, Bool.and_eq_true, Bool.not_eq_true', decide_eq_true_eq, not_and, not_le]

/-! ### Pages -/

/-- The pages that can be added, up to `count`. -/
def availablePages (commit : ℕ → σ → Bool × σ) (limit : ℕ) : ℕ → ℕ → σ → ℕ
  | 0, _, _ => 0
  | count + 1, c, w =>
    if limit ≤ c then 0
    else if (commit c w).1 then availablePages commit limit count (c + pageSize) (commit c w).2 + 1
    else 0

theorem availablePages_le (limit count c : ℕ) (w : σ) : availablePages commit limit count c w ≤ count := by
  induction count generalizing c w with
  | zero => exact le_rfl
  | succ count ih =>
    rw [availablePages]
    split_ifs
    · omega
    · exact Nat.succ_le_succ (ih _ _)
    · omega

/-- The block list after `k` more pages: they enlarge a free last block, or make
a block of their own. -/
def Extends (k : ℕ) (bs bs' : List Block) : Prop :=
  (k = 0 ∧ bs' = bs) ∨
  (∃ pre b, bs = pre ++ [b] ∧ b.used = false ∧ bs' = pre ++ [{ b with size := b.size + pageSize * k }]) ∨
  (0 < k ∧ (∀ x ∈ bs.getLast?, x.used = true) ∧
    ∃ a, bs' = bs ++ [{ addr := a, size := pageSize * k - heapHdrSize, used := false }])

theorem extends_page (h : NoAdjFree bs) (a : ℕ) :
    Extends 1 bs (coalesced heapHdrSize (bs ++ [pageBlock a])) := by
  by_cases hlast : ∀ x ∈ bs.getLast?, x.used = true
  · refine Or.inr (Or.inr ⟨Nat.one_pos, hlast, a, ?_⟩)
    rw [coalesced_of_noAdjFree (noAdjFree_concat h hlast)]
    rfl
  · push Not at hlast
    obtain ⟨b, hb, hfree⟩ := hlast
    obtain ⟨pre, rfl⟩ := List.getLast?_eq_some_iff.mp hb
    have hfree : b.used = false := by simpa using hfree
    refine Or.inr (Or.inl ⟨pre, b, rfl, hfree, ?_⟩)
    rw [coalesced_concat h hfree rfl]
    rfl

theorem Extends.step {k : ℕ} {bs₁ bs₂ : List Block} (h : Extends 1 bs bs₁) (h' : Extends k bs₁ bs₂) :
    Extends (k + 1) bs bs₂ := by
  have hp : pageSize * (k + 1) = pageSize + pageSize * k := by rw [Nat.mul_succ, Nat.add_comm]
  rcases h with ⟨h0, -⟩ | ⟨pre, b, rfl, hfree, rfl⟩ | ⟨-, hlast, a, rfl⟩
  · omega
  · refine Or.inr (Or.inl ⟨pre, b, rfl, hfree, ?_⟩)
    rcases h' with ⟨rfl, rfl⟩ | ⟨pre', b', heq, -, rfl⟩ | ⟨-, hlast, -⟩
    · rfl
    · obtain ⟨rfl, hb⟩ := List.append_inj' heq rfl
      obtain rfl : _ = b' := List.cons.inj hb |>.1
      rw [hp]
      simp [Nat.add_assoc]
    · simp [hfree] at hlast
  · refine Or.inr (Or.inr ⟨Nat.succ_pos k, hlast, a, ?_⟩)
    rcases h' with ⟨rfl, rfl⟩ | ⟨pre', b', heq, -, rfl⟩ | ⟨-, hlast', -⟩
    · rfl
    · obtain ⟨rfl, hb⟩ := List.append_inj' heq rfl
      obtain rfl : _ = b' := List.cons.inj hb |>.1
      have hsize : pageSize * 1 - heapHdrSize + pageSize * k = pageSize * (k + 1) - heapHdrSize := by
        simp only [pageSize, heapHdrSize] at hp ⊢
        omega
      rw [hsize]
    · simp at hlast'

/-- **Growth, page by page.** -/
theorem heapGrowPagesNext_extends (count : ℕ) (H : HeapRep h bs) (w : σ) :
    ∃ h' w' bs', heapGrowPagesNext commit count h w =
        some (if availablePages commit h.limit count h.committed w = count then 1 else 0, h', w') ∧
      HeapRep h' bs' ∧ Extends (availablePages commit h.limit count h.committed w) bs bs' := by
  induction count generalizing h bs w with
  | zero => exact ⟨h, w, bs, rfl, H, Or.inl ⟨rfl, rfl⟩⟩
  | succ count ih =>
    obtain ⟨r, h₁, w₁, hrun, hres⟩ := heapGrowOnePage_spec commit H w
    rcases hres with ⟨rfl, rfl, hwhy⟩ | ⟨rfl, hc, hlt, hcom, H₁⟩
    · have hk : availablePages commit h₁.limit (count + 1) h₁.committed w = 0 := by
        rw [availablePages]
        rcases hwhy with ⟨hlim, -⟩ | hfail
        · rw [if_pos hlim]
        · split_ifs with h1 h2
          · rfl
          · rw [hfail] at h2
            simp at h2
          · rfl
      rw [hk]
      refine ⟨h₁, w₁, bs, ?_, H, Or.inl ⟨rfl, rfl⟩⟩
      simp [heapGrowPagesNext, hrun]
    · obtain ⟨h₂, w₂, bs₂, hrun₂, H₂, hext⟩ := ih H₁ w₁
      have hlimit : h₁.limit = h.limit := H₁.limit.trans H.limit.symm
      have hk : availablePages commit h.limit (count + 1) h.committed w =
          availablePages commit h₁.limit count h₁.committed w₁ + 1 := by
        rw [availablePages, if_neg (by omega), hc, if_pos rfl, hlimit, hcom]
      rw [hk]
      refine ⟨h₂, w₂, bs₂, ?_, H₂, (extends_page H.noAdj _).step hext⟩
      simp [heapGrowPagesNext, hrun, hrun₂]

/-! ### The invariant of a history -/

/-- With no free block and no page to add, nothing happens. -/
theorem heapAlloc_refused (H : HeapRep h bs) (hused : ∀ b ∈ bs, b.used = true)
    (hgrow : ¬CanGrow commit h w) (size : ℕ) : ∃ w', heapAlloc commit size h w = some (0, h, w') := by
  rw [heapAlloc]
  by_cases hs : size = 0
  · exact ⟨w, by rw [if_pos hs]⟩
  have hfind : bs.find? (fits (heapRound size)) = none :=
    find?_fits_none.mpr fun b hb hfree => by simp [hused b hb] at hfree
  have hpages : ∃ w', heapGrowPages commit (heapGrowCount (heapRound size)) h w = some (0, h, w') := by
    rw [heapGrowPages]
    cases heapGrowCount (heapRound size) with
    | zero => exact ⟨w, if_pos rfl⟩
    | succ count =>
      obtain ⟨r, h₁, w₁, hrun, ⟨rfl, rfl, -⟩ | ⟨-, hc, hlt, -⟩⟩ := heapGrowOnePage_spec commit H w
      · refine ⟨w₁, ?_⟩
        rw [if_neg (Nat.succ_ne_zero count)]
        simp [heapGrowPagesNext, hrun]
      · exact absurd ⟨hlt, by rw [hc]⟩ hgrow
  obtain ⟨w', hpages⟩ := hpages
  refine ⟨w', ?_⟩
  rw [if_neg hs, show walkFuel = 2 ^ 32 - 1 + 1 from rfl, heapAllocRetry_grow H hfind _ hpages, if_pos rfl]

/-- No block is free, in the words of the header memory. -/
theorem HeapRep.all_used (H : HeapRep h bs) (hn : ∀ a, h.OnList a → (h.hdr a).flag ≠ heapFlagFree) :
    ∀ b ∈ bs, b.used = true := by
  intro b hb
  by_contra hu
  exact hn b.addr (H.onList_iff.mpr ⟨b, hb, rfl⟩) ((H.header hb).2.1.mpr (by simpa using hu))

/-- **A fair request** keeps all blocks from being empty. -/
theorem FairRequest.pos {size r : ℕ} {h' : Heap} {w' : σ} {bs' : List Block} (H : HeapRep h bs)
    (hfair : FairRequest commit h w size) (hrun : heapAlloc commit size h w = some (r, h', w'))
    (hgrown : Grown (fun _ _ => True) (heapRound size) h bs h' w' bs') (hpos : ∀ b ∈ bs, 0 < b.size) :
    ∀ b ∈ bs', 0 < b.size := by
  have hsame : h' = h → ∀ b ∈ bs', 0 < b.size := by
    rintro rfl
    obtain rfl : bs' = bs := hgrown.rep.toHeapPre.unique H.toHeapPre
    exact hpos
  rcases hfair with hs | ⟨hn, hgrow⟩
  · by_cases h0 : size = 0
    · rw [heapAlloc, if_pos h0] at hrun
      simp only [Option.some.injEq, Prod.mk.injEq] at hrun
      exact hsame hrun.2.1.symm
    · have hround := le_heapRound hs
      exact hgrown.pos (by omega) hpos
  · obtain ⟨w₁, hrun₁⟩ := heapAlloc_refused H (H.all_used hn) hgrow size
    rw [hrun₁] at hrun
    simp only [Option.some.injEq, Prod.mk.injEq] at hrun
    exact hsame hrun.2.1.symm

/-- **The invariant of a history**; if all requests are fair no block is empty. -/
theorem heapHistory_live {A : Heap → σ → ℕ → Prop} {live : List (ℕ × ℕ)} (hr : HeapHistory commit A h live) :
    ∃ bs, HeapLive h live bs ∧
      ((∀ h w size, A h w size → FairRequest commit h w size) → ∀ b ∈ bs, 0 < b.size) := by
  induction hr with
  | @init hdr w w' r h hrun =>
    obtain ⟨r₁, h₁, w₁, bs₁, hrun₁, H, hpos⟩ := heapInit_live hdr w
    rw [hrun₁] at hrun
    obtain ⟨-, rfl, -⟩ : r₁ = r ∧ h₁ = h ∧ w₁ = w' := by simpa using hrun
    exact ⟨bs₁, H, fun _ => hpos⟩
  | @alloc h h' live size r w w' _ hA hrun ih =>
    obtain ⟨bs, H, hpos⟩ := ih
    obtain ⟨r₁, h₁, w₁, bs₁, hrun₁, g, hres⟩ := H.alloc size w
    rw [hrun₁] at hrun
    obtain ⟨rfl, rfl, rfl⟩ : r₁ = r ∧ h₁ = h' ∧ w₁ = w' := by simpa using hrun
    refine ⟨bs₁, ?_, fun hfair => FairRequest.pos H.rep (hfair h w size hA) hrun₁ g (hpos hfair)⟩
    rcases hres with ⟨rfl, H'⟩ | ⟨-, hr, b, hb, -, rfl, -, H'⟩
    · rw [if_pos rfl]
      exact H'
    · rw [if_neg hr, Nat.add_sub_cancel, (g.rep.header hb).1]
      exact H' b.size le_rfl
  | free _ hp hrun ih =>
    obtain ⟨bs, H, hpos⟩ := ih
    obtain ⟨h₁, bs₁, hrun₁, H₁, hpos₁⟩ := H.free hp
    rw [hrun₁] at hrun
    exact ⟨bs₁, Option.some.inj hrun ▸ H₁, fun hfair => hpos₁ (hpos hfair)⟩
  | freeNull _ hrun ih =>
    rw [heapFree, if_pos rfl] at hrun
    exact Option.some.inj hrun ▸ ih
  | @growPages h h' live count r w w' _ hrun ih =>
    obtain ⟨bs, H, hpos⟩ := ih
    obtain ⟨r₁, h₁, w₁, bs₁, hrun₁, H₁, hpos₁⟩ := H.growPages count w
    rw [hrun₁] at hrun
    obtain ⟨-, rfl, -⟩ : r₁ = r ∧ h₁ = h' ∧ w₁ = w' := by simpa using hrun
    exact ⟨bs₁, H₁, fun hfair => hpos₁ (hpos hfair)⟩
  | coalesce _ hrun ih =>
    obtain ⟨bs, H, hpos⟩ := ih
    obtain ⟨h₁, bs₁, hrun₁, H₁, hpos₁⟩ := H.coalesce
    rw [hrun₁] at hrun
    exact ⟨bs₁, Option.some.inj hrun ▸ H₁, fun hfair => hpos₁ (hpos hfair)⟩
  | write _ hp hw ih =>
    obtain ⟨bs, H, hpos⟩ := ih
    exact ⟨bs, H.write hp hw, hpos⟩

/-! ### What is handed out -/

/-- The block with payload `r` is used, lies in the heap and has the `size`
bytes that were asked for, and the heap is valid. -/
structure HandedOut (size r : ℕ) (h : Heap) : Prop where
  used : (h.hdr (r - heapHdrSize)).flag = heapFlagUsed
  base : kheapBase + heapHdrSize ≤ r
  stop : r + (h.hdr (r - heapHdrSize)).size ≤ h.committed
  size : size ≤ (h.hdr (r - heapHdrSize)).size
  valid : heapValidate h = some 1

/-- The size of a wrapped request. -/
theorem heapRound_wrapped {size : ℕ} (h1 : 2 ^ 32 - 8 < size) (h2 : size < 2 ^ 32) : heapRound size = 0 := by
  unfold heapRound add32
  omega

/-- With a free block, or a page to add, a wrapped request is served. -/
theorem heapAlloc_wrapped (H : HeapRep h bs) {size : ℕ} (h1 : 2 ^ 32 - 8 < size) (h2 : size < 2 ^ 32)
    (hserve : (∃ b ∈ bs, b.used = false) ∨ CanGrow commit h w) :
    ∃ r h' w', heapAlloc commit size h w = some (r, h', w') ∧ r ≠ 0 := by
  have hfits : ∀ {h : Heap} {bs : List Block} {fuel : ℕ} (w : σ), HeapRep h bs → (∃ b ∈ bs, b.used = false) →
      ∃ r h' w', heapAllocRetry commit 0 (fuel + 1) h w = some (r, h', w') ∧ r ≠ 0 := by
    rintro h bs fuel w H ⟨b, hb, hfree⟩
    cases hfind : bs.find? (fits 0) with
    | some d => exact ⟨_, _, _, heapAllocRetry_found H hfind fuel w, found_ne_zero H hfind⟩
    | none => exact absurd (find?_fits_none.mp hfind b hb hfree) (Nat.not_lt_zero _)
  rw [heapAlloc, if_neg (by omega), heapRound_wrapped h1 h2]
  cases hfind : bs.find? (fits 0) with
  | some d => exact ⟨_, _, _, heapAllocRetry_found H hfind (2 ^ 32 - 1) w, found_ne_zero H hfind⟩
  | none =>
    have hnone : ¬∃ b ∈ bs, b.used = false := by
      rintro ⟨b, hb, hfree⟩
      exact absurd (find?_fits_none.mp hfind b hb hfree) (Nat.not_lt_zero _)
    obtain ⟨hlt, hc⟩ := hserve.resolve_left hnone
    obtain ⟨r, h₁, w₁, hrun, ⟨rfl, rfl, hwhy⟩ | ⟨rfl, -, -, -, H₁⟩⟩ := heapGrowOnePage_spec commit H w
    · rcases hwhy with ⟨hlim, -⟩ | hfail
      · omega
      · rw [hfail] at hc
        simp at hc
    · have hgrow : heapGrowPages commit (heapGrowCount 0) h w = some (1, h₁, w₁) := by
        rw [show heapGrowCount 0 = 1 from rfl, heapGrowPages, if_neg Nat.one_ne_zero]
        simp [heapGrowPagesNext, hrun]
      have hfree : ∃ b ∈ coalesced heapHdrSize (bs ++ [pageBlock h.committed]), b.used = false := by
        rcases extends_page H.noAdj h.committed with ⟨h0, -⟩ | ⟨pre, b, -, hb, heq⟩ | ⟨-, -, a, heq⟩
        · omega
        · rw [heq]
          exact ⟨{ b with size := b.size + pageSize * 1 }, by simp, hb⟩
        · rw [heq]
          exact ⟨{ addr := a, size := pageSize * 1 - heapHdrSize, used := false }, by simp, rfl⟩
      rw [show walkFuel = 2 ^ 32 - 2 + 1 + 1 from rfl, heapAllocRetry_grow H hfind _ hgrow,
        if_neg Nat.one_ne_zero]
      exact hfits w₁ H₁ hfree

/-- **`heap_alloc` hands out what was asked**, in every history of fair requests
and if and only if the next request is fair. -/
theorem alloc_hands_out {live : List (ℕ × ℕ)} (hr : HeapHistory commit (FairRequest commit) h live)
    {size : ℕ} (hsize : size < 2 ^ 32) (w : σ) :
    ∃ r h' w', heapAlloc commit size h w = some (r, h', w') ∧
      ((r ≠ 0 → HandedOut size r h') ↔ FairRequest commit h w size) := by
  obtain ⟨bs, H, hpos⟩ := heapHistory_live hr
  have hpos := hpos fun _ _ _ hfair => hfair
  obtain ⟨r, h', w', bs', hrun, g, hres⟩ := H.alloc size w
  refine ⟨r, h', w', hrun, fun hout => ?_, fun hfair hne => ?_⟩
  · by_contra hunfair
    obtain ⟨hs, hn⟩ := not_or.mp hunfair
    have hserve : (∃ b ∈ bs, b.used = false) ∨ CanGrow commit h w := by
      by_contra hno
      push Not at hno
      refine hn ⟨fun a ha hflag => ?_, hno.2⟩
      obtain ⟨b, hb, rfl⟩ := H.rep.onList_iff.mp ha
      exact hno.1 b hb ((H.rep.header hb).2.1.mp hflag)
    obtain ⟨r₁, h₁, w₁, hrun₁, hne⟩ := heapAlloc_wrapped H.rep (by omega) hsize hserve
    rw [hrun₁] at hrun
    obtain ⟨rfl, rfl, -⟩ : r₁ = r ∧ h₁ = h' ∧ w₁ = w' := by simpa using hrun
    -- no block of the heap is that large
    have hbad := hout hne
    have h1 := hbad.size
    have h2 := hbad.stop
    have h3 := g.rep.le_limit
    have h4 := g.rep.limit
    simp only [kheapBase, kheapMaxSize] at h4
    omega
  · rcases hres with ⟨h0, -⟩ | ⟨hs0, -, b, hb, hused, rfl, hsz, -⟩
    · exact absurd h0 hne
    have hround : size ≤ heapRound size := by
      rcases hfair with hs | ⟨hn, hgrow⟩
      · exact le_heapRound hs
      · obtain ⟨w₁, hrun₁⟩ := heapAlloc_refused H.rep (H.rep.all_used hn) hgrow size
        rw [hrun₁] at hrun
        simp at hrun
    have hbounds := g.rep.tiled.mem_bounds b hb
    have hheader := g.rep.header hb
    refine ⟨?_, by omega, ?_, ?_, heapValidate_eq_one g.rep (FairRequest.pos H.rep hfair hrun g hpos)⟩
    · rw [Nat.add_sub_cancel]
      exact hheader.2.2.mpr hused
    · rw [Nat.add_sub_cancel, hheader.1]
      omega
    · rw [Nat.add_sub_cancel, hheader.1]
      omega

/-! ### What is refused -/

/-- The last block of the list is the one whose link is null. -/
theorem HeapRep.last_iff (H : HeapRep h bs) {b : Block} (hb : b ∈ bs) :
    (h.hdr b.addr).next = 0 ↔ ∃ pre, bs = pre ++ [b] := by
  constructor
  · intro hnext
    obtain ⟨pre, post, rfl⟩ := List.append_of_mem hb
    have hlb := (Linked.suffix H.linked).1
    rw [hlb] at hnext
    cases post with
    | nil => exact ⟨pre, rfl⟩
    | cons d post => exact absurd hnext (H.addr_ne_zero d (by simp))
  · rintro ⟨pre, rfl⟩
    rw [(Linked.suffix H.linked).1]
    rfl

/-- Pages that are all there make a block that is large enough. -/
theorem extends_fits {bs' : List Block} (hn : n ≤ kheapMaxSize) (hext : Extends (heapGrowCount n) bs bs') :
    ∃ b ∈ bs', b.used = false ∧ n ≤ b.size := by
  simp only [kheapMaxSize] at hn
  have hcount : n + heapHdrSize ≤ pageSize * heapGrowCount n := by
    simp only [heapGrowCount, heapHdrSize, pageSize]
    rw [add32_of_lt (show n + 16 < 2 ^ 32 by omega), add32_of_lt (by omega)]
    omega
  rcases hext with ⟨h0, -⟩ | ⟨pre, b, -, hfree, rfl⟩ | ⟨-, -, a, rfl⟩
  · rw [h0] at hcount
    simp at hcount
  · exact ⟨{ b with size := b.size + pageSize * heapGrowCount n }, by simp, hfree,
      show n ≤ b.size + pageSize * heapGrowCount n by omega⟩
  · exact ⟨{ addr := a, size := pageSize * heapGrowCount n - heapHdrSize, used := false }, by simp, rfl,
      show n ≤ pageSize * heapGrowCount n - heapHdrSize by omega⟩

/-- Where nothing fitted and too few pages came, something fits only in the last
block, if that was free. -/
theorem extends_stranded {k : ℕ} {bs' : List Block} (hn : n ≤ kheapMaxSize) (hk : k < heapGrowCount n)
    (hnone : ∀ b ∈ bs, b.used = false → b.size < n) (hext : Extends k bs bs') :
    (∀ b ∈ bs', b.used = false → b.size < n) ↔
      ∀ pre b, bs = pre ++ [b] → b.used = false → b.size + pageSize * k < n := by
  simp only [kheapMaxSize] at hn
  have hcount : pageSize * k < n + heapHdrSize := by
    simp only [heapGrowCount, heapHdrSize, pageSize] at hk ⊢
    rw [add32_of_lt (show n + 16 < 2 ^ 32 by omega), add32_of_lt (by omega)] at hk
    omega
  rcases hext with ⟨rfl, rfl⟩ | ⟨pre, b, rfl, hfree, rfl⟩ | ⟨hpos, hlast, a, rfl⟩
  · refine ⟨fun _ pre b hbs hfree => ?_, fun _ => hnone⟩
    rw [Nat.mul_zero, Nat.add_zero]
    exact hnone b (by simp [hbs]) hfree
  · constructor
    · intro hall pre' b' heq hfree'
      obtain ⟨-, hb⟩ := List.append_inj' heq rfl
      obtain rfl : b = b' := (List.cons.inj hb).1
      exact hall { b with size := b.size + pageSize * k } (by simp) hfree
    · intro hlast d hd hdfree
      rcases List.mem_append.mp hd with hd | hd
      · exact hnone d (by simp [hd]) hdfree
      · rw [List.mem_singleton.mp hd]
        exact hlast pre b rfl hfree
  · constructor
    · rintro - pre b rfl hfree
      simp [hfree] at hlast
    · intro _ d hd hdfree
      rcases List.mem_append.mp hd with hd | hd
      · exact hnone d hd hdfree
      · rw [List.mem_singleton.mp hd]
        show pageSize * k - heapHdrSize < n
        simp only [heapHdrSize, pageSize] at hcount ⊢
        omega

/-- Blocks of the list, in the words of the header memory. -/
theorem HeapRep.forall_free_iff (H : HeapRep h bs) {P : ℕ → Prop} :
    (∀ a, h.OnList a → (h.hdr a).flag = heapFlagFree → P (h.hdr a).size) ↔
      ∀ b ∈ bs, b.used = false → P b.size := by
  constructor
  · intro hall b hb hfree
    have hheader := H.header hb
    have hP := hall b.addr (H.onList_iff.mpr ⟨b, hb, rfl⟩) (hheader.2.1.mpr hfree)
    rwa [hheader.1] at hP
  · intro hall a ha hflag
    obtain ⟨b, hb, rfl⟩ := H.onList_iff.mp ha
    have hheader := H.header hb
    rw [hheader.1]
    exact hall b hb (hheader.2.1.mp hflag)

theorem HeapRep.last_free_iff (H : HeapRep h bs) {P : ℕ → Prop} :
    (∀ a, h.OnList a → (h.hdr a).next = 0 → (h.hdr a).flag = heapFlagFree → P (h.hdr a).size) ↔
      ∀ pre b, bs = pre ++ [b] → b.used = false → P b.size := by
  constructor
  · intro hall pre b hbs hfree
    have hb : b ∈ bs := by simp [hbs]
    have hheader := H.header hb
    have hP := hall b.addr (H.onList_iff.mpr ⟨b, hb, rfl⟩) ((H.last_iff hb).mpr ⟨pre, hbs⟩)
      (hheader.2.1.mpr hfree)
    rwa [hheader.1] at hP
  · intro hall a ha hnext hflag
    obtain ⟨b, hb, rfl⟩ := H.onList_iff.mp ha
    obtain ⟨pre, hbs⟩ := (H.last_iff hb).mp hnext
    have hheader := H.header hb
    rw [hheader.1]
    exact hall pre b hbs (hheader.2.1.mp hflag)

theorem heapRound_le {size : ℕ} (hs : size ≤ kheapMaxSize) : heapRound size ≤ kheapMaxSize := by
  simp only [kheapMaxSize] at hs ⊢
  rw [heapRound, add32_of_lt (by omega)]
  omega

/-- **`heap_alloc` fails only when nothing fits**, after at most one round of
growth: in every history, and if and only if a block fitted at once, or all
pages that were needed came, or those that came did not make a free last block
large enough. -/
theorem alloc_complete {A : Heap → σ → ℕ → Prop} {live : List (ℕ × ℕ)} (hr : HeapHistory commit A h live)
    {size : ℕ} (h1 : 1 ≤ size) (hs : size ≤ kheapMaxSize) (w : σ) :
    ∃ r h' w', heapAlloc commit size h w = some (r, h', w') ∧
      heapAllocRetry commit (heapRound size) 2 h w = some (r, h', w') ∧
      ((r = 0 → ∀ a, h'.OnList a → (h'.hdr a).flag = heapFlagFree → (h'.hdr a).size < heapRound size) ↔
        (∃ a, h.OnList a ∧ (h.hdr a).flag = heapFlagFree ∧ heapRound size ≤ (h.hdr a).size) ∨
        availablePages commit h.limit (heapGrowCount (heapRound size)) h.committed w =
          heapGrowCount (heapRound size) ∨
        ∀ a, h.OnList a → (h.hdr a).next = 0 → (h.hdr a).flag = heapFlagFree → (h.hdr a).size +
          pageSize * availablePages commit h.limit (heapGrowCount (heapRound size)) h.committed w <
            heapRound size) := by
  obtain ⟨bs, H, -⟩ := heapHistory_live hr
  have H := H.rep
  have hn := heapRound_le hs
  have halloc : heapAlloc commit size h w = heapAllocRetry commit (heapRound size) (2 ^ 32 - 2 + 1 + 1) h w := by
    rw [heapAlloc, if_neg (by omega)]
    rfl
  have hcount : heapGrowCount (heapRound size) ≠ 0 := by
    have hn' := hn
    simp only [kheapMaxSize] at hn'
    simp only [heapGrowCount, heapHdrSize, pageSize]
    rw [add32_of_lt (show heapRound size + 16 < 2 ^ 32 by omega), add32_of_lt (by omega)]
    omega
  rw [halloc]
  cases hfind : bs.find? (fits (heapRound size)) with
  | some b =>
    -- a block fits at once
    refine ⟨_, _, _, heapAllocRetry_found H hfind _ w, heapAllocRetry_found H hfind 1 w, fun _ => Or.inl ?_,
      fun _ h0 => absurd h0 (found_ne_zero H hfind)⟩
    have hfits := List.find?_some hfind
    have hb := List.mem_of_find?_eq_some hfind
    simp only [fits, Bool.and_eq_true, Bool.not_eq_true', decide_eq_true_eq] at hfits
    have hheader := H.header hb
    exact ⟨b.addr, H.onList_iff.mpr ⟨b, hb, rfl⟩, hheader.2.1.mpr hfits.1, by rw [hheader.1]; exact hfits.2⟩
  | none =>
    have hnone := find?_fits_none.mp hfind
    have hfirst : ¬∃ a, h.OnList a ∧ (h.hdr a).flag = heapFlagFree ∧ heapRound size ≤ (h.hdr a).size := by
      rintro ⟨a, ha, hflag, hle⟩
      have hlt := H.forall_free_iff (P := fun m => m < heapRound size) |>.mpr hnone a ha hflag
      omega
    obtain ⟨h₁, w₁, bs₁, hrun, H₁, hext⟩ := heapGrowPagesNext_extends
      (heapGrowCount (heapRound size)) H w
    by_cases hk : availablePages commit h.limit (heapGrowCount (heapRound size)) h.committed w =
        heapGrowCount (heapRound size)
    · -- all pages came, and the second scan finds them
      have hgrow : heapGrowPages commit (heapGrowCount (heapRound size)) h w = some (1, h₁, w₁) := by
        rw [heapGrowPages, if_neg hcount, hrun, if_pos hk]
      rw [hk] at hext
      obtain ⟨b, hb, hfree, hle⟩ := extends_fits hn hext
      cases hfind₁ : bs₁.find? (fits (heapRound size)) with
      | none =>
        have hlt := find?_fits_none.mp hfind₁ b hb hfree
        omega
      | some d =>
        have hsecond : ∀ fuel, heapAllocRetry commit (heapRound size) (fuel + 1 + 1) h w =
            some (add32 d.addr heapHdrSize,
              { h₁ with hdr := heapTakeBlock h₁.hdr d.addr (heapRound size) }, w₁) := by
          intro fuel
          rw [heapAllocRetry_grow H hfind _ hgrow, if_neg Nat.one_ne_zero]
          exact heapAllocRetry_found H₁ hfind₁ fuel w₁
        exact ⟨_, _, _, hsecond _, hsecond 0, fun _ => Or.inr (Or.inl hk),
          fun _ h0 => absurd h0 (found_ne_zero H₁ hfind₁)⟩
    · -- some pages came, and the list is not scanned again
      have hgrow : heapGrowPages commit (heapGrowCount (heapRound size)) h w = some (0, h₁, w₁) := by
        rw [heapGrowPages, if_neg hcount, hrun, if_neg hk]
      have hlt := Nat.lt_of_le_of_ne (availablePages_le h.limit
        (heapGrowCount (heapRound size)) h.committed w) hk
      refine ⟨0, h₁, w₁, ?_, ?_, ?_⟩
      · rw [heapAllocRetry_grow H hfind _ hgrow, if_pos rfl]
      · rw [heapAllocRetry_grow H hfind _ hgrow, if_pos rfl]
      · have hstranded := extends_stranded hn hlt hnone hext
        have hleft := H₁.forall_free_iff (P := fun m => m < heapRound size)
        have hright := H.last_free_iff (P := fun m => m + pageSize * availablePages commit h.limit
          (heapGrowCount (heapRound size)) h.committed w < heapRound size)
        constructor
        · intro hall
          exact Or.inr (Or.inr (hright.mpr (hstranded.mp (hleft.mp (hall rfl)))))
        · intro hcases _
          exact hleft.mpr (hstranded.mpr (hright.mp ((hcases.resolve_left hfirst).resolve_left hk)))

end Requests

/-! ### A heap of one page -/

/-- A memory with `w` pages left. -/
def countedPages (_ : ℕ) (w : ℕ) : Bool × ℕ := if w = 0 then (false, 0) else (true, w - 1)

theorem firstPage_init (w : ℕ) :
    heapInit countedPages (fun _ => ⟨0, 0, 0, 0⟩) (w + 1) = some (1, firstPage, w) := by
  obtain ⟨n, hn⟩ : ∃ n, walkFuel = n + 1 := ⟨2 ^ 32 - 1, rfl⟩
  simp [heapInit, heapGrowOnePage, countedPages, heapLinkTail, heapCoalesce, hn, heapCoalesceLoop, firstPage,
    heapPageHeader, add32, kheapBase, kheapMaxSize, pageSize, heapHdrSize]

/-- **A request that wraps** gets an empty block, and the heap is no longer
valid. -/
theorem alloc_wraps :
    HeapHistory countedPages (FairRequest countedPages) firstPage [] ∧
      ∃ h', heapAlloc countedPages 0xFFFFFFFF firstPage 0 = some (kheapBase + 16, h', 0) ∧
        (h'.hdr kheapBase).size = 0 ∧ heapValidate h' = some 0 ∧ ¬HandedOut 0xFFFFFFFF (kheapBase + 16) h' := by
  have hrun : (heapAlloc countedPages 0xFFFFFFFF firstPage 0).map (fun x =>
      (x.1, x.2.2, (x.2.1.hdr kheapBase).size, heapValidate x.2.1)) =
      some (kheapBase + 16, 0, 0, some 0) := by
    decide +kernel
  obtain ⟨⟨r, h', w⟩, hx, hr⟩ := Option.map_eq_some_iff.mp hrun
  simp only [Prod.mk.injEq] at hr
  obtain ⟨rfl, rfl, hsize, hvalid⟩ := hr
  refine ⟨.init (firstPage_init 0), h', hx, hsize, hvalid, fun hout => ?_⟩
  have hbad := hout.valid
  rw [hvalid] at hbad
  simp at hbad

/-- The same heap and a request of 24 bytes. -/
theorem alloc_hands_out_firstPage :
    ∃ r h' w', heapAlloc countedPages 24 firstPage 0 = some (r, h', w') ∧
      (r ≠ 0 → HandedOut 24 r h') := by
  obtain ⟨r, h', w', hrun, hiff⟩ := alloc_hands_out (h := firstPage)
    (.init (firstPage_init 0)) (show 24 < 2 ^ 32 by decide) 0
  exact ⟨r, h', w', hrun, hiff.mpr (Or.inl (by decide))⟩

/-- **A request that fails although a block fits**: of two pages that are needed
for 5000 bytes one comes, which makes the free block 8176 bytes long. -/
theorem alloc_stranded :
    HeapHistory countedPages (FairRequest countedPages) firstPage [] ∧
      ∃ h', heapAlloc countedPages 5000 firstPage 1 = some (0, h', 0) ∧
        h'.OnList kheapBase ∧ (h'.hdr kheapBase).flag = heapFlagFree ∧ (h'.hdr kheapBase).size = 8176 ∧
        heapRound 5000 ≤ 8176 := by
  have hrun : (heapAlloc countedPages 5000 firstPage 1).map (fun x =>
      (x.1, x.2.2, x.2.1.head, (x.2.1.hdr kheapBase).flag, (x.2.1.hdr kheapBase).size)) =
      some (0, 0, kheapBase, heapFlagFree, 8176) := by
    decide +kernel
  obtain ⟨⟨r, h', w⟩, hx, hr⟩ := Option.map_eq_some_iff.mp hrun
  simp only [Prod.mk.injEq] at hr
  obtain ⟨rfl, rfl, hhead, hflag, hsize⟩ := hr
  refine ⟨.init (firstPage_init 1), h', hx, ?_, hflag, hsize, by decide⟩
  rw [Heap.OnList, hhead]
  exact .head (by decide)

/-- The same heap, with enough pages. -/
theorem alloc_complete_firstPage :
    ∃ r h' w', heapAlloc countedPages 5000 firstPage 2 = some (r, h', w') ∧
      (r = 0 → ∀ a, h'.OnList a → (h'.hdr a).flag = heapFlagFree → (h'.hdr a).size < heapRound 5000) := by
  obtain ⟨r, h', w', hrun, -, hiff⟩ := alloc_complete (h := firstPage)
    (A := FairRequest countedPages) (.init (firstPage_init 2)) (show 1 ≤ 5000 by decide) (by decide) 2
  exact ⟨r, h', w', hrun, hiff.mpr (Or.inr (Or.inl (by decide +kernel)))⟩

end VirtualKernel
