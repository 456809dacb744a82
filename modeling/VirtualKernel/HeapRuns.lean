/-
Whole runs of the kernel heap.

`HeapReach commit h live` is a run that starts with `heap_init` and goes on
with allocations, frees of live pointers, growth, coalescing and writes of the
clients into their own payloads; `live` lists the payload pointers handed out
and not yet freed, each with the requested size.  A page may be refused at any
point, for any reason: `commit` is arbitrary, and so is the state it is
started in at each operation.

`heapReach_inv` carries the representation invariant along a run, and
`heapReach_wellFormed` reads it off the header memory.
-/
import VirtualKernel.HeapAlloc

namespace VirtualKernel

open Lib

section Reach

variable {σ : Type} (commit : ℕ → σ → Bool × σ)

/-- The heap states of a run, with the live allocations. -/
inductive HeapReach : Heap → List (ℕ × ℕ) → Prop
  | init {hdr : ℕ → Header} {w w' : σ} {r : ℕ} {h : Heap} :
      heapInit commit hdr w = some (r, h, w') → HeapReach h []
  | alloc {h h' : Heap} {live : List (ℕ × ℕ)} {size r : ℕ} {w w' : σ} :
      HeapReach h live → 1 ≤ size → size ≤ kheapMaxSize →
      heapAlloc commit size h w = some (r, h', w') →
      HeapReach h' (if r = 0 then live else (r, size) :: live)
  | free {h h' : Heap} {live : List (ℕ × ℕ)} {p n : ℕ} :
      HeapReach h live → (p, n) ∈ live → heapFree p h = some h' → HeapReach h' (live.erase (p, n))
  | freeNull {h h' : Heap} {live : List (ℕ × ℕ)} :
      HeapReach h live → heapFree 0 h = some h' → HeapReach h' live
  | growPages {h h' : Heap} {live : List (ℕ × ℕ)} {count r : ℕ} {w w' : σ} :
      HeapReach h live → heapGrowPages commit count h w = some (r, h', w') → HeapReach h' live
  | coalesce {h h' : Heap} {live : List (ℕ × ℕ)} :
      HeapReach h live → heapCoalesce h = some h' → HeapReach h' live
  -- a client writes into the bytes it asked for: header words inside them may change
  | write {h : Heap} {live : List (ℕ × ℕ)} {p n : ℕ} {hdr : ℕ → Header} :
      HeapReach h live → (p, n) ∈ live →
      (∀ a, a + heapHdrSize ≤ p ∨ p + n ≤ a → hdr a = h.hdr a) →
      HeapReach { h with hdr := hdr } live

end Reach

/-! ### The invariant of a run -/

/-- The used blocks `us` are the live allocations, each large enough. -/
structure LiveMatch (us : List Block) (live : List (ℕ × ℕ)) : Prop where
  perm : (us.map fun b => b.addr + heapHdrSize).Perm (live.map Prod.fst)
  size : ∀ b ∈ us, ∀ x ∈ live, b.addr + heapHdrSize = x.1 → x.2 ≤ b.size

/-- The representation and the live allocations. -/
structure HeapLive (h : Heap) (live : List (ℕ × ℕ)) (bs : List Block) : Prop where
  rep : HeapRep h bs
  live : LiveMatch (bs.filter Block.used) live

/-- The invariant of a run, with its block list. -/
structure HeapInv (h : Heap) (live : List (ℕ × ℕ)) (bs : List Block) : Prop where
  rep : HeapRep h bs
  pos : ∀ b ∈ bs, 0 < b.size
  live : LiveMatch (bs.filter Block.used) live

theorem LiveMatch.exists_block {us : List Block} {live : List (ℕ × ℕ)} (h : LiveMatch us live)
    {p n : ℕ} (hp : (p, n) ∈ live) : ∃ b ∈ us, b.addr + heapHdrSize = p ∧ n ≤ b.size := by
  have hmem : p ∈ us.map fun b => b.addr + heapHdrSize :=
    h.perm.mem_iff.mpr (List.mem_map_of_mem hp)
  obtain ⟨b, hb, rfl⟩ := List.mem_map.mp hmem
  exact ⟨b, hb, rfl, h.size b hb _ hp rfl⟩

/-- A new used block at a fresh payload pointer. -/
theorem LiveMatch.insert {pre post : List Block} {b : Block} {live : List (ℕ × ℕ)} {n : ℕ}
    (h : LiveMatch (pre ++ post) live) (hn : n ≤ b.size)
    (hfresh : ∀ d ∈ pre ++ post, d.addr ≠ b.addr) :
    LiveMatch (pre ++ b :: post) ((b.addr + heapHdrSize, n) :: live) where
  perm := (List.perm_middle.map _).trans (h.perm.cons _)
  size := by
    intro d hd x hx hdx
    rcases List.mem_cons.mp (List.perm_middle.mem_iff.mp hd) with rfl | hd' <;>
      rcases List.mem_cons.mp hx with rfl | hx'
    · exact hn
    · -- the pointer of a live allocation belongs to an older block
      obtain ⟨c, hc, hcx, -⟩ := h.exists_block (p := x.1) (n := x.2) hx'
      exact absurd (by omega) (hfresh c hc)
    · exact absurd (by simpa using hdx) (hfresh d hd')
    · exact h.size d hd' x hx' hdx

/-- One used block less. -/
theorem LiveMatch.erase {pre post : List Block} {b : Block} {live : List (ℕ × ℕ)} {n : ℕ}
    (h : LiveMatch (pre ++ b :: post) live) (hmem : (b.addr + heapHdrSize, n) ∈ live) :
    LiveMatch (pre ++ post) (live.erase (b.addr + heapHdrSize, n)) where
  perm := by
    have h1 : ((b :: (pre ++ post)).map fun b => b.addr + heapHdrSize).Perm (live.map Prod.fst) :=
      (List.perm_middle.map _).symm.trans h.perm
    have h2 := (List.perm_cons_erase hmem).map Prod.fst
    exact (h1.trans h2).cons_inv
  size := by
    intro d hd x hx hdx
    exact h.size d (List.perm_middle.mem_iff.mpr (List.mem_cons_of_mem _ hd)) x
      (List.mem_of_mem_erase hx) hdx

section Run

variable {σ : Type} {commit : ℕ → σ → Bool × σ} {h : Heap} {live : List (ℕ × ℕ)} {bs : List Block}

/-- The trivial invariant of the memory below the heap. -/
theorem commitInv_true : CommitInv commit fun _ _ => True := ⟨fun _ _ _ _ _ _ _ _ => trivial,
  fun _ _ _ _ _ _ _ _ => trivial⟩

/-- A request is rounded up, as long as it does not wrap. -/
theorem le_heapRound {size : ℕ} (hs : size ≤ 2 ^ 32 - 8) : size ≤ heapRound size := by
  rw [heapRound, add32_of_lt (by omega)]
  omega

/-- An allocation hands out nothing, or one block; the client gets `n` bytes of
it, as many as it has at most. -/
theorem HeapLive.alloc (H : HeapLive h live bs) (size : ℕ) (w : σ) :
    ∃ r h' w' bs', heapAlloc commit size h w = some (r, h', w') ∧
      Grown (fun _ _ => True) (heapRound size) h bs h' w' bs' ∧
      (r = 0 ∧ HeapLive h' live bs' ∨ size ≠ 0 ∧ r ≠ 0 ∧ ∃ b ∈ bs', b.used = true ∧
        b.addr + heapHdrSize = r ∧ heapRound size ≤ b.size ∧
        ∀ n ≤ b.size, HeapLive h' ((r, n) :: live) bs') := by
  obtain ⟨r, h', w', bs', hrun, g, hres⟩ :=
    heapAlloc_spec (commitInv_true) size H.rep (w := w) trivial
  refine ⟨r, h', w', bs', hrun, g, ?_⟩
  rcases hres with ⟨rfl, hu⟩ | ⟨hs, pre, post, b, hbs, hbs', rfl, hsz⟩
  · exact Or.inl ⟨rfl, g.rep, hu ▸ H.live⟩
  · have hb : b ∈ bs'.filter Block.used := by
      rw [hbs']
      simp
    obtain ⟨hmem, hused⟩ := List.mem_filter.mp hb
    refine Or.inr ⟨hs, by simp, b, hmem, hused, rfl, hsz, fun n hn => ⟨g.rep, ?_⟩⟩
    rw [hbs']
    have hlive := H.live
    rw [hbs] at hlive
    refine hlive.insert hn ?_
    have hnd := g.rep.used_nodup
    rw [hbs', (List.perm_middle.map Block.addr).nodup_iff, List.map_cons, List.nodup_cons] at hnd
    exact fun d hd he => hnd.1 (he ▸ List.mem_map_of_mem hd)

theorem HeapInv.alloc (H : HeapInv h live bs) {size : ℕ} (h1 : 1 ≤ size) (hs : size ≤ kheapMaxSize)
    (w : σ) : ∃ r h' w' bs', heapAlloc commit size h w = some (r, h', w') ∧
      HeapInv h' (if r = 0 then live else (r, size) :: live) bs' := by
  obtain ⟨r, h', w', bs', hrun, g, hres⟩ := HeapLive.alloc ⟨H.rep, H.live⟩ size w
  simp only [kheapMaxSize] at hs
  have hround := le_heapRound (show size ≤ 2 ^ 32 - 8 by omega)
  have hpos := g.pos (by omega) H.pos
  refine ⟨r, h', w', bs', hrun, ?_⟩
  rcases hres with ⟨rfl, H'⟩ | ⟨-, hr, b, -, -, -, hsz, H'⟩
  · rw [if_pos rfl]
    exact ⟨H'.rep, hpos, H'.live⟩
  · rw [if_neg hr]
    have H'' := H' size (by omega)
    exact ⟨H''.rep, hpos, H''.live⟩

theorem HeapLive.free (H : HeapLive h live bs) {p n : ℕ} (hp : (p, n) ∈ live) :
    ∃ h' bs', heapFree p h = some h' ∧ HeapLive h' (live.erase (p, n)) bs' ∧
      ((∀ b ∈ bs, 0 < b.size) → ∀ b ∈ bs', 0 < b.size) := by
  obtain ⟨b, hb, rfl, -⟩ := H.live.exists_block hp
  obtain ⟨hb, hu⟩ := List.mem_filter.mp hb
  obtain ⟨h', bs', hrun, H', ⟨pre, post, d, hbs, hbs', hd⟩, -, hpos⟩ := heapFree_spec H.rep hb hu
  refine ⟨h', bs', hrun, ⟨H', ?_⟩, hpos⟩
  have hlive := H.live
  rw [hbs] at hlive
  rw [hbs', ← hd]
  rw [← hd] at hp
  exact hlive.erase hp

theorem HeapLive.growPages (H : HeapLive h live bs) (count : ℕ) (w : σ) :
    ∃ r h' w' bs', heapGrowPages commit count h w = some (r, h', w') ∧ HeapLive h' live bs' ∧
      ((∀ b ∈ bs, 0 < b.size) → ∀ b ∈ bs', 0 < b.size) := by
  obtain ⟨r, h', w', bs', hrun, g, hu, -⟩ :=
    heapGrowPages_grown (commitInv_true) 1 count H.rep (w := w) trivial
  exact ⟨r, h', w', bs', hrun, ⟨g.rep, hu ▸ H.live⟩, g.pos Nat.one_pos⟩

theorem HeapLive.coalesce (H : HeapLive h live bs) :
    ∃ h' bs', heapCoalesce h = some h' ∧ HeapLive h' live bs' ∧
      ((∀ b ∈ bs, 0 < b.size) → ∀ b ∈ bs', 0 < b.size) := by
  obtain ⟨h', hrun, H', -⟩ := H.rep.toHeapPre.heapCoalesce_spec
  refine ⟨h', _, hrun, ⟨H', ?_⟩, forall_size_coalesced (P := fun n => 0 < n) fun x y hx _ => by omega⟩
  rw [filter_used_coalesced]
  exact H.live

/-- A write into a live payload touches no header. -/
theorem HeapLive.write (H : HeapLive h live bs) {p n : ℕ} (hp : (p, n) ∈ live) {hdr : ℕ → Header}
    (hw : ∀ a, a + heapHdrSize ≤ p ∨ p + n ≤ a → hdr a = h.hdr a) :
    HeapLive { h with hdr := hdr } live bs := by
  obtain ⟨b, hb, rfl, hn⟩ := H.live.exists_block hp
  have hb := (List.mem_filter.mp hb).1
  have hlinked : Linked hdr bs := by
    refine Linked.congr (fun x hx => hw x.addr ?_) H.rep.linked
    by_cases hxb : x = b
    · exact Or.inl (by rw [hxb])
    · rcases H.rep.tiled.disjoint hx hb hxb with h1 | h1 <;> omega
  exact ⟨{ H.rep with linked := hlinked }, H.live⟩

/-- The heap behind `heap_init`. -/
theorem heapInit_live (hdr : ℕ → Header) (w : σ) :
    ∃ r h w' bs, heapInit commit hdr w = some (r, h, w') ∧ HeapLive h [] bs ∧ ∀ b ∈ bs, 0 < b.size := by
  obtain ⟨r, h, w', bs, hrun, g, hu, -⟩ := heapGrowOnePage_grown
    (commitInv_true) 1 (heapRep_empty hdr) (w := w) trivial
  refine ⟨r, h, w', bs, hrun, ⟨g.rep, ?_⟩, g.pos Nat.one_pos (by simp)⟩
  rw [hu]
  exact ⟨by simp, by simp⟩

theorem HeapInv.toLive (H : HeapInv h live bs) : HeapLive h live bs := ⟨H.rep, H.live⟩

theorem HeapLive.inv (H : HeapLive h live bs) (hpos : ∀ b ∈ bs, 0 < b.size) : HeapInv h live bs :=
  ⟨H.rep, hpos, H.live⟩

theorem HeapInv.free (H : HeapInv h live bs) {p n : ℕ} (hp : (p, n) ∈ live) :
    ∃ h' bs', heapFree p h = some h' ∧ HeapInv h' (live.erase (p, n)) bs' := by
  obtain ⟨h', bs', hrun, H', hpos⟩ := H.toLive.free hp
  exact ⟨h', bs', hrun, H'.inv (hpos H.pos)⟩

theorem HeapInv.growPages (H : HeapInv h live bs) (count : ℕ) (w : σ) :
    ∃ r h' w' bs', heapGrowPages commit count h w = some (r, h', w') ∧ HeapInv h' live bs' := by
  obtain ⟨r, h', w', bs', hrun, H', hpos⟩ := H.toLive.growPages count w
  exact ⟨r, h', w', bs', hrun, H'.inv (hpos H.pos)⟩

theorem HeapInv.coalesce (H : HeapInv h live bs) :
    ∃ h' bs', heapCoalesce h = some h' ∧ HeapInv h' live bs' := by
  obtain ⟨h', bs', hrun, H', hpos⟩ := H.toLive.coalesce
  exact ⟨h', bs', hrun, H'.inv (hpos H.pos)⟩

theorem HeapInv.write (H : HeapInv h live bs) {p n : ℕ} (hp : (p, n) ∈ live) {hdr : ℕ → Header}
    (hw : ∀ a, a + heapHdrSize ≤ p ∨ p + n ≤ a → hdr a = h.hdr a) :
    HeapInv { h with hdr := hdr } live bs := (H.toLive.write hp hw).inv H.pos

/-- **Every reachable heap satisfies the invariant.** -/
theorem heapReach_inv (hr : HeapReach commit h live) : ∃ bs, HeapInv h live bs := by
  induction hr with
  | @init hdr w w' r h hrun =>
    obtain ⟨r₁, h₁, w₁, bs₁, hrun₁, H, hpos⟩ := heapInit_live hdr w
    rw [hrun₁] at hrun
    obtain ⟨-, rfl, -⟩ : r₁ = r ∧ h₁ = h ∧ w₁ = w' := by simpa using hrun
    exact ⟨bs₁, H.inv hpos⟩
  | @alloc h h' live size r w w' _ h1 hs hrun ih =>
    obtain ⟨bs, H⟩ := ih
    obtain ⟨r₁, h₁, w₁, bs₁, hrun₁, H₁⟩ := H.alloc h1 hs w
    rw [hrun₁] at hrun
    obtain ⟨rfl, rfl, -⟩ : r₁ = r ∧ h₁ = h' ∧ w₁ = w' := by simpa using hrun
    exact ⟨bs₁, H₁⟩
  | free _ hp hrun ih =>
    obtain ⟨bs, H⟩ := ih
    obtain ⟨h₁, bs₁, hrun₁, H₁⟩ := H.free hp
    rw [hrun₁] at hrun
    exact ⟨bs₁, Option.some.inj hrun ▸ H₁⟩
  | freeNull _ hrun ih =>
    rw [heapFree, if_pos rfl] at hrun
    exact Option.some.inj hrun ▸ ih
  | @growPages h h' live count r w w' _ hrun ih =>
    obtain ⟨bs, H⟩ := ih
    obtain ⟨r₁, h₁, w₁, bs₁, hrun₁, H₁⟩ := H.growPages count w
    rw [hrun₁] at hrun
    obtain ⟨-, rfl, -⟩ : r₁ = r ∧ h₁ = h' ∧ w₁ = w' := by simpa using hrun
    exact ⟨bs₁, H₁⟩
  | coalesce _ hrun ih =>
    obtain ⟨bs, H⟩ := ih
    obtain ⟨h₁, bs₁, hrun₁, H₁⟩ := H.coalesce
    rw [hrun₁] at hrun
    exact ⟨bs₁, Option.some.inj hrun ▸ H₁⟩
  | write _ hp hw ih =>
    obtain ⟨bs, H⟩ := ih
    exact ⟨bs, H.write hp hw⟩

end Run

/-! ### What the invariant says about the header memory -/

/-- The block whose header is at `a`, as the header words describe it. -/
def Heap.blockAt (h : Heap) (a : ℕ) : Block where
  addr := a
  size := (h.hdr a).size
  used := decide ((h.hdr a).flag = heapFlagUsed)

/-- The heap as `heap_validate` and the clients may rely on it, for the list
`l` of header addresses. -/
structure HeapWellFormed (h : Heap) (live : List (ℕ × ℕ)) (l : List ℕ) : Prop where
  list : Chain (fun a => (h.hdr a).next) h.head l
  acyclic : l.Nodup
  tiles : Tiled heapHdrSize kheapBase (l.map h.blockAt) h.committed
  magic : ∀ a ∈ l, (h.hdr a).magic = heapMagic
  flag : ∀ a ∈ l, (h.hdr a).flag = heapFlagFree ∨ (h.hdr a).flag = heapFlagUsed
  size_ne_zero : ∀ a ∈ l, (h.hdr a).size ≠ 0
  size_mod : ∀ a ∈ l, (h.hdr a).size % 8 = 0
  noAdjFree : l.IsChain fun a b =>
    ¬((h.hdr a).flag = heapFlagFree ∧ (h.hdr b).flag = heapFlagFree)
  live_iff : ∀ p, (∃ n, (p, n) ∈ live) ↔ ∃ a ∈ l, (h.hdr a).flag = heapFlagUsed ∧ p = a + heapHdrSize
  live_nodup : (live.map Prod.fst).Nodup
  live_size : ∀ x ∈ live, x.2 ≤ (h.hdr (x.1 - heapHdrSize)).size
  validate : heapValidate h = some 1
  payload_disjoint : ∀ x ∈ live, ∀ y ∈ live, x.1 ≠ y.1 →
    x.1 + (h.hdr (x.1 - heapHdrSize)).size ≤ y.1 ∨ y.1 + (h.hdr (y.1 - heapHdrSize)).size ≤ x.1
  payload_no_header : ∀ x ∈ live, ∀ a ∈ l,
    a + heapHdrSize ≤ x.1 ∨ x.1 + (h.hdr (x.1 - heapHdrSize)).size ≤ a
  all_freed : live = [] → (l = [] ∧ h.committed = kheapBase) ∨
    (l = [kheapBase] ∧ (h.hdr kheapBase).flag = heapFlagFree ∧
      kheapBase + heapHdrSize + (h.hdr kheapBase).size = h.committed)

section WellFormed

variable {h : Heap} {live : List (ℕ × ℕ)} {bs : List Block}

theorem Linked.hdr_eq {hdr : ℕ → Header} : ∀ {bs : List Block}, Linked hdr bs → ∀ b ∈ bs,
    ∃ n, hdr b.addr = blockHeader b n
  | _ :: bs, h, b, hb => by
    rcases List.mem_cons.mp hb with rfl | hb
    · exact ⟨_, h.1⟩
    · exact hdr_eq h.2 b hb

theorem Linked.chain {hdr : ℕ → Header} : ∀ {bs : List Block}, Linked hdr bs →
    (∀ b ∈ bs, b.addr ≠ 0) → Chain (fun a => (hdr a).next) (headAddr bs) (bs.map Block.addr)
  | [], _, _ => rfl
  | b :: bs, h, hne => by
    refine ⟨rfl, hne b List.mem_cons_self, ?_⟩
    have hnext : (hdr b.addr).next = headAddr bs := by rw [h.1]; rfl
    simp only [hnext]
    exact chain h.2 fun d hd => hne d (List.mem_cons_of_mem _ hd)

theorem HeapRep.blockAt_eq (H : HeapRep h bs) {b : Block} (hb : b ∈ bs) : h.blockAt b.addr = b := by
  obtain ⟨n, hn⟩ := H.linked.hdr_eq b hb
  cases hu : b.used <;> simp [Heap.blockAt, hn, blockHeader, hu] <;> cases b <;> simp_all

theorem HeapRep.map_blockAt (H : HeapRep h bs) : (bs.map Block.addr).map h.blockAt = bs := by
  rw [List.map_map]
  exact (List.map_congr_left fun b hb => H.blockAt_eq hb).trans (List.map_id bs)

/-- The invariant of a run, read off the header memory. -/
theorem HeapInv.wellFormed (H : HeapInv h live bs) : HeapWellFormed h live (bs.map Block.addr) := by
  have hhdr := H.rep.linked.hdr_eq
  -- a live pointer is the payload of one used block
  have hlive : ∀ x ∈ live, ∃ b ∈ bs, b.used = true ∧ b.addr + heapHdrSize = x.1 ∧ x.2 ≤ b.size ∧
      (h.hdr (x.1 - heapHdrSize)).size = b.size := by
    rintro ⟨p, n⟩ hx
    obtain ⟨b, hb, rfl, hn⟩ := H.live.exists_block hx
    obtain ⟨hb, hu⟩ := List.mem_filter.mp hb
    obtain ⟨m, hm⟩ := hhdr b hb
    refine ⟨b, hb, hu, rfl, hn, ?_⟩
    rw [Nat.add_sub_cancel, hm]
    rfl
  have hsplit : ∀ x ∈ live, ∀ b ∈ bs, b.addr + heapHdrSize ≤ x.1 ∨
      x.1 + (h.hdr (x.1 - heapHdrSize)).size ≤ b.addr := by
    intro x hx b hb
    obtain ⟨d, hd, -, hdx, -, hsz⟩ := hlive x hx
    rw [hsz, ← hdx]
    by_cases hbd : b = d
    · exact Or.inl (by rw [hbd])
    · rcases H.rep.tiled.disjoint hb hd hbd with h1 | h1 <;> omega
  exact
    { list := H.rep.head ▸ H.rep.linked.chain H.rep.addr_ne_zero
      acyclic := H.rep.tiled.addr_nodup (by decide)
      tiles := by rw [H.rep.map_blockAt]; exact H.rep.tiled
      magic := by
        intro a ha
        obtain ⟨b, hb, rfl⟩ := List.mem_map.mp ha
        obtain ⟨n, hn⟩ := hhdr b hb
        rw [hn]
        rfl
      flag := by
        intro a ha
        obtain ⟨b, hb, rfl⟩ := List.mem_map.mp ha
        obtain ⟨n, hn⟩ := hhdr b hb
        rw [hn, blockHeader_flag_free, blockHeader_flag_used]
        cases b.used <;> simp
      size_ne_zero := by
        intro a ha
        obtain ⟨b, hb, rfl⟩ := List.mem_map.mp ha
        obtain ⟨n, hn⟩ := hhdr b hb
        rw [hn]
        exact (H.pos b hb).ne'
      size_mod := by
        intro a ha
        obtain ⟨b, hb, rfl⟩ := List.mem_map.mp ha
        obtain ⟨n, hn⟩ := hhdr b hb
        rw [hn]
        exact H.rep.align b hb
      noAdjFree := by
        rw [List.isChain_map]
        refine H.rep.noAdj.imp_of_mem_imp fun b d hb hd hbd => ?_
        obtain ⟨m, hm⟩ := hhdr b hb
        obtain ⟨n, hn⟩ := hhdr d hd
        rw [hm, hn, blockHeader_flag_free, blockHeader_flag_free]
        rintro ⟨hb0, hd0⟩
        simp [hb0, hd0] at hbd
      live_iff := by
        intro p
        constructor
        · rintro ⟨n, hn⟩
          obtain ⟨b, hb, hu, hbx, -, -⟩ := hlive _ hn
          obtain ⟨m, hm⟩ := hhdr b hb
          exact ⟨b.addr, List.mem_map_of_mem hb, by rw [hm]; simp [hu], hbx.symm⟩
        · rintro ⟨a, ha, hfl, rfl⟩
          obtain ⟨b, hb, rfl⟩ := List.mem_map.mp ha
          obtain ⟨m, hm⟩ := hhdr b hb
          rw [hm, blockHeader_flag_used] at hfl
          have hmem := H.live.perm.mem_iff.mp
            (List.mem_map_of_mem (f := fun b => b.addr + heapHdrSize)
              (List.mem_filter.mpr ⟨hb, hfl⟩))
          obtain ⟨⟨q, n⟩, hx, hq⟩ := List.mem_map.mp hmem
          exact ⟨n, hq ▸ hx⟩
      live_nodup := by
        refine H.live.perm.nodup_iff.mp ?_
        have hinj := H.rep.used_nodup.map (f := fun a => a + heapHdrSize)
          fun a b hab => by simpa using hab
        rwa [List.map_map] at hinj
      live_size := by
        intro x hx
        obtain ⟨b, -, -, -, hn, hsz⟩ := hlive x hx
        rw [hsz]
        exact hn
      validate := heapValidate_eq_one H.rep H.pos
      payload_disjoint := by
        intro x hx y hy hxy
        obtain ⟨b, hb, -, hbx, -, hsz⟩ := hlive x hx
        obtain ⟨d, hd, -, hdy, -, hsz'⟩ := hlive y hy
        have hbd : b ≠ d := fun he => hxy (by rw [← hbx, ← hdy, he])
        rw [hsz, hsz', ← hbx, ← hdy]
        rcases H.rep.tiled.disjoint hb hd hbd with h1 | h1 <;> omega
      payload_no_header := by
        intro x hx a ha
        obtain ⟨b, hb, rfl⟩ := List.mem_map.mp ha
        exact hsplit x hx b hb
      all_freed := by
        rintro rfl
        have hnone : bs.filter Block.used = [] := by
          simpa using H.live.perm
        rcases H.rep.noAdj.eq_of_no_used hnone with rfl | ⟨b, rfl, hb⟩
        · exact Or.inl ⟨rfl, H.rep.tiled.symm⟩
        · obtain ⟨hbase, hend⟩ := H.rep.tiled
          have hhd : h.hdr kheapBase = blockHeader b 0 := hbase ▸ H.rep.linked.1
          refine Or.inr ⟨by simp [hbase], by rw [hhd]; simp [hb], ?_⟩
          rw [hhd]
          exact hend }

end WellFormed

/-- **The heap is well formed along every run, and every operation returns.** -/
theorem heapReach_wellFormed {σ : Type} {commit : ℕ → σ → Bool × σ} {h : Heap}
    {live : List (ℕ × ℕ)} (hr : HeapReach commit h live) :
    (∃ l, HeapWellFormed h live l) ∧
      (∀ size w, 1 ≤ size → size ≤ kheapMaxSize → (heapAlloc commit size h w).isSome) ∧
      (∀ x ∈ live, (heapFree x.1 h).isSome) ∧ (heapFree 0 h).isSome ∧
      (∀ count w, (heapGrowPages commit count h w).isSome) ∧ (heapCoalesce h).isSome := by
  obtain ⟨bs, H⟩ := heapReach_inv hr
  refine ⟨⟨_, H.wellFormed⟩, ?_, ?_, ?_, ?_, ?_⟩
  · intro size w h1 hs
    obtain ⟨r, h', w', bs', hrun, -⟩ := H.alloc h1 hs w
    exact Option.isSome_iff_exists.mpr ⟨_, hrun⟩
  · rintro ⟨p, n⟩ hp
    obtain ⟨h', -, hrun, -⟩ := H.free hp
    simp [hrun]
  · simp [heapFree]
  · intro count w
    obtain ⟨r, h', w', bs', hrun, -⟩ := H.growPages count w
    exact Option.isSome_iff_exists.mpr ⟨_, hrun⟩
  · obtain ⟨h', -, hrun, -⟩ := H.coalesce
    simp [hrun]

/-- The heap after `heap_init` has got its first page. -/
def firstPage : Heap where
  hdr := Function.update (fun _ => ⟨0, 0, 0, 0⟩) kheapBase heapPageHeader
  head := kheapBase
  committed := kheapBase + pageSize
  limit := kheapBase + kheapMaxSize

/-- An allocation of 20 bytes from the first page, split at 24. -/
theorem heapReach_wellFormed_first_alloc :
    heapInit (fun _ w => (true, w)) (fun _ => ⟨0, 0, 0, 0⟩) () = some (1, firstPage, ()) ∧
    heapAlloc (fun _ w => (true, w)) 20 firstPage () =
      some (kheapBase + 16, { firstPage with hdr := heapTakeBlock firstPage.hdr kheapBase 24 }, ()) ∧
    ∃ l, HeapWellFormed { firstPage with hdr := heapTakeBlock firstPage.hdr kheapBase 24 }
      [(kheapBase + 16, 20)] l := by
  obtain ⟨n, hn⟩ : ∃ n, walkFuel = n + 1 := ⟨2 ^ 32 - 1, rfl⟩
  have hinit : heapInit (fun _ w => (true, w)) (fun _ => ⟨0, 0, 0, 0⟩) ()
      = some (1, firstPage, ()) := by
    simp [heapInit, heapGrowOnePage, heapLinkTail, heapCoalesce, hn, heapCoalesceLoop, firstPage,
      heapPageHeader, add32, kheapBase, kheapMaxSize, pageSize, heapHdrSize]
  have halloc : heapAlloc (fun _ w => (true, w)) 20 firstPage () =
      some (kheapBase + 16, { firstPage with hdr := heapTakeBlock firstPage.hdr kheapBase 24 },
        ()) := by
    simp [heapAlloc, heapRound, hn, heapAllocRetry, heapAllocScan, firstPage, heapPageHeader, add32,
      kheapBase, kheapMaxSize, pageSize, heapHdrSize]
  have hreach := HeapReach.alloc (HeapReach.init hinit) (by decide) (by decide) halloc
  exact ⟨hinit, halloc, (heapReach_wellFormed hreach).1⟩

end VirtualKernel
