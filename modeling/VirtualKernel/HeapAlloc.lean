/-
Allocation, freeing and validation on block lists.

`heapAlloc_spec` and `heapFree_spec` say what `heap_alloc` and `heap_free` do
to the list of used blocks: one block more (`Allocated`) or one block less
(`Freed`), and everything else as before.  `heapValidate_eq_one` says that the
invariant is at least what `heap_validate` asks for.
-/
import VirtualKernel.HeapWalk

namespace VirtualKernel

open Lib

/-! ### Allocation -/

/-- The free block `b` after `ebx` bytes of it have been taken. -/
def taken (b : Block) (ebx : ℕ) : List Block :=
  if b.size - ebx < heapMinSplit then [{ b with used := true }]
  else [{ b with size := ebx, used := true },
    { addr := b.addr + heapHdrSize + ebx, size := b.size - ebx - heapHdrSize, used := false }]

theorem headAddr_taken (b : Block) (n : ℕ) (bs : List Block) :
    headAddr (taken b n ++ bs) = b.addr := by
  unfold taken
  split <;> rfl

theorem tiled_taken {a e n : ℕ} {b : Block} (hn : n ≤ b.size) {bs : List Block}
    (h : Tiled heapHdrSize a (b :: bs) e) : Tiled heapHdrSize a (taken b n ++ bs) e := by
  unfold taken
  split
  · exact h
  · rename_i hs
    simp only [heapMinSplit, heapHdrSize] at hs
    refine ⟨h.1, ?_, ?_⟩
    · simp [h.1]
    · have h2 := h.2
      rwa [show a + heapHdrSize + b.size
        = a + heapHdrSize + n + heapHdrSize + (b.size - n - heapHdrSize) by
          simp only [heapHdrSize]; omega] at h2

theorem filter_used_taken (b : Block) (n : ℕ) :
    ∃ d, (taken b n).filter Block.used = [d] ∧ d.addr = b.addr ∧ (n ≤ b.size → n ≤ d.size) := by
  unfold taken
  split
  · exact ⟨{ b with used := true }, by simp, rfl, id⟩
  · exact ⟨{ b with size := n, used := true }, by simp, rfl, fun _ => le_refl _⟩

/-- The headers written by a split or a whole-block allocation. -/
theorem heapTakeBlock_linked {hdr : ℕ → Header} {pre post : List Block} {b : Block} {a e n : ℕ}
    (hl : Linked hdr (pre ++ b :: post)) (ht : Tiled heapHdrSize a (pre ++ b :: post) e)
    (he : e < 2 ^ 32) (hn : n ≤ b.size) :
    Linked (heapTakeBlock hdr b.addr n) (pre ++ (taken b n ++ post)) := by
  have h16 : heapHdrSize = 16 := rfl
  obtain ⟨m, hpre, hbpost⟩ := Tiled.append_iff.mp ht
  have hbm : b.addr = m := hbpost.1
  have hpost : ∀ x ∈ post, b.addr + heapHdrSize + b.size ≤ x.addr := by
    intro x hx
    rw [hbm]
    exact (hbpost.2.mem_bounds x hx).1
  have hbelow : ∀ x ∈ pre, x.addr < b.addr := by
    intro x hx
    have := (hpre.mem_bounds x hx).2
    omega
  have hle := hbpost.2.le
  have hlb : hdr b.addr = blockHeader b (headAddr post) := (Linked.suffix hl).1
  have hlpost : Linked hdr post := (Linked.suffix hl).2
  have hsz : (hdr b.addr).size = b.size := by rw [hlb]; rfl
  unfold heapTakeBlock taken
  simp only [hsz]
  by_cases hs : b.size - n < heapMinSplit
  · rw [if_pos hs, if_pos hs]
    have hnew : Linked (Function.update hdr b.addr
          { hdr b.addr with size := b.size, flag := heapFlagUsed })
        ({ b with used := true } :: post) := by
      refine ⟨?_, Linked.congr (fun x hx => Function.update_of_ne ?_ _ _) hlpost⟩
      · rw [Function.update_self, hlb]
        rfl
      · have := hpost x hx
        omega
    exact Linked.replace_suffix (b := b) (d := { b with used := true }) rfl hnew
      (fun x hx => Function.update_of_ne (ne_of_lt (hbelow x hx)) _ _) hl
  · rw [if_neg hs, if_neg hs]
    simp only [heapMinSplit] at hs
    have hedi : add32 (add32 b.addr heapHdrSize) n = b.addr + heapHdrSize + n := by
      rw [add32_of_lt (a := b.addr) (by omega), add32_of_lt (by omega)]
    rw [hedi]
    -- the remainder starts inside the old payload, so its header is no other block's
    set rest : Header := { magic := heapMagic, size := b.size - n - heapHdrSize
                           flag := heapFlagFree, next := (hdr b.addr).next } with hrest
    set hdr₁ := Function.update hdr (b.addr + heapHdrSize + n) rest with hhdr₁
    have hnew : Linked (Function.update hdr₁ b.addr
          { hdr₁ b.addr with size := n, flag := heapFlagUsed, next := b.addr + heapHdrSize + n })
        ({ b with size := n, used := true } ::
          { addr := b.addr + heapHdrSize + n, size := b.size - n - heapHdrSize, used := false } ::
          post) := by
      refine ⟨?_, ?_, Linked.congr (fun x hx => ?_) hlpost⟩
      · rw [Function.update_self, hhdr₁, Function.update_of_ne (by omega), hlb]
        rfl
      · dsimp only
        rw [Function.update_of_ne (by omega), hhdr₁, Function.update_self, hrest, hlb]
        rfl
      · have := hpost x hx
        rw [Function.update_of_ne (by omega), hhdr₁, Function.update_of_ne (by omega)]
    refine Linked.replace_suffix (b := b) (d := { b with size := n, used := true }) rfl hnew
      (fun x hx => ?_) hl
    have := hbelow x hx
    rw [Function.update_of_ne (by omega), hhdr₁, Function.update_of_ne (by omega)]

/-- Taking from a free block keeps a list free of free neighbours. -/
theorem noAdjFree_taken {pre post : List Block} {b : Block} (n : ℕ) (hfree : b.used = false)
    (h : NoAdjFree (pre ++ b :: post)) : NoAdjFree (pre ++ (taken b n ++ post)) := by
  rw [NoAdjFree, List.isChain_append] at h
  obtain ⟨hpre, hbpost, hseam⟩ := h
  have hpost : ∀ x ∈ post.head?, x.used = true := by
    intro x hx
    rcases post with _ | ⟨y, post⟩
    · simp at hx
    · have := (List.isChain_cons_cons.mp hbpost).1
      simp only [List.head?_cons, Option.mem_def, Option.some.injEq] at hx
      simpa [hfree, hx] using this
  have hpostc : List.IsChain (fun b d : Block => b.used = true ∨ d.used = true) post :=
    (List.isChain_cons.mp hbpost).2
  unfold taken
  split
  · refine List.isChain_append.mpr ⟨hpre, ?_, fun x _ y hy => ?_⟩
    · exact List.isChain_cons.mpr ⟨fun y _ => Or.inl rfl, hpostc⟩
    · simp only [List.cons_append, List.head?_cons, Option.mem_def, Option.some.injEq] at hy
      exact Or.inr (by rw [← hy])
  · refine List.isChain_append.mpr ⟨hpre, ?_, fun x _ y hy => ?_⟩
    · refine List.isChain_cons_cons.mpr ⟨Or.inl rfl, List.isChain_cons.mpr ⟨?_, hpostc⟩⟩
      exact fun y hy => Or.inr (hpost y hy)
    · simp only [List.cons_append, List.head?_cons, Option.mem_def, Option.some.injEq] at hy
      exact Or.inr (by rw [← hy])

/-- The blocks of a tiling have distinct addresses, also after filtering. -/
theorem HeapRep.used_nodup {h : Heap} {bs : List Block} (H : HeapRep h bs) :
    ((bs.filter Block.used).map Block.addr).Nodup :=
  (H.tiled.addr_nodup (by decide)).sublist (List.filter_sublist.map _)

/-- The used blocks after an allocation: those before it and one more block,
whose payload starts at `r` and has at least `n` bytes. -/
def Allocated (n r : ℕ) (bs bs' : List Block) : Prop :=
  ∃ pre post b, bs.filter Block.used = pre ++ post ∧ bs'.filter Block.used = pre ++ b :: post ∧
    b.addr + heapHdrSize = r ∧ n ≤ b.size

section Allocation

variable {σ : Type} {commit : ℕ → σ → Bool × σ} {I : ℕ → σ → Prop} {h : Heap} {bs : List Block}

/-- First fit on a list in which `b` is the first block that fits. -/
theorem heapTakeBlock_spec {pre post : List Block} {b : Block} {n : ℕ} {w : σ}
    (H : HeapRep h (pre ++ b :: post)) (hw : I h.committed w) (hb : fits n b = true)
    (hn : n % 8 = 0) :
    Grown I n h (pre ++ b :: post) { h with hdr := heapTakeBlock h.hdr b.addr n } w
        (pre ++ (taken b n ++ post)) ∧
      Allocated n (add32 b.addr heapHdrSize) (pre ++ b :: post) (pre ++ (taken b n ++ post)) := by
  simp only [fits, Bool.and_eq_true, Bool.not_eq_true', decide_eq_true_eq] at hb
  obtain ⟨hfree, hsize⟩ := hb
  obtain ⟨m, hpre, hbpost⟩ := Tiled.append_iff.mp H.tiled
  have hmem : ∀ x ∈ taken b n, x.size = n ∨ x.size = b.size ∨
      (heapMinSplit ≤ b.size - n ∧ x.size = b.size - n - heapHdrSize) := by
    intro x hx
    unfold taken at hx
    split at hx <;> simp only [List.mem_cons, List.not_mem_nil, or_false] at hx
    · rw [hx]
      exact Or.inr (Or.inl rfl)
    · rcases hx with rfl | rfl
      · exact Or.inl rfl
      · exact Or.inr (Or.inr ⟨by omega, rfl⟩)
  have hbal := H.align b (by simp)
  constructor
  · refine ⟨?_, hw, le_refl _, ?_⟩
    · exact
        { head := by
            rw [H.head]
            cases pre with
            | nil => exact (headAddr_taken b n post).symm
            | cons y pre => rfl
          linked := heapTakeBlock_linked H.linked H.tiled H.committed_lt hsize
          tiled := Tiled.append_iff.mpr ⟨m, hpre, tiled_taken hsize hbpost⟩
          align := by
            intro x hx
            rcases List.mem_append.mp hx with hx | hx
            · exact H.align x (by simp [hx])
            · rcases List.mem_append.mp hx with hx | hx
              · rcases hmem x hx with h1 | h1 | ⟨-, h1⟩
                · omega
                · omega
                · simp only [heapHdrSize] at h1
                  omega
              · exact H.align x (by simp [hx])
          limit := H.limit
          le_limit := H.le_limit
          paged := H.paged
          noAdj := noAdjFree_taken n hfree H.noAdj }
    · intro hn0 hpos x hx
      rcases List.mem_append.mp hx with hx | hx
      · exact hpos x (by simp [hx])
      · rcases List.mem_append.mp hx with hx | hx
        · have hbp := hpos b (by simp)
          rcases hmem x hx with h1 | h1 | ⟨h2, h1⟩
          · omega
          · omega
          · simp only [heapHdrSize, heapMinSplit] at h1 h2
            omega
        · exact hpos x (by simp [hx])
  · obtain ⟨d, hd, haddr, hdn⟩ := filter_used_taken b n
    refine ⟨pre.filter Block.used, post.filter Block.used, d, ?_, ?_, ?_, hdn hsize⟩
    · simp [List.filter_append, hfree]
    · rw [List.filter_append, List.filter_append, hd]
      rfl
    · have hbd := (H.tiled.mem_bounds b (by simp)).2
      have hlt := H.committed_lt
      rw [haddr, add32_of_lt (by omega)]

/-- One round after another, `heap_alloc` ends: every round that does not
return adds at least a page, and the heap has a limit. -/
theorem heapAllocRetry_spec (hI : CommitInv commit I) {n : ℕ} (hn : n % 8 = 0) :
    ∀ (fuel : ℕ) {h : Heap} {bs : List Block} {w : σ}, HeapRep h bs → I h.committed w →
      h.limit < h.committed + fuel * pageSize →
      ∃ r h' w' bs', heapAllocRetry commit n fuel h w = some (r, h', w') ∧
        Grown I n h bs h' w' bs' ∧
        (r = 0 ∧ bs'.filter Block.used = bs.filter Block.used ∨ Allocated n r bs bs') := by
  intro fuel
  induction fuel with
  | zero =>
    intro h bs w H _ hf
    have := H.le_limit
    omega
  | succ fuel ih =>
    intro h bs w H hw hf
    have hscan := heapAllocScan_spec n bs h.hdr walkFuel H.linked H.addr_ne_zero H.length_lt
    rw [← H.head] at hscan
    cases hfind : bs.find? (fits n) with
    | some b =>
      rw [hfind] at hscan
      obtain ⟨hb, pre, post, rfl, -⟩ := List.find?_eq_some_iff_append.mp hfind
      obtain ⟨hg, ha⟩ := heapTakeBlock_spec H hw hb hn
      refine ⟨_, _, _, _, ?_, hg, Or.inr ha⟩
      simp [heapAllocRetry, hscan]
    | none =>
      rw [hfind] at hscan
      obtain ⟨r, h₁, w₁, bs₁, hrun, g₁, hu₁, hr₁⟩ :=
        heapGrowPages_grown hI n (heapGrowCount n) H hw
      by_cases hr : r = 0
      · refine ⟨0, h₁, w₁, bs₁, ?_, g₁, Or.inl ⟨rfl, hu₁⟩⟩
        simp [heapAllocRetry, hscan, hrun, hr]
      · obtain ⟨hc, hcom⟩ := hr₁ hr
        have hmul : pageSize ≤ heapGrowCount n * pageSize := Nat.le_mul_of_pos_left _ (by omega)
        obtain ⟨r', h₂, w₂, bs₂, hrun₂, g₂, hres⟩ := ih g₁.rep g₁.inv (by
          rw [g₁.rep.limit, ← H.limit, hcom]
          rw [Nat.succ_mul] at hf
          omega)
        refine ⟨r', h₂, w₂, bs₂, ?_, g₁.trans g₂, ?_⟩
        · simp [heapAllocRetry, hscan, hrun, hr, hrun₂]
        · unfold Allocated at hres ⊢
          rwa [hu₁] at hres

/-- **`heap_alloc` on block lists**: it returns; either nothing is allocated,
or exactly one block of at least the rounded size becomes used. -/
theorem heapAlloc_spec (hI : CommitInv commit I) (size : ℕ) (H : HeapRep h bs) {w : σ}
    (hw : I h.committed w) :
    ∃ r h' w' bs', heapAlloc commit size h w = some (r, h', w') ∧
      Grown I (heapRound size) h bs h' w' bs' ∧
      (r = 0 ∧ bs'.filter Block.used = bs.filter Block.used ∨
        size ≠ 0 ∧ Allocated (heapRound size) r bs bs') := by
  rw [heapAlloc]
  by_cases hs : size = 0
  · rw [if_pos hs]
    exact ⟨0, h, w, bs, rfl, .refl _ H hw, Or.inl ⟨rfl, rfl⟩⟩
  · rw [if_neg hs]
    have hbase := H.tiled.le
    have hlimit := H.limit
    obtain ⟨r, h', w', bs', hrun, g, hres⟩ := heapAllocRetry_spec hI (n := heapRound size)
      (Nat.mul_mod_left _ _) walkFuel H hw (by
        simp only [walkFuel, kheapBase, kheapMaxSize, pageSize] at hbase hlimit ⊢
        omega)
    exact ⟨r, h', w', bs', hrun, g, hres.imp_right fun ha => ⟨hs, ha⟩⟩

end Allocation

/-! ### Freeing -/

/-- The used blocks after a free: all but the block with payload `r`. -/
def Freed (r : ℕ) (bs bs' : List Block) : Prop :=
  ∃ pre post b, bs.filter Block.used = pre ++ b :: post ∧ bs'.filter Block.used = pre ++ post ∧
    b.addr + heapHdrSize = r

section Freeing

variable {h : Heap} {bs : List Block}

/-- Clearing the used flag of one block leaves the rest of the list alone. -/
theorem HeapPre.clear_used {pre post : List Block} {b : Block} (H : HeapPre h (pre ++ b :: post)) :
    HeapPre
      { h with hdr := (Function.update h.hdr b.addr { h.hdr b.addr with flag := heapFlagFree }) }
      (pre ++ { b with used := false } :: post) := by
  have hpw := List.pairwise_append.mp H.tiled.pairwise
  have hpre : ∀ x ∈ pre, x.addr ≠ b.addr := by
    intro x hx
    have := hpw.2.2 x hx b (by simp)
    simp only [heapHdrSize] at this
    omega
  have hpost : ∀ x ∈ post, x.addr ≠ b.addr := by
    intro x hx
    have := (List.pairwise_cons.mp hpw.2.1).1 x hx
    simp only [heapHdrSize] at this
    omega
  obtain ⟨hlb, hlpost⟩ := Linked.suffix H.linked
  have hnew : Linked (Function.update h.hdr b.addr { h.hdr b.addr with flag := heapFlagFree })
      ({ b with used := false } :: post) := by
    refine ⟨?_, Linked.congr (fun x hx => Function.update_of_ne (hpost x hx) _ _) hlpost⟩
    rw [Function.update_self, hlb]
    rfl
  exact
    { head := by
        rw [H.head]
        cases pre <;> rfl
      linked := Linked.replace_suffix (b := b) (d := { b with used := false }) rfl hnew
        (fun x hx => Function.update_of_ne (hpre x hx) _ _) H.linked
      tiled := by
        obtain ⟨m, h1, h2⟩ := Tiled.append_iff.mp H.tiled
        exact Tiled.append_iff.mpr ⟨m, h1, h2⟩
      align := by
        intro x hx
        rcases List.mem_append.mp hx with hx | hx
        · exact H.align x (by simp [hx])
        · rcases List.mem_cons.mp hx with rfl | hx
          · exact H.align b (by simp)
          · exact H.align x (by simp [hx])
      limit := H.limit
      le_limit := H.le_limit
      paged := H.paged }

/-- **`heap_free` on block lists**: freeing the payload of a used block returns
and makes exactly that block free. -/
theorem heapFree_spec (H : HeapRep h bs) {b : Block} (hb : b ∈ bs) (hu : b.used = true) :
    ∃ h' bs', heapFree (b.addr + heapHdrSize) h = some h' ∧ HeapRep h' bs' ∧
      Freed (b.addr + heapHdrSize) bs bs' ∧ h'.committed = h.committed ∧
      ((∀ x ∈ bs, 0 < x.size) → ∀ x ∈ bs', 0 < x.size) := by
  obtain ⟨pre, post, rfl⟩ := List.append_of_mem hb
  have hlb := (Linked.suffix H.linked).1
  obtain ⟨h', hrun, H', hcom⟩ := H.toHeapPre.clear_used.heapCoalesce_spec
  refine ⟨h', _, ?_, H', ?_, hcom, ?_⟩
  · have hsub : sub32 (b.addr + heapHdrSize) heapHdrSize = b.addr := by
      have h1 := (H.tiled.mem_bounds b hb).2
      have h2 := H.committed_lt
      rw [sub32_of_le (by omega) (by omega)]
      omega
    rw [heapFree, if_neg (by simp), hsub, if_neg (by rw [hlb]; simp [blockHeader]),
      if_neg (by rw [hlb]; simp [hu])]
    exact hrun
  · refine ⟨pre.filter Block.used, post.filter Block.used, b, ?_, ?_, rfl⟩
    · simp [List.filter_append, hu]
    · rw [filter_used_coalesced]
      simp [List.filter_append]
  · intro hpos
    refine forall_size_coalesced (P := fun n => 0 < n) (fun x y hx _ => by omega) ?_
    intro x hx
    rcases List.mem_append.mp hx with hx | hx
    · exact hpos x (by simp [hx])
    · rcases List.mem_cons.mp hx with rfl | hx
      · exact hpos b (by simp)
      · exact hpos x (by simp [hx])

end Freeing

/-! ### Validation and initialisation -/

/-- The dwords of a header in the heap. -/
theorem dword_of_linked {h : Heap} {b : Block} {next : ℕ} (hb : h.hdr b.addr = blockHeader b next)
    (hbase : kheapBase ≤ b.addr) (hend : b.addr + heapHdrSize ≤ h.committed) :
    HeaderAt h.dword b next := by
  have h16 : heapHdrSize = 16 := rfl
  constructor
  · rw [Heap.dword, if_pos ⟨hbase, by omega⟩, hb]
    rfl
  · rw [Heap.dword, if_pos ⟨hbase, by omega⟩, hb]
    rfl
  · rw [Heap.dword, if_pos ⟨hbase, by omega⟩, hb]
    rfl
  · rw [Heap.dword, if_pos ⟨hbase, by omega⟩, hb]
    rfl

/-- `heap_validate` walks along a tiling of positive blocks without free neighbours. -/
theorem headerWalk_of_tiled {h : Heap} (hlt : h.committed < 2 ^ 32) :
    ∀ (bs : List Block) (a : ℕ), Linked h.hdr bs → Tiled heapHdrSize a bs h.committed →
      kheapBase ≤ a → NoAdjFree bs → (∀ b ∈ bs, 0 < b.size) →
      HeaderWalk h.dword h.committed (headAddr bs) bs 0 := by
  intro bs
  induction bs with
  | nil => exact fun _ _ _ _ _ _ => .done 0
  | cons b bs ih =>
    intro a hl ht ha hadj hpos
    obtain ⟨rfl, htbs⟩ := ht
    have hle := htbs.le
    have hbpos := hpos b List.mem_cons_self
    have hstop : add32 (add32 b.addr heapHdrSize) b.size = b.addr + heapHdrSize + b.size := by
      rw [add32_of_lt (a := b.addr) (by omega), add32_of_lt (by omega)]
    have hplaced : PlacedBlock h.committed b :=
      ⟨ha, by omega, Nat.ne_of_gt hbpos, by rw [hstop]; exact hle⟩
    have hheader := dword_of_linked hl.1 ha (by omega)
    cases bs with
    | nil => exact .pass ⟨hheader, hplaced, fun h => absurd rfl h, fun h => absurd rfl h⟩ (.done 0)
    | cons d bs =>
      have hd : d.addr = b.addr + heapHdrSize + b.size := htbs.1
      have hdle := htbs.2.le
      refine .pass ⟨hheader, hplaced, fun _ => ?_, fun _ hfree => ?_⟩
        (ih _ hl.2 htbs (by omega) (List.isChain_cons_cons.mp hadj).2
          fun x hx => hpos x (List.mem_cons_of_mem _ hx))
      · rw [headAddr_cons]
        omega
      · -- the block behind a free one is used
        have hused := (List.isChain_cons_cons.mp hadj).1.resolve_left (by rw [hfree]; decide)
        refine ⟨_, (dword_of_linked hl.2.1 (by omega) (by omega)).flag, fun h => ?_⟩
        rw [blockHeader_flag_free, hused] at h
        exact absurd h.symm Bool.false_ne_true

/-- `heap_validate` accepts every heap with the representation invariant whose
blocks are not empty. -/
theorem heapValidate_eq_one {h : Heap} {bs : List Block} (H : HeapRep h bs)
    (hpos : ∀ b ∈ bs, 0 < b.size) : heapValidate h = some 1 := by
  have hwalk := headerWalk_of_tiled H.committed_lt bs kheapBase H.linked H.tiled (le_refl _) H.noAdj
    hpos
  have hlt := H.committed_lt
  rw [heapValidate, heapValidateLoop_eq_one (by unfold walkFuel; omega), H.head]
  exact ⟨bs, hwalk⟩

/-- The heap variables before the first page. -/
theorem heapRep_empty (hdr : ℕ → Header) :
    HeapRep { hdr := hdr, head := 0, committed := kheapBase, limit := kheapBase + kheapMaxSize }
      [] where
  head := rfl
  linked := trivial
  tiled := tiled_nil.mpr rfl
  align := by simp
  limit := rfl
  le_limit := Nat.le_add_right _ _
  paged := show kheapBase % pageSize = 0 by decide
  noAdj := List.isChain_nil

end VirtualKernel
