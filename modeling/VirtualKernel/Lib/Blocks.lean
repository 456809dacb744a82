/-
Block lists that tile an address range, as kept by allocators with in-band
headers.

A block occupies a header of `c` bytes at `addr` and `size` payload bytes
after it.  `Tiled c a bs e` says that the blocks `bs`, in order, cover `[a, e)`
exactly.  `coalesced` joins neighbouring free blocks: it keeps the tiling
(`Tiled.coalescedFrom`) and the used blocks (`filter_used_coalescedFrom`), and
leaves no two free neighbours (`noAdjFree_coalescedFrom`).
-/
import Mathlib.Data.List.Chain
import Mathlib.Data.List.Basic

namespace VirtualKernel.Lib

/-- A block of memory with an in-band header. -/
structure Block where
  addr : ℕ
  size : ℕ
  used : Bool
deriving DecidableEq

variable {c : ℕ}

/-- The blocks `bs` cover `[a, e)` exactly, in order. -/
def Tiled (c : ℕ) : ℕ → List Block → ℕ → Prop
  | a, [], e => a = e
  | a, b :: bs, e => b.addr = a ∧ Tiled c (a + c + b.size) bs e

/-- No two neighbouring blocks are both free. -/
def NoAdjFree (bs : List Block) : Prop :=
  bs.IsChain fun b d => b.used = true ∨ d.used = true

/-- The address of the first block, null for the empty list. -/
def headAddr : List Block → ℕ
  | [] => 0
  | b :: _ => b.addr

@[simp] theorem headAddr_nil : headAddr [] = 0 := rfl
@[simp] theorem headAddr_cons (b : Block) (bs : List Block) : headAddr (b :: bs) = b.addr := rfl

@[simp] theorem tiled_nil {a e : ℕ} : Tiled c a [] e ↔ a = e := Iff.rfl

@[simp] theorem tiled_cons {a e : ℕ} {b : Block} {bs : List Block} :
    Tiled c a (b :: bs) e ↔ b.addr = a ∧ Tiled c (a + c + b.size) bs e := Iff.rfl

namespace Tiled

theorem le : ∀ {a e : ℕ} {bs : List Block}, Tiled c a bs e → a ≤ e
  | _, _, [], h => le_of_eq h
  | _, _, b :: bs, h => by
    have := le h.2
    omega

/-- A tiling of a concatenation splits at the address of the seam. -/
theorem append_iff : ∀ {a e : ℕ} {bs ds : List Block},
    Tiled c a (bs ++ ds) e ↔ ∃ m, Tiled c a bs m ∧ Tiled c m ds e
  | a, e, [], ds => by simp
  | a, e, b :: bs, ds => by
    simp only [List.cons_append, tiled_cons, append_iff]
    constructor
    · rintro ⟨hb, m, h1, h2⟩
      exact ⟨m, ⟨hb, h1⟩, h2⟩
    · rintro ⟨m, ⟨hb, h1⟩, h2⟩
      exact ⟨hb, m, h1, h2⟩

/-- Every block lies inside the tiled range. -/
theorem mem_bounds : ∀ {a e : ℕ} {bs : List Block}, Tiled c a bs e →
    ∀ b ∈ bs, a ≤ b.addr ∧ b.addr + c + b.size ≤ e
  | _, _, [], _, _, hb => absurd hb List.not_mem_nil
  | a, e, d :: bs, h, b, hb => by
    have hle := le h.2
    rcases List.mem_cons.mp hb with rfl | hb
    · have := h.1
      omega
    · have := mem_bounds h.2 b hb
      omega

theorem length_le : ∀ {a e : ℕ} {bs : List Block}, Tiled c a bs e → a + c * bs.length ≤ e
  | _, _, [], h => by simpa using le_of_eq h
  | a, e, d :: bs, h => by
    have := length_le h.2
    rw [List.length_cons, Nat.mul_succ]
    omega

/-- The blocks of a tiling are pairwise disjoint, in increasing order. -/
theorem pairwise : ∀ {a e : ℕ} {bs : List Block}, Tiled c a bs e →
    bs.Pairwise fun b d => b.addr + c + b.size ≤ d.addr
  | _, _, [], _ => List.Pairwise.nil
  | a, e, b :: bs, h => by
    refine List.Pairwise.cons (fun d hd => ?_) (pairwise h.2)
    have := (mem_bounds h.2 d hd).1
    have := h.1
    omega

/-- Two different blocks of a tiling do not overlap, headers included. -/
theorem disjoint {a e : ℕ} {bs : List Block} (h : Tiled c a bs e) {b d : Block} (hb : b ∈ bs)
    (hd : d ∈ bs) (hne : b ≠ d) :
    b.addr + c + b.size ≤ d.addr ∨ d.addr + c + d.size ≤ b.addr := by
  let S : Block → Block → Prop := fun x y =>
    x.addr + c + x.size ≤ y.addr ∨ y.addr + c + y.size ≤ x.addr
  have hsym : Std.Symm S := ⟨fun _ _ h => h.symm⟩
  have hpw : bs.Pairwise S := (pairwise h).imp Or.inl
  exact hpw.forall hb hd hne

theorem addr_nodup (hc : 0 < c) {a e : ℕ} {bs : List Block} (h : Tiled c a bs e) :
    (bs.map Block.addr).Nodup := by
  refine List.pairwise_map.mpr ((pairwise h).imp fun {b d} hbd heq => ?_)
  omega

end Tiled

/-- Two neighbouring blocks joined into one. -/
def Block.join (c : ℕ) (b d : Block) : Block := { b with size := b.size + (d.size + c) }

/-- Join the free neighbours of the list `b :: bs`. -/
def coalescedFrom (c : ℕ) : Block → List Block → List Block
  | b, [] => [b]
  | b, d :: bs =>
    if b.used = false ∧ d.used = false then coalescedFrom c (b.join c d) bs
    else b :: coalescedFrom c d bs

/-- Join all free neighbours of a block list. -/
def coalesced (c : ℕ) : List Block → List Block
  | [] => []
  | b :: bs => coalescedFrom c b bs

theorem headAddr_coalescedFrom : ∀ (b : Block) (bs : List Block),
    headAddr (coalescedFrom c b bs) = b.addr
  | _, [] => rfl
  | b, d :: bs => by
    rw [coalescedFrom]
    split
    · rw [headAddr_coalescedFrom]
      rfl
    · rfl

theorem headAddr_coalesced (bs : List Block) : headAddr (coalesced c bs) = headAddr bs := by
  cases bs with
  | nil => rfl
  | cons b bs => exact headAddr_coalescedFrom b bs

theorem Tiled.coalescedFrom : ∀ {a e : ℕ} {b : Block} {bs : List Block},
    Tiled c a (b :: bs) e → Tiled c a (coalescedFrom c b bs) e
  | _, _, _, [], h => h
  | a, e, b, d :: bs, h => by
    rw [Lib.coalescedFrom]
    split
    · refine Tiled.coalescedFrom ⟨h.1, ?_⟩
      have h2 := h.2.2
      rwa [show a + c + b.size + c + d.size = a + c + (b.join c d).size by
        simp only [Block.join]; omega] at h2
    · exact ⟨h.1, Tiled.coalescedFrom h.2⟩

theorem Tiled.coalesced {a e : ℕ} {bs : List Block} (h : Tiled c a bs e) :
    Tiled c a (Lib.coalesced c bs) e := by
  cases bs with
  | nil => exact h
  | cons b bs => exact h.coalescedFrom

/-- The result of joining starts with a block that is used exactly when the
first block was. -/
theorem coalescedFrom_head : ∀ (b : Block) (bs : List Block),
    ∃ b' bs', coalescedFrom c b bs = b' :: bs' ∧ b'.used = b.used
  | b, [] => ⟨b, [], rfl, rfl⟩
  | b, d :: bs => by
    rw [coalescedFrom]
    split
    · obtain ⟨b', bs', h1, h2⟩ := coalescedFrom_head (b.join c d) bs
      exact ⟨b', bs', h1, h2⟩
    · exact ⟨b, _, rfl, rfl⟩

theorem noAdjFree_coalescedFrom : ∀ (b : Block) (bs : List Block),
    NoAdjFree (coalescedFrom c b bs)
  | _, [] => List.isChain_singleton _
  | b, d :: bs => by
    rw [coalescedFrom]
    split
    · exact noAdjFree_coalescedFrom _ bs
    · rename_i hbd
      obtain ⟨d', ds, hd, hu⟩ := coalescedFrom_head (c := c) d bs
      have hrest := noAdjFree_coalescedFrom d bs
      rw [hd] at hrest ⊢
      refine List.isChain_cons_cons.mpr ⟨?_, hrest⟩
      rw [hu]
      cases hb : b.used <;> cases hd' : d.used <;> simp_all

theorem noAdjFree_coalesced (bs : List Block) : NoAdjFree (coalesced c bs) := by
  cases bs with
  | nil => exact List.isChain_nil
  | cons b bs => exact noAdjFree_coalescedFrom b bs

theorem filter_used_coalescedFrom : ∀ (b : Block) (bs : List Block),
    (coalescedFrom c b bs).filter Block.used = (b :: bs).filter Block.used
  | _, [] => rfl
  | b, d :: bs => by
    rw [coalescedFrom]
    split
    · rename_i hbd
      have hj : (b.join c d).used = false := hbd.1
      rw [filter_used_coalescedFrom]
      simp [hj, hbd.1, hbd.2]
    · simp only [List.filter_cons, filter_used_coalescedFrom d bs]

/-- Joining keeps the used blocks, in order. -/
theorem filter_used_coalesced (bs : List Block) :
    (coalesced c bs).filter Block.used = bs.filter Block.used := by
  cases bs with
  | nil => rfl
  | cons b bs => exact filter_used_coalescedFrom b bs

/-- A property of sizes that joining respects survives `coalesced`. -/
theorem forall_size_coalescedFrom {P : ℕ → Prop} (hP : ∀ x y, P x → P y → P (x + (y + c))) :
    ∀ (b : Block) (bs : List Block), (∀ d ∈ b :: bs, P d.size) →
      ∀ d ∈ coalescedFrom c b bs, P d.size
  | b, [], h => by simpa [coalescedFrom] using h
  | b, d :: bs, h => by
    rw [coalescedFrom]
    have hb : P b.size := h b List.mem_cons_self
    have hd : P d.size := h d (by simp)
    have hbs : ∀ x ∈ bs, P x.size := fun x hx => h x (by simp [hx])
    split
    · refine forall_size_coalescedFrom hP _ bs fun x hx => ?_
      rcases List.mem_cons.mp hx with rfl | hx
      · exact hP _ _ hb hd
      · exact hbs x hx
    · intro x hx
      rcases List.mem_cons.mp hx with rfl | hx
      · exact hb
      · refine forall_size_coalescedFrom hP d bs (fun y hy => ?_) x hx
        rcases List.mem_cons.mp hy with rfl | hy
        · exact hd
        · exact hbs y hy

theorem forall_size_coalesced {P : ℕ → Prop} (hP : ∀ x y, P x → P y → P (x + (y + c)))
    {bs : List Block} (h : ∀ d ∈ bs, P d.size) : ∀ d ∈ coalesced c bs, P d.size := by
  cases bs with
  | nil => exact h
  | cons b bs => exact forall_size_coalescedFrom hP b bs h

/-- A list without free neighbours and without used blocks has at most one
block. -/
theorem NoAdjFree.eq_of_no_used {bs : List Block} (h : NoAdjFree bs)
    (hu : bs.filter Block.used = []) : bs = [] ∨ ∃ b, bs = [b] ∧ b.used = false := by
  have hall : ∀ b ∈ bs, b.used = false := by
    intro b hb
    simpa using List.filter_eq_nil_iff.mp hu b hb
  rcases bs with _ | ⟨b, _ | ⟨d, bs⟩⟩
  · exact Or.inl rfl
  · exact Or.inr ⟨b, rfl, hall b (by simp)⟩
  · have hbd := (List.isChain_cons_cons.mp h).1
    rw [hall b (by simp), hall d (by simp)] at hbd
    simp at hbd

/-! ### A block at the end -/

theorem not_free_of_used {b d : Block} (h : b.used = true ∨ d.used = true) :
    ¬(b.used = false ∧ d.used = false) := by
  rintro ⟨hb, hd⟩
  simp [hb, hd] at h

theorem coalescedFrom_of_noAdjFree : ∀ (b : Block) (bs : List Block), NoAdjFree (b :: bs) →
    coalescedFrom c b bs = b :: bs
  | _, [], _ => rfl
  | b, d :: bs, h => by
    obtain ⟨hbd, hrest⟩ := List.isChain_cons_cons.mp h
    rw [coalescedFrom, if_neg (not_free_of_used hbd), coalescedFrom_of_noAdjFree d bs hrest]

/-- There is nothing to join in a list without free neighbours. -/
theorem coalesced_of_noAdjFree {bs : List Block} (h : NoAdjFree bs) : coalesced c bs = bs := by
  cases bs with
  | nil => rfl
  | cons b bs => exact coalescedFrom_of_noAdjFree b bs h

theorem coalescedFrom_concat {x d : Block} (hx : x.used = false) (hd : d.used = false) :
    ∀ (b : Block) (bs : List Block), NoAdjFree (b :: (bs ++ [x])) →
      coalescedFrom c b (bs ++ [x, d]) = b :: (bs ++ [x.join c d])
  | b, [], h => by
    have hbx := (List.isChain_cons_cons.mp h).1
    rw [List.nil_append, coalescedFrom, if_neg (not_free_of_used hbx), coalescedFrom, if_pos ⟨hx, hd⟩, coalescedFrom]
    rfl
  | b, a :: bs, h => by
    obtain ⟨hba, hrest⟩ := List.isChain_cons_cons.mp h
    rw [List.cons_append, coalescedFrom, if_neg (not_free_of_used hba), coalescedFrom_concat hx hd a bs hrest]
    rfl

/-- A free block behind a free last block is joined with it. -/
theorem coalesced_concat {pre : List Block} {x d : Block} (h : NoAdjFree (pre ++ [x]))
    (hx : x.used = false) (hd : d.used = false) :
    coalesced c (pre ++ [x] ++ [d]) = pre ++ [x.join c d] := by
  cases pre with
  | nil =>
    show coalescedFrom c x [d] = [x.join c d]
    rw [coalescedFrom, if_pos ⟨hx, hd⟩, coalescedFrom]
  | cons b bs =>
    rw [List.append_assoc]
    exact coalescedFrom_concat hx hd b bs h

/-- A block behind a used last block stays on its own. -/
theorem noAdjFree_concat {bs : List Block} {d : Block} (h : NoAdjFree bs)
    (hlast : ∀ x ∈ bs.getLast?, x.used = true) : NoAdjFree (bs ++ [d]) :=
  List.isChain_append.mpr ⟨h, List.isChain_singleton d, fun x hx _ _ => Or.inl (hlast x hx)⟩

end VirtualKernel.Lib
