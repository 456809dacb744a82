/-
Packing byte strings into an image.

`copyInto image offset bytes` overwrites a part of `image`, and `packInto` does so for
one piece after another.  Every piece has an area of the image reserved for it, which
may be longer than the piece.

* **`packInto_outside`** — what no area covers stays;
* **`packInto_piece`** — where the areas are disjoint, every area of a blank image
  holds its piece, with blanks behind it.
-/
import Mathlib.Data.List.GetD
import Mathlib.Data.List.Pairwise
import Mathlib.Tactic.SplitIfs

namespace VirtualKernel.Lib

variable {α : Type} {image result bytes : List α} {offset i : ℕ} {blank : α}

/-- Overwrite `image` from `offset` on; nothing where the bytes do not fit. -/
def copyInto (image : List α) (offset : ℕ) (bytes : List α) : Option (List α) :=
  if offset + bytes.length ≤ image.length then
    some (image.take offset ++ bytes ++ image.drop (offset + bytes.length))
  else none

theorem copyInto_fits (h : copyInto image offset bytes = some result) :
    offset + bytes.length ≤ image.length := by
  by_contra hlong
  rw [copyInto, if_neg hlong] at h
  cases h

theorem length_copyInto (h : copyInto image offset bytes = some result) :
    result.length = image.length := by
  have hfits := copyInto_fits h
  rw [copyInto, if_pos hfits] at h
  cases h
  simp only [List.length_append, List.length_take, List.length_drop]
  omega

theorem copyInto_inside (h : copyInto image offset bytes = some result) (hi : i < bytes.length) :
    result.getD (offset + i) blank = bytes.getD i blank := by
  have hfits := copyInto_fits h
  rw [copyInto, if_pos hfits] at h
  cases h
  have hlen : (image.take offset).length = offset := by
    rw [List.length_take]
    omega
  rw [List.append_assoc, List.getD_append_right _ _ _ _ (by omega), hlen, Nat.add_sub_cancel_left,
    List.getD_append _ _ _ _ hi]

theorem copyInto_outside (h : copyInto image offset bytes = some result)
    (hi : i < offset ∨ offset + bytes.length ≤ i) : result.getD i blank = image.getD i blank := by
  have hfits := copyInto_fits h
  rw [copyInto, if_pos hfits] at h
  cases h
  have hlen : (image.take offset).length = offset := by
    rw [List.length_take]
    omega
  rcases hi with hi | hi
  · rw [List.append_assoc, List.getD_append _ _ _ _ (by omega), List.getD_eq_getElem?_getD,
      List.getElem?_take_of_lt hi, List.getD_eq_getElem?_getD]
  · rw [List.getD_append_right _ _ _ _ (by rw [List.length_append]; omega), List.length_append, hlen,
      List.getD_eq_getElem?_getD, List.getElem?_drop, List.getD_eq_getElem?_getD,
      Nat.add_sub_cancel' hi]

/-- A piece and the area reserved for it. -/
structure Piece (α : Type) where
  bytes : List α
  start : ℕ
  room : ℕ
  fits : bytes.length ≤ room

/-- The area covers the position. -/
def Piece.Covers (p : Piece α) (i : ℕ) : Prop := p.start ≤ i ∧ i < p.start + p.room

/-- Copy the pieces one after another. -/
def packInto : List α → List (Piece α) → Option (List α)
  | image, [] => some image
  | image, p :: rest => (copyInto image p.start p.bytes).bind fun image => packInto image rest

variable {pieces : List (Piece α)}

/-- **What no area covers stays.** -/
theorem packInto_outside (h : packInto image pieces = some result)
    (hi : ∀ p ∈ pieces, ¬p.Covers i) : result.getD i blank = image.getD i blank := by
  induction pieces generalizing image with
  | nil => rw [← Option.some.inj h]
  | cons p rest ih =>
    obtain ⟨next, hnext, hrest⟩ := Option.bind_eq_some_iff.mp h
    have hout : ¬(p.start ≤ i ∧ i < p.start + p.room) := hi p List.mem_cons_self
    have hfits := p.fits
    rw [ih hrest fun q hq => hi q (List.mem_cons_of_mem p hq)]
    exact copyInto_outside hnext (by omega)

/-- **Every area holds its piece**, with blanks behind it. -/
theorem packInto_piece {p : Piece α} (h : packInto image pieces = some result) (hp : p ∈ pieces)
    (hapart : pieces.Pairwise fun q r => ∀ i, q.Covers i → ¬r.Covers i)
    (hblank : ∀ i, p.Covers i → image.getD i blank = blank) (hi : i < p.room) :
    result.getD (p.start + i) blank = p.bytes.getD i blank := by
  have hcovers : p.Covers (p.start + i) := ⟨by omega, by omega⟩
  induction pieces generalizing image with
  | nil => cases hp
  | cons q rest ih =>
    obtain ⟨next, hnext, hrest⟩ := Option.bind_eq_some_iff.mp h
    obtain ⟨hq, hapart⟩ := List.pairwise_cons.mp hapart
    rcases List.mem_cons.mp hp with rfl | hp
    · -- nothing is copied over the piece later
      rw [packInto_outside hrest fun r hr => hq r hr _ hcovers]
      by_cases hin : i < p.bytes.length
      · exact copyInto_inside hnext hin
      · rw [copyInto_outside hnext (by omega), hblank _ hcovers, List.getD_eq_default _ _ (by omega)]
    · refine ih hrest hp hapart fun j hj => ?_
      have hout : ¬(q.start ≤ j ∧ j < q.start + q.room) := fun hc => hq p hp j hc hj
      have hfits := q.fits
      rw [copyInto_outside hnext (by omega)]
      exact hblank j hj

end VirtualKernel.Lib
