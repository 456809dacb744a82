/-
Copying cells one after the other.

`copyCells l m` goes through a list of pairs of a destination and a source and
copies the source cell, as it is by then, to the destination:

* **`copyCells_mem`** — when no cell is written twice, and none is read after
  it has been written, every destination receives what its source held at the
  beginning;
* **`copyCells_frame`** — cells that are no destination stay.

The order of the list is what decides whether two overlapping ranges are copied
correctly, so both directions of a block move are instances.
-/
import Mathlib.Data.List.Pairwise
import Mathlib.Logic.Function.Basic

namespace VirtualKernel.Lib

variable {α β : Type} [DecidableEq α] {l : List (α × α)} {m : α → β}

/-- Copy the cells of a list of pairs (destination, source), in order. -/
def copyCells (l : List (α × α)) (m : α → β) : α → β :=
  l.foldl (fun m x => Function.update m x.1 (m x.2)) m

/-- No cell is written twice, or read after it has been written. -/
def ReadFirst (l : List (α × α)) : Prop := l.Pairwise fun x y => x.1 ≠ y.1 ∧ x.1 ≠ y.2

/-- Cells that are no destination stay. -/
theorem copyCells_frame {a : α} (h : ∀ x ∈ l, x.1 ≠ a) : copyCells l m a = m a := by
  induction l generalizing m with
  | nil => rfl
  | cons x l ih =>
    obtain ⟨hx, hl⟩ := List.forall_mem_cons.mp h
    calc copyCells (x :: l) m a = Function.update m x.1 (m x.2) a := ih hl
      _ = m a := Function.update_of_ne hx.symm _ _

/-- **Every destination receives what its source held at the beginning.** -/
theorem copyCells_mem (h : ReadFirst l) {x : α × α} (hx : x ∈ l) : copyCells l m x.1 = m x.2 := by
  induction l generalizing m with
  | nil => cases hx
  | cons y l ih =>
    obtain ⟨hy, hl⟩ := List.pairwise_cons.mp h
    rcases List.mem_cons.mp hx with rfl | hx
    · -- the later pairs leave the first destination alone
      calc copyCells (x :: l) m x.1 = Function.update m x.1 (m x.2) x.1 :=
            copyCells_frame fun z hz => (hy z hz).1.symm
        _ = m x.2 := Function.update_self _ _ _
    · -- the source of `x` has not been written by `y`
      calc copyCells (y :: l) m x.1 = Function.update m y.1 (m y.2) x.2 := ih hl hx
        _ = m x.2 := Function.update_of_ne (hy x hx).2.symm _ _

end VirtualKernel.Lib
