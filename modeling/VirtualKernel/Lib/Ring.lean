/-
Ring buffers with one free slot.

`n` slots are numbered from `0`; the entries stand in the slots from `tail` up
to, but not including, `head`, modulo `n`, and `tail = head` is the empty
buffer, so that at most `n - 1` slots are in use.  `ringList` lists the entries,
oldest first.  The producer writes the slot at `head` and advances it
(`ringList_push`), the consumer reads the slot at `tail` and advances it
(`ringList_pop`); the buffer is full when `head` has come round to just before
`tail`.
-/
import Mathlib.Data.List.Range
import Mathlib.Logic.Function.Basic
import Mathlib.Tactic.SplitIfs

namespace VirtualKernel.Lib

variable {α : Type} {n : ℕ} {slot slot' : ℕ → α} {tail head : ℕ}

/-- The number of entries. -/
def ringCount (n tail head : ℕ) : ℕ := (head + n - tail) % n

/-- The entries, oldest first. -/
def ringList (n : ℕ) (slot : ℕ → α) (tail head : ℕ) : List α :=
  (List.range (ringCount n tail head)).map fun i => slot ((tail + i) % n)

/-! ### Positions -/

theorem wrap_eq {a : ℕ} (h : a < 2 * n) : a % n = if a < n then a else a - n := by
  split_ifs with ha
  · exact Nat.mod_eq_of_lt ha
  · rw [Nat.mod_eq_sub_mod (by omega), Nat.mod_eq_of_lt (by omega)]

theorem next_eq (h : head < n) : (head + 1) % n = if head + 1 < n then head + 1 else 0 := by
  rw [wrap_eq (by omega)]
  split_ifs <;> omega

theorem ringCount_eq (ht : tail < n) (hh : head < n) :
    ringCount n tail head = if tail ≤ head then head - tail else head + n - tail := by
  rw [ringCount, wrap_eq (by omega)]
  split_ifs <;> omega

theorem ringCount_lt (hn : 0 < n) : ringCount n tail head < n := Nat.mod_lt _ hn

theorem ringCount_eq_zero (ht : tail < n) (hh : head < n) :
    ringCount n tail head = 0 ↔ tail = head := by
  rw [ringCount_eq ht hh]
  split_ifs <;> omega

@[simp] theorem length_ringList : (ringList n slot tail head).length = ringCount n tail head := by
  simp [ringList]

theorem ringList_eq_nil (ht : tail < n) (hh : head < n) :
    ringList n slot tail head = [] ↔ tail = head := by
  rw [← List.length_eq_zero_iff, length_ringList, ringCount_eq_zero ht hh]

@[simp] theorem ringList_self (ht : tail < n) : ringList n slot tail tail = [] :=
  (ringList_eq_nil ht ht).mpr rfl

/-- Slots in use are not the one at `head`. -/
theorem index_ne_head (ht : tail < n) (hh : head < n) {i : ℕ} (hi : i < ringCount n tail head) :
    (tail + i) % n ≠ head := by
  rw [ringCount_eq ht hh] at hi
  split_ifs at hi with h
  all_goals
    rw [wrap_eq (by omega)]
    split_ifs <;> omega

/-- The slot behind those in use is the one at `head`. -/
theorem ringCount_end (ht : tail < n) (hh : head < n) :
    (tail + ringCount n tail head) % n = head := by
  rw [ringCount_eq ht hh]
  split_ifs
  · rw [Nat.mod_eq_of_lt (by omega)]
    omega
  · rw [wrap_eq (by omega)]
    split_ifs <;> omega

/-- Only the slots in use matter. -/
theorem ringList_congr (h : ∀ i < ringCount n tail head, slot' ((tail + i) % n) =
    slot ((tail + i) % n)) : ringList n slot' tail head = ringList n slot tail head :=
  List.map_congr_left fun i hi => h i (List.mem_range.mp hi)

/-! ### Operations -/

/-- **The producer**: write the slot at `head` and advance. -/
theorem ringList_push (ht : tail < n) (hh : head < n) (hfull : (head + 1) % n ≠ tail) (x : α) :
    ringList n (Function.update slot head x) tail ((head + 1) % n) =
      ringList n slot tail head ++ [x] := by
  have hcount : ringCount n tail ((head + 1) % n) = ringCount n tail head + 1 := by
    have hlt : (head + 1) % n < n := Nat.mod_lt _ (by omega)
    rw [ringCount_eq ht hlt, ringCount_eq ht hh]
    rw [next_eq hh] at hfull ⊢
    split_ifs at hfull ⊢ <;> omega
  rw [ringList, hcount, List.range_succ, List.map_append, List.map_cons, List.map_nil,
    ringCount_end ht hh, Function.update_self]
  congr 1
  refine List.map_congr_left fun i hi => Function.update_of_ne ?_ _ _
  exact index_ne_head ht hh (List.mem_range.mp hi)

/-- **The consumer**: read the slot at `tail` and advance. -/
theorem ringList_pop (ht : tail < n) (hh : head < n) (hne : tail ≠ head) :
    ringList n slot tail head = slot tail :: ringList n slot ((tail + 1) % n) head := by
  have hlt : (tail + 1) % n < n := Nat.mod_lt _ (by omega)
  have hcount : ringCount n tail head = ringCount n ((tail + 1) % n) head + 1 := by
    rw [ringCount_eq hlt hh, ringCount_eq ht hh, next_eq ht]
    split_ifs <;> omega
  rw [ringList, hcount, List.range_succ_eq_map, List.map_cons, List.map_map, Nat.add_zero,
    Nat.mod_eq_of_lt ht]
  refine congrArg (slot tail :: ·) (List.map_congr_left fun i _ => ?_)
  simp only [Function.comp_apply, Nat.succ_eq_add_one]
  rw [Nat.mod_add_mod, show tail + (i + 1) = tail + 1 + i by omega]

/-- The consumer skips the `k` oldest entries. -/
theorem ringList_drop (ht : tail < n) (hh : head < n) {k : ℕ} (hk : k ≤ ringCount n tail head) :
    ringList n slot ((tail + k) % n) head = (ringList n slot tail head).drop k := by
  induction k with
  | zero => rw [Nat.add_zero, Nat.mod_eq_of_lt ht, List.drop_zero]
  | succ k ih =>
    have hlt : (tail + k) % n < n := Nat.mod_lt _ (by omega)
    have hpop : ringList n slot ((tail + k) % n) head = _ :=
      ringList_pop hlt hh (index_ne_head ht hh hk)
    rw [ih (Nat.le_of_succ_le hk), Nat.mod_add_mod, Nat.add_assoc] at hpop
    rw [← List.tail_drop, hpop, List.tail_cons]

/-- Applying a function to every entry. -/
theorem ringList_map {β : Type} (f : α → β) :
    (ringList n slot tail head).map f = ringList n (fun i => f (slot i)) tail head := by
  simp [ringList, Function.comp_def]

end VirtualKernel.Lib
