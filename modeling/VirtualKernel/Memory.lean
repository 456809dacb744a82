/-
The runtime's `memset`, `memcpy`, `memmove` and `memcmp` (`Runtime/Memory.c`).

Memory is flat: a byte at every 32-bit address.  Both directions of `memmove`
are sequences of byte copies (`copyUp_eq`, `copyDown_eq`), so that
`copyCells_mem` applies once no byte is read after it has been written:

* **`copyUp_moved`** — copying upwards is right unless the destination begins
  inside the source;
* **`copyDown_moved`** — copying downwards is right unless the source begins
  inside the destination;
* **`memmove_moved`** — `memmove` takes the right one of the two;
* **`memcpy_moved`** — `memcpy` also serves ranges that overlap the right way;
* **`memset_spec`**, **`memcmp_spec`** — filling and comparing;
* **`runtimeBlockTest_passes`** — the check of the two in `kernel_main` cannot fail.
-/
import VirtualKernel.Lib.Copy
import VirtualKernel.Lib.Word
import Mathlib.Data.List.Range

namespace VirtualKernel

open Lib

/-- The bytes of flat memory. -/
abbrev Bytes : Type := ℕ → ℕ

/-! ### The routines -/

/-- `output[index] = input[index]`. -/
def copyByte (output input index : ℕ) (mem : Bytes) : Bytes :=
  Function.update mem (add32 output index) (mem (add32 input index))

/-- `for (index = 0; index < count; ++index) output[index] = input[index];` -/
def copyUp (output input count : ℕ) (mem : Bytes) : Bytes :=
  (List.range count).foldl (fun mem index => copyByte output input index mem) mem

/-- `for (index = count; index != 0u; --index) output[index - 1u] = input[index - 1u];` -/
def copyDown (output input : ℕ) : ℕ → Bytes → Bytes
  | 0, mem => mem
  | index + 1, mem => copyDown output input index (copyByte output input index mem)

/-- `memset(destination, value, count)`. -/
def memset (destination : ℕ) (value : ℤ) (count : ℕ) (mem : Bytes) : ℕ × Bytes :=
  let byte := (value % 2 ^ 8).toNat
  (destination,
    (List.range count).foldl (fun mem index => Function.update mem (add32 destination index) byte) mem)

/-- `memcpy(destination, source, count)`. -/
def memcpy (destination source count : ℕ) (mem : Bytes) : ℕ × Bytes :=
  (destination, copyUp destination source count mem)

/-- `memmove(destination, source, count)`. -/
def memmove (destination source count : ℕ) (mem : Bytes) : ℕ × Bytes :=
  if destination = source ∨ count = 0 then (destination, mem)
  else if destination < source then (destination, copyUp destination source count mem)
  else (destination, copyDown destination source count mem)

/-- `memcmp(left, right, count)`: the loop returns at the first index at which the
bytes differ. -/
def memcmp (left right count : ℕ) (mem : Bytes) : ℤ :=
  ((List.range count).find? fun index => mem (add32 left index) ≠ mem (add32 right index)).elim 0
    fun index => (mem (add32 left index) : ℤ) - mem (add32 right index)

/-! ### Block moves -/

/-- `m'` is `m` with the `n` bytes from `s` on moved to `d`. -/
structure Moved (d s n : ℕ) (m m' : Bytes) : Prop where
  copied : ∀ i < n, m' (d + i) = m (s + i)
  outside : ∀ a, a < d ∨ d + n ≤ a → m' a = m a

section Move

variable {d s n : ℕ} {m : Bytes}

/-- The byte copies at the given indices. -/
def bytePairs (d s : ℕ) (is : List ℕ) : List (ℕ × ℕ) :=
  is.map fun i => (add32 d i, add32 s i)

theorem copyUp_eq (d s n : ℕ) (m : Bytes) :
    copyUp d s n m = copyCells (bytePairs d s (List.range n)) m := by
  rw [copyCells, bytePairs, List.foldl_map]
  rfl

theorem copyDown_eq (d s n : ℕ) (m : Bytes) :
    copyDown d s n m = copyCells (bytePairs d s (List.range n).reverse) m := by
  induction n generalizing m with
  | zero => rfl
  | succ n ih =>
    rw [copyDown, ih, List.range_succ, List.reverse_append]
    rfl

/-- **Byte copies in any order** that reads every byte before it is written. -/
theorem moved_of_readFirst {is : List ℕ} (hd : d + n ≤ 2 ^ 32) (hs : s + n ≤ 2 ^ 32)
    (his : ∀ i, i ∈ is ↔ i < n) (h : ReadFirst (bytePairs d s is)) :
    Moved d s n m (copyCells (bytePairs d s is) m) where
  copied := by
    intro i hi
    have hmem : (add32 d i, add32 s i) ∈ bytePairs d s is :=
      List.mem_map.mpr ⟨i, (his i).mpr hi, rfl⟩
    have hcopy := copyCells_mem (m := m) h hmem
    rwa [add32_of_lt (by omega), add32_of_lt (by omega)] at hcopy
  outside := by
    intro a ha
    refine copyCells_frame fun x hx => ?_
    obtain ⟨i, hi, rfl⟩ := List.mem_map.mp hx
    have hi := (his i).mp hi
    rw [add32_of_lt (by omega)]
    omega

/-- The copy at `i` may come before the copy at `j`. -/
theorem byteCopies_apart (hd : d + n ≤ 2 ^ 32) (hs : s + n ≤ 2 ^ 32) {i j : ℕ} (hi : i < n)
    (hj : j < n) (hij : i ≠ j) (h : d + i ≠ s + j) :
    add32 d i ≠ add32 d j ∧ add32 d i ≠ add32 s j := by
  rw [add32_of_lt (show d + i < 2 ^ 32 by omega), add32_of_lt (show d + j < 2 ^ 32 by omega),
    add32_of_lt (show s + j < 2 ^ 32 by omega)]
  exact ⟨by omega, h⟩

/-- **Upwards** every byte is read first, unless the destination begins inside
the source. -/
theorem copyUp_moved (hd : d + n ≤ 2 ^ 32) (hs : s + n ≤ 2 ^ 32) (h : d ≤ s ∨ s + n ≤ d) :
    Moved d s n m (copyUp d s n m) := by
  rw [copyUp_eq]
  refine moved_of_readFirst hd hs (fun i => List.mem_range) (List.pairwise_map.mpr ?_)
  refine List.Pairwise.imp_of_mem ?_ List.pairwise_lt_range
  intro i j hi hj hij
  have hi := List.mem_range.mp hi
  have hj := List.mem_range.mp hj
  exact byteCopies_apart hd hs hi hj (by omega) (by omega)

/-- **Downwards** every byte is read first, unless the source begins inside the
destination. -/
theorem copyDown_moved (hd : d + n ≤ 2 ^ 32) (hs : s + n ≤ 2 ^ 32) (h : s ≤ d ∨ d + n ≤ s) :
    Moved d s n m (copyDown d s n m) := by
  rw [copyDown_eq]
  refine moved_of_readFirst hd hs (fun i => by rw [List.mem_reverse, List.mem_range])
    (List.pairwise_map.mpr (List.pairwise_reverse.mpr ?_))
  refine List.Pairwise.imp_of_mem ?_ List.pairwise_lt_range
  intro i j hi hj hij
  have hi := List.mem_range.mp hi
  have hj := List.mem_range.mp hj
  exact byteCopies_apart hd hs hj hi (by omega) (by omega)

/-- `memcpy` asks for ranges that do not overlap; a destination below the source
is enough. -/
theorem memcpy_moved (hd : d + n ≤ 2 ^ 32) (hs : s + n ≤ 2 ^ 32) (h : d ≤ s ∨ s + n ≤ d) :
    Moved d s n m (memcpy d s n m).2 := copyUp_moved hd hs h

/-- **`memmove` is right under every overlap**: the bytes of the source arrive
at the destination as they were, and no other byte changes. -/
theorem memmove_moved (destination source count : ℕ) (mem : Bytes)
    (hd : destination + count ≤ 2 ^ 32) (hs : source + count ≤ 2 ^ 32) :
    (memmove destination source count mem).1 = destination ∧
      (∀ i < count, (memmove destination source count mem).2 (destination + i) =
        mem (source + i)) ∧
      ∀ a, a < destination ∨ destination + count ≤ a →
        (memmove destination source count mem).2 a = mem a := by
  rw [memmove]
  split_ifs with hnone hlt
  · -- nothing is copied
    refine ⟨rfl, fun i hi => ?_, fun a _ => rfl⟩
    rw [hnone.resolve_right (by omega)]
  · have hmove : Moved destination source count mem (copyUp destination source count mem) :=
      copyUp_moved hd hs (Or.inl hlt.le)
    exact ⟨rfl, hmove.copied, hmove.outside⟩
  · have hmove : Moved destination source count mem (copyDown destination source count mem) :=
      copyDown_moved hd hs (Or.inl (Nat.le_of_not_lt hlt))
    exact ⟨rfl, hmove.copied, hmove.outside⟩

theorem memmove_moved_overlap : (memmove 2 0 5 fun a => a).1 = 2 ∧
    (∀ i < 5, (memmove 2 0 5 fun a => a).2 (2 + i) = 0 + i) ∧
    ∀ a, a < 2 ∨ 2 + 5 ≤ a → (memmove 2 0 5 fun a => a).2 a = a :=
  memmove_moved 2 0 5 (fun a => a) (by decide) (by decide)

example : (List.range 8).map (memmove 2 0 5 fun a => a).2 = [0, 1, 0, 1, 2, 3, 4, 7] := by decide

example : (List.range 8).map (memmove 0 2 5 fun a => a).2 = [2, 3, 4, 5, 6, 5, 6, 7] := by decide

end Move

/-! ### Filling and comparing -/

/-- **`memset`** fills exactly the range, with the low byte of the value. -/
theorem memset_spec (destination : ℕ) (value : ℤ) (count : ℕ) (mem : Bytes)
    (hd : destination + count ≤ 2 ^ 32) :
    (memset destination value count mem).1 = destination ∧
      ∀ a, (memset destination value count mem).2 a =
        if destination ≤ a ∧ a < destination + count then (value % 2 ^ 8).toNat else mem a := by
  refine ⟨rfl, ?_⟩
  unfold memset
  dsimp only
  induction count with
  | zero =>
    intro a
    rw [if_neg (by omega)]
    rfl
  | succ count ih =>
    intro a
    rw [List.range_succ, List.foldl_append, List.foldl_cons, List.foldl_nil,
      add32_of_lt (by omega)]
    by_cases ha : a = destination + count
    · rw [ha, Function.update_self, if_pos (by omega)]
    · rw [Function.update_of_ne ha, ih (by omega)]
      exact if_congr (by omega) rfl rfl

/-- **`memcmp`**: 0 for equal ranges, else the difference at the first
mismatch. -/
theorem memcmp_spec (left right count : ℕ) (mem : Bytes) (hl : left + count ≤ 2 ^ 32)
    (hr : right + count ≤ 2 ^ 32) :
    memcmp left right count mem = 0 ∧ (∀ i < count, mem (left + i) = mem (right + i)) ∨
      ∃ i < count, (∀ j < i, mem (left + j) = mem (right + j)) ∧
        mem (left + i) ≠ mem (right + i) ∧
        memcmp left right count mem = (mem (left + i) : ℤ) - mem (right + i) := by
  unfold memcmp
  cases hfind : (List.range count).find?
      fun index => decide (mem (add32 left index) ≠ mem (add32 right index)) with
  | none =>
    refine Or.inl ⟨rfl, fun i hi => ?_⟩
    have heq := List.find?_eq_none.mp hfind i (List.mem_range.mpr hi)
    rw [add32_of_lt (by omega), add32_of_lt (by omega)] at heq
    simpa using heq
  | some i =>
    obtain ⟨hne, hmem, hfirst⟩ := List.find?_range_eq_some.mp hfind
    have hi : i < count := List.mem_range.mp hmem
    dsimp only [Option.elim]
    rw [add32_of_lt (show left + i < 2 ^ 32 by omega),
      add32_of_lt (show right + i < 2 ^ 32 by omega)] at hne ⊢
    refine Or.inr ⟨i, hi, fun j hj => ?_, by simpa using hne, rfl⟩
    have heq := hfirst j hj
    rw [add32_of_lt (by omega), add32_of_lt (by omega)] at heq
    simpa using heq

/-- `memcmp` tells equal ranges from others. -/
theorem memcmp_eq_zero (left right count : ℕ) (mem : Bytes) (hl : left + count ≤ 2 ^ 32)
    (hr : right + count ≤ 2 ^ 32) :
    memcmp left right count mem = 0 ↔ ∀ i < count, mem (left + i) = mem (right + i) := by
  rcases memcmp_spec left right count mem hl hr with ⟨hz, heq⟩ | ⟨i, hi, -, hne, hdiff⟩
  · exact ⟨fun _ => heq, fun _ => hz⟩
  · refine ⟨fun hz => absurd ?_ hne, fun heq => absurd (heq i hi) hne⟩
    omega

/-- The test of filled blocks in `kernel_runtime_self_test`: what `KASSERT` compares with 0. -/
def runtimeBlockTest (allocation expected : ℕ) (mem : Bytes) : ℤ :=
  let mem := (memset allocation 0xA5 32 mem).2
  let mem := (memset expected 0xA5 32 mem).2
  memcmp allocation expected 32 mem

/-- The assertion holds wherever the heap has put the allocation, and the compiler the
array. -/
theorem runtimeBlockTest_passes {allocation expected : ℕ} (ha : allocation + 32 ≤ 2 ^ 32)
    (he : expected + 32 ≤ 2 ^ 32) (mem : Bytes) : runtimeBlockTest allocation expected mem = 0 := by
  refine (memcmp_eq_zero _ _ _ _ ha he).mpr fun i hi => ?_
  have hfirst := (memset_spec allocation 0xA5 32 mem ha).2
  have hsecond := (memset_spec expected 0xA5 32 (memset allocation 0xA5 32 mem).2 he).2
  -- both bytes have been filled, perhaps twice
  rw [hsecond, hsecond, hfirst, if_pos (show expected ≤ expected + i ∧ _ by omega)]
  split_ifs with hboth hone
  · rfl
  · rfl
  · omega

end VirtualKernel
