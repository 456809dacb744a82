/-
Little-endian words in a memory of bytes.

`getLe mem n a` is the number in the `n` bytes at `a`, and `putLe mem n a v` is
the memory after `v` has been stored there.

* **`getLe_putLe`** — what is stored is read back, up to the width;
* **`getLe_putLe_of_disjoint`** — a store elsewhere is not seen;
* **`getLe_congr`** — a read depends on its bytes only.
-/
import Mathlib.Data.Nat.Basic
import Mathlib.Logic.Function.Basic
import Mathlib.Tactic.Ring

namespace VirtualKernel.Lib

/-- The number in the `n` bytes from `a` on. -/
def getLe (mem : ℕ → ℕ) : ℕ → ℕ → ℕ
  | 0, _ => 0
  | n + 1, a => mem a % 2 ^ 8 + getLe mem n (a + 1) * 2 ^ 8

/-- Store the low `n` bytes of `v` from `a` on. -/
def putLe (mem : ℕ → ℕ) : ℕ → ℕ → ℕ → ℕ → ℕ
  | 0, _, _ => mem
  | n + 1, a, v => Function.update (putLe mem n (a + 1) (v / 2 ^ 8)) a (v % 2 ^ 8)

variable {mem mem' : ℕ → ℕ} {n a v : ℕ}

/-- A store changes its own bytes only. -/
theorem putLe_of_outside {x : ℕ} (hx : x < a ∨ a + n ≤ x) : putLe mem n a v x = mem x := by
  induction n generalizing a v with
  | zero => rfl
  | succ n ih =>
    rw [putLe, Function.update_of_ne (by omega)]
    exact ih (by omega)

/-- A memory of bytes stays one. -/
theorem putLe_byte (h : ∀ x, mem x < 2 ^ 8) (x : ℕ) : putLe mem n a v x < 2 ^ 8 := by
  induction n generalizing a v with
  | zero => exact h x
  | succ n ih =>
    rw [putLe]
    by_cases hx : x = a
    · rw [hx, Function.update_self]
      exact Nat.mod_lt _ (by decide)
    · rw [Function.update_of_ne hx]
      exact ih

/-- **A read depends on its bytes only.** -/
theorem getLe_congr (h : ∀ i < n, mem' (a + i) = mem (a + i)) : getLe mem' n a = getLe mem n a := by
  induction n generalizing a with
  | zero => rfl
  | succ n ih =>
    have h₀ : mem' a = mem a := h 0 (Nat.succ_pos n)
    rw [getLe, getLe, h₀, ih fun i hi => ?_]
    rw [Nat.add_assoc, Nat.add_comm 1]
    exact h (i + 1) (by omega)

/-- **A store elsewhere is not seen.** -/
theorem getLe_putLe_of_disjoint {m b : ℕ} (h : b + m ≤ a ∨ a + n ≤ b) :
    getLe (putLe mem n a v) m b = getLe mem m b :=
  getLe_congr fun i hi => putLe_of_outside (by omega)

/-- **What is stored is read back.** -/
theorem getLe_putLe : getLe (putLe mem n a v) n a = v % 2 ^ (8 * n) := by
  induction n generalizing a v with
  | zero => rw [getLe, Nat.mul_zero, pow_zero, Nat.mod_one]
  | succ n ih =>
    -- the first byte, and the rest behind it
    have hrest : getLe (putLe mem (n + 1) a v) n (a + 1) =
        getLe (putLe mem n (a + 1) (v / 2 ^ 8)) n (a + 1) :=
      getLe_congr fun i _ => Function.update_of_ne (by omega) _ _
    rw [getLe, hrest, ih, putLe, Function.update_self, Nat.mod_mod,
      show 2 ^ (8 * (n + 1)) = 2 ^ 8 * 2 ^ (8 * n) by ring, Nat.mod_mul]
    ring

end VirtualKernel.Lib
