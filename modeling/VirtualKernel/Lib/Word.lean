/-
32-bit words as natural numbers.

Machine words are natural numbers and the operations that can wrap carry their
reduction modulo `2 ^ 32`.  Where the operands are small the reduction
disappears (`add32_of_lt`, `sub32_of_le`).

A word can also be read as a page address with twelve flag bits below it:
`pageAddr` is the address part, and `pageAddr_or` and `testBit_or_low` read the
two parts of a combined word.
-/
import Mathlib.Data.Nat.Bitwise

namespace VirtualKernel.Lib

/-- `add` on 32-bit registers. -/
def add32 (a b : ℕ) : ℕ := (a + b) % 2 ^ 32

/-- `sub` on 32-bit registers. -/
def sub32 (a b : ℕ) : ℕ := (a + 2 ^ 32 - b) % 2 ^ 32

theorem add32_of_lt {a b : ℕ} (h : a + b < 2 ^ 32) : add32 a b = a + b := Nat.mod_eq_of_lt h

theorem sub32_of_le {a b : ℕ} (hb : b ≤ a) (ha : a < 2 ^ 32) : sub32 a b = a - b := by
  unfold sub32
  omega

/-! ### A page address with flags -/

/-- The page part of a word: `and eax, 0FFFFF000h`. -/
def pageAddr (x : ℕ) : ℕ := x &&& 0xFFFFF000

private theorem testBit_pageMask (k : ℕ) :
    (0xFFFFF000 : ℕ).testBit k = (decide (12 ≤ k) && decide (k < 32)) := by
  have h : (0xFFFFF000 : ℕ) = (2 ^ 20 - 1) <<< 12 := by decide
  rw [h, Nat.testBit_shiftLeft, Nat.testBit_two_pow_sub_one]
  by_cases hk : 12 ≤ k <;> simp [hk]
  omega

theorem testBit_pageAddr (x k : ℕ) :
    (pageAddr x).testBit k = (x.testBit k && (decide (12 ≤ k) && decide (k < 32))) := by
  rw [pageAddr, Nat.testBit_and, testBit_pageMask]

theorem testBit_of_aligned {a : ℕ} (ha : a % 4096 = 0) {k : ℕ} (hk : k < 12) :
    a.testBit k = false := by
  have h := Nat.testBit_mod_two_pow a 12 k
  rw [show (2 : ℕ) ^ 12 = 4096 from rfl, ha] at h
  simpa [hk] using h.symm

theorem pageAddr_of_aligned {a : ℕ} (ha : a % 4096 = 0) (hlt : a < 2 ^ 32) : pageAddr a = a := by
  refine Nat.eq_of_testBit_eq fun k => ?_
  rw [testBit_pageAddr]
  by_cases h12 : 12 ≤ k
  · by_cases h32 : k < 32
    · simp [h12, h32]
    · have hbig : a < 2 ^ k := lt_of_lt_of_le hlt (Nat.pow_le_pow_right (by decide) (by omega))
      simp [Nat.testBit_lt_two_pow hbig]
  · simp [testBit_of_aligned ha (by omega : k < 12)]

theorem pageAddr_aligned (x : ℕ) : pageAddr x % 4096 = 0 := by
  refine Nat.eq_of_testBit_eq fun k => ?_
  rw [show (4096 : ℕ) = 2 ^ 12 from rfl, Nat.testBit_mod_two_pow, testBit_pageAddr]
  by_cases h12 : 12 ≤ k
  · simp [h12]
  · simp [h12]

theorem pageAddr_lt (x : ℕ) : pageAddr x < 2 ^ 32 :=
  lt_of_le_of_lt Nat.and_le_right (by decide)

theorem pageAddr_eq {x : ℕ} (h : x < 2 ^ 32) : pageAddr x = x / 4096 * 4096 := by
  refine Nat.eq_of_testBit_eq fun k => ?_
  rw [testBit_pageAddr, show x / 4096 * 4096 = (x >>> 12) <<< 12 by
    rw [Nat.shiftLeft_eq, Nat.shiftRight_eq_div_pow], Nat.testBit_shiftLeft, Nat.testBit_shiftRight]
  by_cases h12 : 12 ≤ k
  · by_cases h32 : k < 32
    · simp [h12, h32]
    · have hbig : x < 2 ^ k := lt_of_lt_of_le h (Nat.pow_le_pow_right (by decide) (by omega))
      simp [h12, Nat.testBit_lt_two_pow hbig]
  · simp [h12]

/-- The address part does not see flags. -/
theorem pageAddr_or (x : ℕ) {f : ℕ} (hf : f < 4096) : pageAddr (x ||| f) = pageAddr x := by
  refine Nat.eq_of_testBit_eq fun k => ?_
  rw [testBit_pageAddr, testBit_pageAddr, Nat.testBit_or]
  by_cases h12 : 12 ≤ k
  · have hbig : f < 2 ^ k := lt_of_lt_of_le hf (Nat.pow_le_pow_right (by decide : 0 < 2) h12)
    simp [Nat.testBit_lt_two_pow hbig]
  · simp [h12]

/-- The flag bits do not see the address. -/
theorem testBit_or_low {a : ℕ} (ha : a % 4096 = 0) (f : ℕ) {k : ℕ} (hk : k < 12) :
    (a ||| f).testBit k = f.testBit k := by
  rw [Nat.testBit_or, testBit_of_aligned ha hk, Bool.false_or]

/-- Two fields that do not overlap. -/
theorem or_mul_two_pow {a k : ℕ} (h : a < 2 ^ k) (b : ℕ) : a ||| b * 2 ^ k = a + b * 2 ^ k := by
  rw [Nat.or_comm, Nat.mul_comm b, ← Nat.two_pow_add_eq_or_of_lt h, Nat.add_comm]

end VirtualKernel.Lib
