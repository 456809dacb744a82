/-
Cyclic redundancy checks.

A register of `w` bits that moves down one place for each bit of the message and is
corrected with a polynomial when a 1 falls out.  The register is linear
(`crcStep_xor`) and, when the polynomial has its top bit, never loses a difference
(`crcStep_ne_zero`).  Bits that enter one after the other may as well be there at once
(`crcFeed_load`).  From these follows **`crcFeed_burst`**: two messages that differ within
`w` places never leave the same register.
-/
import Mathlib.Data.Nat.Init
import Mathlib.Logic.Function.Iterate

namespace VirtualKernel.Lib

variable {w : ℕ}

/-- A word that counts when a bit is set. -/
def whenSet (b : Bool) (x : BitVec w) : BitVec w := if b then x else 0

/-- One place down. -/
def crcStep (poly x : BitVec w) : BitVec w := (x >>> 1) ^^^ whenSet (x.getLsbD 0) poly

/-- The register after the first `n` bits of a message. -/
def crcFeed (poly : BitVec w) (bits : ℕ → Bool) : ℕ → BitVec w → BitVec w
  | 0, x => x
  | n + 1, x => crcStep poly (crcFeed poly bits n x ^^^ whenSet (bits n) (BitVec.twoPow w 0))

/-- The first `n` bits of a message as a word. -/
def packed (w : ℕ) (bits : ℕ → Bool) : ℕ → BitVec w
  | 0 => 0
  | n + 1 => packed w bits n ^^^ whenSet (bits n) (BitVec.twoPow w n)

theorem whenSet_xor (a b : Bool) (x : BitVec w) :
    whenSet (a ^^ b) x = whenSet a x ^^^ whenSet b x := by
  cases a <;> cases b <;> simp [whenSet]

@[simp] theorem whenSet_false (x : BitVec w) : whenSet false x = 0 := rfl

@[simp] theorem whenSet_true (x : BitVec w) : whenSet true x = x := rfl

theorem getLsbD_whenSet (b : Bool) (x : BitVec w) (i : ℕ) :
    (whenSet b x).getLsbD i = (b && x.getLsbD i) := by
  cases b <;> simp

section Register

variable (poly : BitVec w)

/-- **The register is linear.** -/
theorem crcStep_xor (x y : BitVec w) :
    crcStep poly (x ^^^ y) = crcStep poly x ^^^ crcStep poly y := by
  rw [crcStep, crcStep, crcStep, BitVec.ushiftRight_xor_distrib, BitVec.getLsbD_xor, whenSet_xor]
  ac_rfl

@[simp] theorem crcStep_zero : crcStep poly 0 = 0 := by
  simp [crcStep]

/-- **A difference is never lost**: the top bit of the polynomial tells what fell out. -/
theorem crcStep_ne_zero (hpoly : poly.getLsbD (w - 1) = true) {x : BitVec w} (hx : x ≠ 0) :
    crcStep poly x ≠ 0 := by
  intro h
  have htop := congrArg (fun y => y.getLsbD (w - 1)) h
  -- nothing is shifted into the top bit
  have hlow : x.getLsbD 0 = false := by
    by_cases hw : w = 0
    · exact BitVec.getLsbD_of_ge x 0 (by omega)
    · simpa [crcStep, getLsbD_whenSet, hpoly, show 1 + (w - 1) = w by omega] using htop
  apply hx
  refine BitVec.eq_of_getLsbD_eq fun i hi => ?_
  cases i with
  | zero => simp [hlow]
  | succ i =>
    have hbit := congrArg (fun y => y.getLsbD i) h
    simpa [crcStep, hlow, Nat.add_comm] using hbit

/-- A bit above the low end moves down. -/
theorem crcStep_twoPow {i : ℕ} (hi : i + 1 < w) :
    crcStep poly (BitVec.twoPow w (i + 1)) = BitVec.twoPow w i := by
  refine BitVec.eq_of_getLsbD_eq fun j hj => ?_
  rw [crcStep, BitVec.getLsbD_xor, BitVec.getLsbD_ushiftRight, getLsbD_whenSet]
  simp only [BitVec.getLsbD_twoPow]
  have h0 : decide (i + 1 = 0) = false := by simp
  have h1 : decide (i + 1 = 1 + j) = decide (i = j) := by simp [Nat.add_comm 1]
  rw [h0, h1]
  simp [hi, show i < w by omega]

/-! ### Many places -/

theorem crcStep_iterate_xor (n : ℕ) (x y : BitVec w) :
    (crcStep poly)^[n] (x ^^^ y) = (crcStep poly)^[n] x ^^^ (crcStep poly)^[n] y := by
  induction n generalizing x y with
  | zero => rfl
  | succ n ih =>
    rw [Function.iterate_succ_apply, crcStep_xor, ih]
    rfl

theorem crcStep_iterate_zero (n : ℕ) : (crcStep poly)^[n] 0 = 0 :=
  Function.iterate_fixed (crcStep_zero poly) n

theorem crcStep_iterate_ne_zero (hpoly : poly.getLsbD (w - 1) = true) (n : ℕ) {x : BitVec w}
    (hx : x ≠ 0) : (crcStep poly)^[n] x ≠ 0 := by
  induction n with
  | zero => exact hx
  | succ n ih =>
    rw [Function.iterate_succ_apply']
    exact crcStep_ne_zero poly hpoly ih

/-- A bit reaches the low end. -/
theorem crcStep_iterate_twoPow {n : ℕ} (hn : n < w) :
    (crcStep poly)^[n] (BitVec.twoPow w n) = BitVec.twoPow w 0 := by
  induction n with
  | zero => rfl
  | succ n ih =>
    rw [Function.iterate_succ_apply, crcStep_twoPow poly hn, ih (by omega)]

/-! ### Messages -/

variable {poly} {bits bits' : ℕ → Bool} {n : ℕ}

theorem crcFeed_add (m n : ℕ) (x : BitVec w) :
    crcFeed poly bits (m + n) x = crcFeed poly (fun k => bits (m + k)) n (crcFeed poly bits m x) := by
  induction n with
  | zero => rfl
  | succ n ih =>
    rw [← Nat.add_assoc, crcFeed, ih]
    rfl

theorem crcFeed_congr (h : ∀ k < n, bits k = bits' k) (x : BitVec w) :
    crcFeed poly bits n x = crcFeed poly bits' n x := by
  induction n with
  | zero => rfl
  | succ n ih => rw [crcFeed, crcFeed, h n (Nat.lt_succ_self n), ih fun k hk => h k (by omega)]

/-- The registers of two messages differ as the register of their difference. -/
theorem crcFeed_xor (n : ℕ) (x y : BitVec w) :
    crcFeed poly (fun k => bits k ^^ bits' k) n (x ^^^ y) =
      crcFeed poly bits n x ^^^ crcFeed poly bits' n y := by
  induction n with
  | zero => rfl
  | succ n ih =>
    rw [crcFeed, crcFeed, crcFeed, ih, ← crcStep_xor, whenSet_xor]
    congr 1
    ac_rfl

/-- Where the message is 0 the register runs on its own. -/
theorem crcFeed_false (h : ∀ k < n, bits k = false) (x : BitVec w) :
    crcFeed poly bits n x = (crcStep poly)^[n] x := by
  induction n with
  | zero => rfl
  | succ n ih =>
    rw [crcFeed, h n (Nat.lt_succ_self n), whenSet_false, ih fun k hk => h k (by omega),
      Function.iterate_succ_apply']
    simp

/-- **Bits that enter one after the other may as well be there at once.** -/
theorem crcFeed_load (hn : n ≤ w) (x : BitVec w) :
    crcFeed poly bits n x = (crcStep poly)^[n] (x ^^^ packed w bits n) := by
  induction n with
  | zero => simp [crcFeed, packed]
  | succ n ih =>
    have hbit : (crcStep poly)^[n] (whenSet (bits n) (BitVec.twoPow w n)) =
        whenSet (bits n) (BitVec.twoPow w 0) := by
      cases bits n
      · exact crcStep_iterate_zero poly n
      · exact crcStep_iterate_twoPow poly (by omega)
    rw [crcFeed, ih (by omega), ← hbit, ← crcStep_iterate_xor, Function.iterate_succ_apply', packed,
      BitVec.xor_assoc]

theorem getLsbD_packed (n i : ℕ) :
    (packed w bits n).getLsbD i = (decide (i < n) && decide (i < w) && bits i) := by
  induction n with
  | zero => simp [packed]
  | succ n ih =>
    rw [packed, BitVec.getLsbD_xor, ih, getLsbD_whenSet, BitVec.getLsbD_twoPow]
    by_cases hi : i = n
    · subst hi
      by_cases hw : i < w <;> simp [hw]
    · have hlt : decide (i < n + 1) = decide (i < n) := by
        rw [decide_eq_decide]
        omega
      rw [hlt, decide_eq_false (show ¬n = i by omega)]
      simp

/-- **Every burst is seen.**  Two messages of the same length that differ, and only within
`w` places, leave the same register in different states. -/
theorem crcFeed_burst (hpoly : poly.getLsbD (w - 1) = true) {N d : ℕ}
    (hin : ∀ k < N, bits k ≠ bits' k → d ≤ k ∧ k < d + w) (hne : ∃ k < N, bits k ≠ bits' k)
    (x : BitVec w) : crcFeed poly bits N x ≠ crcFeed poly bits' N x := by
  intro heq
  -- the difference of the messages, with zeros behind it
  let diff : ℕ → Bool := fun k => decide (k < N) && (bits k ^^ bits' k)
  have hsame : ∀ k, ¬(d ≤ k ∧ k < d + w) → diff k = false := by
    intro k hk
    by_cases hkN : k < N
    · have hbit : bits k = bits' k := by
        by_contra hbit
        exact hk (hin k hkN hbit)
      simp [diff, hbit]
    · simp [diff, hkN]
  have hsame_end : ∀ k, diff (N + k) = false := fun k => by
    have hk : ¬N + k < N := by omega
    simp only [diff, decide_eq_false hk, Bool.false_and]
  have hzero : crcFeed poly diff N 0 = 0 := by
    have hfeed : crcFeed poly diff N 0 =
        crcFeed poly (fun k => bits k ^^ bits' k) N (x ^^^ x) := by
      rw [BitVec.xor_self]
      exact crcFeed_congr (fun k hk => by simp [diff, hk]) 0
    rw [hfeed, crcFeed_xor, heq, BitVec.xor_self]
    rfl
  have hend : crcFeed poly diff (N + (d + w)) 0 = 0 := by
    rw [crcFeed_add, hzero, crcFeed_false, crcStep_iterate_zero]
    intro k _
    exact hsame_end k
  -- the burst as one word
  have hword : packed w (fun k => diff (d + k)) w ≠ 0 := by
    obtain ⟨k, hkN, hk⟩ := hne
    obtain ⟨hdk, hkd⟩ := hin k hkN hk
    intro h
    have hbit := congrArg (fun y => y.getLsbD (k - d)) h
    have hset : diff k = true := by
      cases hb : bits k <;> cases hb' : bits' k <;> simp_all [diff]
    simp only [getLsbD_packed, Nat.add_sub_cancel' hdk, hset] at hbit
    simp [show k - d < w by omega] at hbit
  have hxor : ∀ y : BitVec w, 0 ^^^ y = y := fun y => BitVec.zero_xor
  have hburst : crcFeed poly diff (d + w + N) 0 ≠ 0 := by
    rw [crcFeed_add, crcFeed_add, crcFeed_false fun k hk => hsame k (by omega),
      crcStep_iterate_zero, crcFeed_load (Nat.le_refl w), hxor,
      crcFeed_false fun k _ => hsame _ (by omega)]
    exact crcStep_iterate_ne_zero poly hpoly N (crcStep_iterate_ne_zero poly hpoly w hword)
  rw [Nat.add_comm] at hburst
  exact hburst hend

end Register

end VirtualKernel.Lib
