/-
Queues with free-running counters.

`k` slots are used in turn; a producer and a consumer count, modulo `m`, the
entries that they have written and read, and the entry number `i` stands in the
slot `i % k`.  When `k` divides `m` and is smaller than `m`, the counters may
wrap any number of times: the difference of the counters is the number of
entries that wait (`Fifo.count`), and the queue gives the entries back in their
order, each one once (`Fifo.push`, `Fifo.pop`, `Fifo.split`).
-/
import Mathlib.Data.List.Infix
import Mathlib.Data.Nat.ModEq
import Mathlib.Logic.Function.Basic

namespace VirtualKernel.Lib

variable {α : Type} {m k : ℕ} {slot : ℕ → α} {producer consumer : ℕ} {given taken : List α}

/-- The entries `given` have been written so far, and of these the entries `taken`
have been read. -/
structure Fifo (m k : ℕ) (slot : ℕ → α) (producer consumer : ℕ) (given taken : List α) : Prop where
  producer : producer = given.length % m
  consumer : consumer = taken.length % m
  read : taken.length ≤ given.length
  room : given.length ≤ taken.length + k
  order : taken = given.take taken.length
  slots : ∀ i, taken.length ≤ i → i < given.length → given[i]? = some (slot (i % k))

namespace Fifo

theorem empty (slot : ℕ → α) : Fifo m k slot 0 0 [] [] :=
  ⟨(Nat.zero_mod m).symm, (Nat.zero_mod m).symm, Nat.le_refl 0, Nat.zero_le _, rfl,
    fun i _ h => absurd h (Nat.not_lt_zero i)⟩

/-- What has been written is what has been read and what waits. -/
theorem split (h : Fifo m k slot producer consumer given taken) :
    given = taken ++ given.drop taken.length := by
  conv_lhs => rw [← List.take_append_drop taken.length given]
  rw [← h.order]

theorem waiting_le (h : Fifo m k slot producer consumer given taken) :
    (given.drop taken.length).length ≤ k := by
  have hroom := h.room
  rw [List.length_drop]
  omega

/-- The difference of the counters. -/
theorem count (h : Fifo m k slot producer consumer given taken) (hkm : k < m) :
    (producer + m - consumer) % m = given.length - taken.length := by
  have hread := h.read
  have hroom := h.room
  have hm : 0 < m := by omega
  have hlt : taken.length % m < m := Nat.mod_lt _ hm
  rw [h.producer, h.consumer]
  -- adding what has been read on both sides
  have hmod : given.length % m + m - taken.length % m ≡ given.length - taken.length [MOD m] := by
    refine Nat.ModEq.add_right_cancel' taken.length ?_
    rw [Nat.sub_add_cancel hread]
    calc given.length % m + m - taken.length % m + taken.length
        ≡ given.length % m + m - taken.length % m + taken.length % m [MOD m] :=
          Nat.ModEq.add_left _ (Nat.mod_modEq _ _).symm
      _ = given.length % m + m := by omega
      _ ≡ given.length [MOD m] := by simp [Nat.ModEq]
  rw [hmod, Nat.mod_eq_of_lt (by omega)]

/-- The queue is empty when the counters agree. -/
theorem counters_eq (h : Fifo m k slot producer consumer given taken) (hkm : k < m) :
    consumer = producer ↔ taken.length = given.length := by
  constructor
  · intro heq
    have hcount := h.count hkm
    have hread := h.read
    rw [heq, Nat.add_sub_cancel_left, Nat.mod_self] at hcount
    omega
  · intro heq
    rw [h.producer, h.consumer, heq]

/-- **The producer** writes an entry. -/
theorem push (h : Fifo m k slot producer consumer given taken) (hdvd : k ∣ m)
    (hroom : given.length < taken.length + k) (x : α) :
    Fifo m k (Function.update slot (producer % k) x) ((producer + 1) % m) consumer (given ++ [x])
      taken := by
  have hread := h.read
  have hslot : producer % k = given.length % k := by
    rw [h.producer, Nat.mod_mod_of_dvd _ hdvd]
  refine ⟨?_, h.consumer, ?_, ?_, ?_, fun i hlow hhigh => ?_⟩
  · rw [h.producer, List.length_append, Nat.mod_add_mod]
    rfl
  · rw [List.length_append]
    omega
  · rw [List.length_append, List.length_singleton]
    omega
  · rw [List.take_append_of_le_length hread]
    exact h.order
  · rw [List.length_append, List.length_singleton] at hhigh
    rw [hslot]
    by_cases hlast : i = given.length
    · rw [hlast, List.getElem?_concat_length, Function.update_self]
    · have hlt : i < given.length := by omega
      rw [List.getElem?_append_left hlt, h.slots i hlow hlt, Function.update_of_ne]
      -- two entries that wait stand in different slots
      intro heq
      have hmod : i ≡ given.length [MOD k] := heq
      have hdiv := (Nat.modEq_iff_dvd' (Nat.le_of_lt hlt)).mp hmod
      have hle := Nat.le_of_dvd (by omega) hdiv
      omega

/-- The oldest entry that waits. -/
theorem front (h : Fifo m k slot producer consumer given taken) (hdvd : k ∣ m)
    (hne : taken.length ≠ given.length) : given[taken.length]? = some (slot (consumer % k)) := by
  have hread := h.read
  have hslot : consumer % k = taken.length % k := by
    rw [h.consumer, Nat.mod_mod_of_dvd _ hdvd]
  rw [hslot]
  exact h.slots taken.length (Nat.le_refl _) (by omega)

/-- **The consumer** reads the oldest entry. -/
theorem pop (h : Fifo m k slot producer consumer given taken) (hdvd : k ∣ m)
    (hne : taken.length ≠ given.length) :
    Fifo m k slot producer ((consumer + 1) % m) given (taken ++ [slot (consumer % k)]) := by
  have hread := h.read
  have hroom := h.room
  refine ⟨h.producer, ?_, ?_, ?_, ?_, fun i hlow hhigh => h.slots i ?_ hhigh⟩
  · rw [h.consumer, List.length_append, Nat.mod_add_mod]
    rfl
  · rw [List.length_append, List.length_singleton]
    omega
  · rw [List.length_append, List.length_singleton]
    omega
  · rw [List.length_append, List.length_singleton, List.take_add_one, h.front hdvd hne, ← h.order]
    rfl
  · rw [List.length_append, List.length_singleton] at hlow
    omega

end Fifo

end VirtualKernel.Lib
