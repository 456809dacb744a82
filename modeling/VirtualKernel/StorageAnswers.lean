/-
Runs that some hardware makes.

A specification that holds of every answer of the hardware says nothing where no answer
lets the program return.  `Possible` is the counterpart: some answers from now on take the
program to its end.  A program asks the hardware at each moment at most once, so the answers
for its parts can be chosen one after another (`possible_bind`) and are put together into one
hardware in the end (`Possible.run`).

* **`Possible.run`** — what is possible is a run on some hardware;
* **`possible_ataRead`** — an IDE disk may answer with any sectors.
-/
import VirtualKernel.StorageTransport

namespace VirtualKernel

open Lib

/-! ### Choosing the answers -/

/-- The same machine with the hardware `hw`. -/
def Storage.on (s : Storage) (hw : ℕ → StorageReg → ℕ) : Storage := { s with hw := hw }

/-- `m` goes from `s` to `t` with the result `a` on every hardware that gives certain answers
in between. -/
def AnswersLead {α : Type} (m : StorageM α) (s : Storage) (a : α) (t : Storage) : Prop :=
  s.time ≤ t.time ∧ ∃ answers : ℕ → StorageReg → ℕ,
    ∀ hw, (∀ τ, s.time ≤ τ → τ < t.time → hw τ = answers τ) → m.run (s.on hw) = some (a, t.on hw)

/-- With some answers `m` returns, and then `Q` holds. -/
def Possible {α : Type} (m : StorageM α) (s : Storage) (Q : α → Storage → Prop) : Prop :=
  ∃ a t, AnswersLead m s a t ∧ Q a t

section Rules

variable {α β : Type} {m : StorageM α} {f : α → StorageM β} {s : Storage} {Q Q' : α → Storage → Prop}
  {R : β → Storage → Prop}

/-- **What is possible happens on some hardware.** -/
theorem Possible.run (h : Possible m s Q) : ∃ hw a t, m.run (s.on hw) = some (a, t.on hw) ∧ Q a t := by
  obtain ⟨a, t, ⟨-, answers, hrun⟩, hq⟩ := h
  exact ⟨answers, a, t, hrun answers fun _ _ _ => rfl, hq⟩

theorem Possible.mono (h : Possible m s Q) (hQ : ∀ a t, Q a t → Q' a t) : Possible m s Q' := by
  obtain ⟨a, t, hrun, hq⟩ := h
  exact ⟨a, t, hrun, hQ a t hq⟩

theorem possible_pure {a : α} (h : Q a s) : Possible (pure a) s Q :=
  ⟨a, s, ⟨Nat.le_refl _, s.hw, fun _ _ => rfl⟩, h⟩

/-- The answers to the first program come before those to the second. -/
theorem possible_bind (h : Possible m s Q) (hf : ∀ a t, Q a t → Possible (f a) t R) :
    Possible (m >>= f) s R := by
  obtain ⟨a, u, ⟨hle, first, hm⟩, hq⟩ := h
  obtain ⟨b, t, ⟨hle', second, hfa⟩, hr⟩ := hf a u hq
  refine ⟨b, t, ⟨hle.trans hle', fun τ => if τ < u.time then first τ else second τ, fun hw hhw => ?_⟩, hr⟩
  have hfirst : m.run (s.on hw) = some (a, u.on hw) := hm hw fun τ h₁ h₂ =>
    (hhw τ h₁ (Nat.lt_of_lt_of_le h₂ hle')).trans (if_pos h₂)
  have hsecond : (f a).run (u.on hw) = some (b, t.on hw) := hfa hw fun τ h₁ h₂ =>
    (hhw τ (hle.trans h₁) h₂).trans (if_neg (Nat.not_lt.mpr h₁))
  rw [StateT.run_bind, hfirst]
  exact hsecond

/-- A question has every answer of its width. -/
theorem possible_ask {r : StorageReg} {v : ℕ} (hv : v < 2 ^ r.width) {Q : ℕ → Storage → Prop}
    (h : Q v { s with time := s.time + 1 }) : Possible (ask r) s Q := by
  refine ⟨v, _, ⟨Nat.le_succ _, fun _ _ => v, fun hw hhw => ?_⟩, h⟩
  have hanswer : (s.on hw).answer r = v := by
    show hw s.time r % 2 ^ r.width = v
    rw [hhw s.time (Nat.le_refl _) (Nat.lt_succ_self _)]
    exact Nat.mod_eq_of_lt hv
  show some ((s.on hw).answer r, _) = _
  rw [hanswer]
  rfl

/-- A change of the state that neither asks nor takes time. -/
theorem possible_modify {g : Storage → Storage} (hg : ∀ hw, g (s.on hw) = (g s).on hw)
    (ht : (g s).time = s.time) {Q : PUnit → Storage → Prop} (h : Q ⟨⟩ (g s)) :
    Possible (modify g) s Q := by
  refine ⟨⟨⟩, g s, ⟨Nat.le_of_eq ht.symm, s.hw, fun hw _ => ?_⟩, h⟩
  show some (PUnit.unit, g (s.on hw)) = _
  rw [hg]

/-- A program that looks at the state, but not at the hardware. -/
theorem possible_get_bind {f : Storage → StorageM β} (hf : ∀ hw, f (s.on hw) = f s)
    (h : Possible (f s) s R) : Possible (get >>= f) s R := by
  obtain ⟨b, t, ⟨hle, answers, hrun⟩, hr⟩ := h
  refine ⟨b, t, ⟨hle, answers, fun hw hhw => ?_⟩, hr⟩
  show (f (s.on hw)).run (s.on hw) = _
  rw [hf]
  exact hrun hw hhw

/-- A test that succeeds, of a program that gives up otherwise. -/
theorem possible_test {T : Storage → Prop} {test : StorageM Bool} {fail rest : StorageM β}
    (h : Possible test s fun ok t => ok = true ∧ T t) (hrest : ∀ t, T t → Possible rest t R) :
    Possible (test >>= fun ok => if ok = false then fail else rest) s R := by
  refine possible_bind h ?_
  rintro _ t ⟨rfl, ht⟩
  rw [if_neg Bool.false_ne_true.symm]
  exact hrest t ht

end Rules

/-! ### Memory on the way -/

/-- Memory and the base of the controller are what they were. -/
structure Untouched (s t : Storage) : Prop where
  mem : t.mem = s.mem
  ehci : t.ehci = s.ehci

theorem Untouched.refl (s : Storage) : Untouched s s := ⟨rfl, rfl⟩

theorem Untouched.trans {s t u : Storage} (h : Untouched s t) (h' : Untouched t u) : Untouched s u :=
  ⟨h'.mem.trans h.mem, h'.ehci.trans h.ehci⟩

/-- The `n` bytes from `a` on are `bytes`, and the rest is what it was. -/
structure Filled (s t : Storage) (a n : ℕ) (bytes : ℕ → UInt8) : Prop where
  inside : ∀ i < n, t.mem (a + i) = bytes i
  outside : ∀ b, b < a ∨ a + n ≤ b → t.mem b = s.mem b
  ehci : t.ehci = s.ehci

section Filled

variable {s t u : Storage} {a n k : ℕ} {bytes : ℕ → UInt8}

theorem Untouched.filled (h : Untouched s t) : Filled s t a 0 bytes :=
  ⟨fun i hi => absurd hi (Nat.not_lt_zero i), fun b _ => by rw [h.mem], h.ehci⟩

theorem Filled.after (h : Untouched s t) (h' : Filled t u a n bytes) : Filled s u a n bytes :=
  ⟨h'.inside, fun b hb => by rw [h'.outside b hb, h.mem], h'.ehci.trans h.ehci⟩

theorem Filled.before (h : Filled s t a n bytes) (h' : Untouched t u) : Filled s u a n bytes :=
  ⟨fun i hi => by rw [h'.mem, h.inside i hi], fun b hb => by rw [h'.mem, h.outside b hb],
    h'.ehci.trans h.ehci⟩

/-- Two areas that are filled one after the other. -/
theorem Filled.append (h : Filled s t a n bytes)
    (h' : Filled t u (a + n) k fun i => bytes (n + i)) : Filled s u a (n + k) bytes where
  inside i hi := by
    by_cases hn : i < n
    · rw [h'.outside _ (by omega), h.inside i hn]
    · have hrest := h'.inside (i - n) (by omega)
      rwa [show a + n + (i - n) = a + i by omega, show n + (i - n) = i by omega] at hrest
  outside b hb := by rw [h'.outside b (by omega), h.outside b (by omega)]
  ehci := h'.ehci.trans h.ehci

end Filled

/-! ### Steps of the driver -/

section Steps

variable {s : Storage}

theorem possible_issue (o : StorageOut) : Possible (issue o) s fun _ t => Untouched s t :=
  possible_modify (fun _ => rfl) rfl ⟨rfl, rfl⟩

theorem possible_in8 (port : ℕ) {v : ℕ} (hv : v < 2 ^ 8) :
    Possible (in8 port) s fun a t => a = v ∧ Untouched s t :=
  possible_ask hv ⟨rfl, ⟨rfl, rfl⟩⟩

theorem possible_tsc {v : ℕ} (hv : v < 2 ^ 32) : Possible tsc s fun a t => a = v ∧ Untouched s t :=
  possible_ask hv ⟨rfl, ⟨rfl, rfl⟩⟩

theorem possible_pciRead (device offset : ℕ) {v : ℕ} (hv : v < 2 ^ 32) :
    Possible (pciRead device offset) s fun a t => a = v ∧ Untouched s t :=
  possible_ask hv ⟨rfl, ⟨rfl, rfl⟩⟩

theorem possible_storeBytes (a n : ℕ) (bytes : ℕ → UInt8) :
    Possible (storeBytes a n bytes) s fun _ t => Filled s t a n bytes :=
  possible_modify (fun _ => rfl) rfl
    ⟨fun _ hi => overwrite_of_lt hi, fun _ hb => overwrite_of_disjoint hb, rfl⟩

/-- `outb` and what follows. -/
theorem possible_out8_bind {α : Type} {port value : ℕ} {f : PUnit → StorageM α}
    {Q : α → Storage → Prop} (h : ∀ t, Untouched s t → Possible (f ⟨⟩) t Q) :
    Possible (out8 port value >>= f) s Q :=
  possible_bind (possible_issue _) fun _ t ht => h t ht

end Steps

/-! ### An IDE disk -/

section Ata

variable {s : Storage}

theorem possible_ataSettle : Possible ataSettle s fun _ t => Untouched s t := by
  have hloop : ∀ n, Possible (upTo n fun _ => do
      let _ ← in8 ((← get).ataPort + 0x206)
      return ()) s fun _ t => Untouched s t := by
    intro n
    induction n with
    | zero => exact possible_pure (.refl s)
    | succ n ih =>
      refine possible_bind ih fun _ t ht => possible_get_bind (fun _ => rfl) ?_
      exact possible_bind (possible_in8 _ (v := 0) (by decide)) fun _ u hu => possible_pure (ht.trans hu.2)
  exact hloop 4

/-- A status that the driver waits for. -/
theorem possible_ataWait {mask wanted v : ℕ} (hv : v < 2 ^ 8)
    (h : v ≠ 0 ∧ v ≠ 255 ∧ v &&& 0x80 = 0 ∧ v &&& 0x21 = 0 ∧ v &&& mask = wanted) :
    Possible (ataWait mask wanted) s fun ok t => ok = true ∧ Untouched s t := by
  refine possible_get_bind (fun _ => rfl) (possible_bind (possible_in8 _ hv) ?_)
  rintro _ t ⟨rfl, ht⟩
  exact possible_pure ⟨decide_eq_true h, ht⟩

/-- A word from the data port, of two bytes. -/
theorem possible_dataWord (destination : ℕ) (bytes : ℕ → UInt8) :
    Possible (do
      let value ← inData
      store16 destination value) s fun _ t => Filled s t destination 2 bytes := by
  have h0 := (bytes 0).toNat_lt
  have h1 := (bytes 1).toNat_lt
  have hv : (bytes 0).toNat + 2 ^ 8 * (bytes 1).toNat < 2 ^ 16 := by omega
  have hdata : Possible inData s fun a t => a = (bytes 0).toNat + 2 ^ 8 * (bytes 1).toNat ∧
      Untouched s t := by
    refine possible_get_bind (fun _ => rfl) (possible_bind (Q := fun a t =>
      a = (bytes 0).toNat + 2 ^ 8 * (bytes 1).toNat ∧ Untouched s t) (possible_ask hv ⟨rfl, ⟨rfl, rfl⟩⟩) ?_)
    rintro _ t ⟨rfl, ht⟩
    exact possible_bind (Q := fun _ u => Untouched t u) (possible_modify (fun _ => rfl) rfl ⟨rfl, rfl⟩)
      fun _ u hu => possible_pure ⟨rfl, ht.trans hu⟩
  refine possible_bind hdata ?_
  rintro _ t ⟨rfl, ht⟩
  refine (possible_storeBytes _ _ _).mono fun _ u hu => Filled.after ht ⟨fun i hi => ?_, hu.outside, hu.ehci⟩
  rw [hu.inside i hi]
  rcases (by omega : i = 0 ∨ i = 1) with rfl | rfl
  · rw [Nat.mul_zero, Nat.shiftRight_zero, ← UInt8.toNat_inj, UInt8.toNat_ofNat']
    omega
  · rw [Nat.mul_one, Nat.shiftRight_eq_div_pow, ← UInt8.toNat_inj, UInt8.toNat_ofNat']
    omega

/-- A sector from the data port, of any bytes. -/
theorem possible_ataSector (destination : ℕ) (bytes : ℕ → UInt8) :
    Possible (ataSector destination) s fun _ t => Filled s t destination 512 bytes := by
  have hloop : ∀ n, Possible (upTo n fun i => do
      let value ← inData
      store16 (destination + 2 * i) value) s fun _ t => Filled s t destination (2 * n) bytes := by
    intro n
    induction n with
    | zero => exact possible_pure (Untouched.filled (.refl s))
    | succ n ih =>
      refine possible_bind ih fun _ t ht => ?_
      exact (possible_dataWord (destination + 2 * n) fun i => bytes (2 * n + i)).mono fun _ u hu => ht.append hu
  exact hloop 256

/-- Sectors one after another. -/
theorem possible_ataSectors (n : ℕ) : ∀ (s : Storage) (sector : ℕ) (bytes : ℕ → UInt8),
    Possible (ataSectors n sector) s fun ok t =>
      ok = true ∧ Filled s t (transferBuffer + sector * 512) (512 * n) bytes := by
  induction n with
  | zero => exact fun s sector bytes => possible_pure ⟨rfl, Untouched.filled (.refl s)⟩
  | succ n ih =>
    intro s sector bytes
    refine possible_bind possible_ataSettle fun _ t ht => ?_
    refine possible_test (possible_ataWait (v := 0x48) (by decide) (by decide)) fun u hu => ?_
    refine possible_bind (possible_ataSector _ bytes) fun _ v hv => ?_
    refine (ih v (sector + 1) fun i => bytes (512 + i)).mono ?_
    rintro ok w ⟨rfl, hw⟩
    refine ⟨rfl, ?_⟩
    have hplace : transferBuffer + (sector + 1) * 512 = transferBuffer + sector * 512 + 512 := by omega
    rw [hplace] at hw
    rw [show 512 * (n + 1) = 512 + 512 * n by omega]
    exact (Filled.after (ht.trans hu) hv).append hw

/-- **An IDE disk may answer with any sectors.** -/
theorem possible_ataRead {lba blocks : ℕ} (h1 : 1 ≤ blocks) (h2 : blocks ≤ blocksPerRead)
    (hlba : lba + blocks ≤ 2 ^ 28) (bytes : ℕ → UInt8) :
    Possible (ataRead lba blocks) s fun ok t =>
      ok = true ∧ Filled s t transferBuffer (512 * blocks) bytes := by
  have hguard : ¬(blocks = 0 ∨ blocksPerRead < blocks ∨ 0x0FFFFFFF < lba ∨
      0x0FFFFFFF - lba < blocks - 1) := by
    omega
  rw [ataRead, if_neg hguard]
  refine possible_get_bind (fun _ => rfl) ?_
  refine possible_out8_bind fun s₁ h₁ => possible_out8_bind fun s₂ h₂ => ?_
  refine possible_bind possible_ataSettle fun _ s₃ h₃ => ?_
  refine possible_test (possible_ataWait (v := 0x40) (by decide) (by decide)) fun s₄ h₄ => ?_
  refine possible_out8_bind fun s₅ h₅ => possible_out8_bind fun s₆ h₆ => ?_
  refine possible_out8_bind fun s₇ h₇ => possible_out8_bind fun s₈ h₈ => ?_
  refine possible_out8_bind fun s₉ h₉ => ?_
  refine possible_test (possible_ataSectors blocks s₉ 0 bytes) fun t ht => ?_
  refine possible_bind possible_ataSettle fun _ u hu => ?_
  refine (possible_ataWait (v := 0x40) (by decide) (by decide)).mono ?_
  rintro ok w ⟨rfl, hw⟩
  have hsame := (((h₁.trans h₂).trans (h₃.trans h₄)).trans (h₅.trans h₆)).trans ((h₇.trans h₈).trans h₉)
  rw [Nat.zero_mul, Nat.add_zero] at ht
  exact ⟨rfl, ((Filled.after hsame ht).before hu).before hw⟩

end Ata

end VirtualKernel
