/-
Keys that stay down after input has been lost.

A keyboard sends whole Set-1 sequences, byte by byte; the interrupt handler may
drop any byte, and services run between any two bytes.  A service that finds
that bytes have been lost forgets everything and goes on with the byte that
comes next.  `keys_released` says that no key stays down when this byte is not
the rest of a sequence whose beginning was thrown away, or is a release code;
`stuckRun` is a run in which the rest of a sequence of two bytes is taken for a
key of its own, which stays down.
-/
import VirtualKernel.KeyboardDriver
import Mathlib.Data.Finset.Card
import Mathlib.Data.Finset.Range

namespace VirtualKernel

open Lib

/-! ### The keyboard -/

/-- The codes of keys in Set 1: the release code is never one of the prefixes
`E0h` and `E1h`. -/
structure ScanCode where
  val : ℕ
  lt : val < 128
  not_lead : val ≠ 0x60 ∧ val ≠ 0x61

/-- A key goes down or up, or Pause is pressed. -/
inductive KeyEvent
  | plain (code : ScanCode) (pressed : Bool)
  | extended (code : ScanCode) (pressed : Bool)
  | pause

/-- The byte of a code. -/
def ScanCode.byte (code : ScanCode) (pressed : Bool) : ℕ :=
  if pressed then code.val else code.val + 128

/-- The bytes that the keyboard sends. -/
def KeyEvent.bytes : KeyEvent → List ℕ
  | .plain code pressed => [code.byte pressed]
  | .extended code pressed => [0xE0, code.byte pressed]
  | .pause => [0xE1, 0x1D, 0x45, 0xE1, 0x9D, 0xC5]

/-- The keys held after an event, by the numbers of the driver.  The codes
`E0 2A` and `E0 36` are sent around other keys and belong to no key. -/
def KeyEvent.hold (held : ℕ → Bool) : KeyEvent → ℕ → Bool
  | .plain code pressed => Function.update held code.val pressed
  | .extended code pressed =>
    if code.val = 0x2A ∨ code.val = 0x36 then held
    else Function.update held (code.val + 128) pressed
  | .pause => held

/-- The keys held after the first `i` events. -/
def heldAfter (events : ℕ → KeyEvent) : ℕ → ℕ → Bool
  | 0 => fun _ => false
  | i + 1 => (events i).hold (heldAfter events i)

/-! ### Runs -/

/-- An interrupt that finds `status` in the status port, or a service. -/
inductive KeyStep
  | interrupt (status : ℕ)
  | service (cs operation key : ℕ)

/-- The keyboard and the driver: `next` is the next event to be sent, `rest` the
bytes still to come of the one before it. -/
structure KeySystem where
  driver : KeyboardShared
  next : ℕ
  rest : List ℕ

/-- A byte of the keyboard is in the data port. -/
def FromKeyboard (status : ℕ) : Prop := status &&& 0x01 ≠ 0 ∧ status &&& 0x20 = 0

instance (status : ℕ) : Decidable (FromKeyboard status) := inferInstanceAs (Decidable (_ ∧ _))

/-- The sequence that the keyboard is sending. -/
def KeySystem.sending (events : ℕ → KeyEvent) (s : KeySystem) : List ℕ :=
  if s.rest = [] then (events s.next).bytes else s.rest

/-- One step. -/
def KeyStep.exec (events : ℕ → KeyEvent) (s : KeySystem) : KeyStep → KeySystem
  | .interrupt status =>
    if FromKeyboard status then
      { driver := ps2KeyboardInterrupt s.driver status ((s.sending events).headD 0)
        next := if s.rest = [] then s.next + 1 else s.next
        rest := (s.sending events).tail }
    else { s with driver := ps2KeyboardInterrupt s.driver status 0 }
  | .service cs operation key =>
    match keyboardDriverService s.driver cs operation key with
    | none => s
    | some (_, driver) => { s with driver := driver }

/-- The state before step `n`. -/
def keyAt (events : ℕ → KeyEvent) (steps : ℕ → KeyStep) : ℕ → KeySystem
  | 0 => ⟨KeyboardShared.zero, 0, []⟩
  | n + 1 => (steps n).exec events (keyAt events steps n)

/-- The interrupt drops the byte that it reads. -/
def Drops (s : KeySystem) (status : ℕ) : Prop :=
  FromKeyboard status ∧ (status &&& 0xC0 ≠ 0 ∨ keyboardNext s.driver.head = s.driver.tail)

instance (s : KeySystem) (status : ℕ) : Decidable (Drops s status) :=
  inferInstanceAs (Decidable (_ ∧ _))

/-- The bytes dropped since the last service. -/
def dropsSince (events : ℕ → KeyEvent) (steps : ℕ → KeyStep) : ℕ → ℕ
  | 0 => 0
  | n + 1 =>
    match steps n with
    | .interrupt status =>
      dropsSince events steps n + if Drops (keyAt events steps n) status then 1 else 0
    | .service _ _ _ => 0

/-- **No key stays stuck**: after a service that leaves every sequence complete
and every key released, the driver has no key down. -/
def NoStuckKey (events : ℕ → KeyEvent) (steps : ℕ → KeyStep) (n : ℕ) : Prop :=
  ∀ cs operation key, steps n = .service cs operation key →
    (keyAt events steps (n + 1)).rest = [] →
    (∀ k, heldAfter events (keyAt events steps (n + 1)).next k = false) →
    (keyAt events steps (n + 1)).driver.downCount = 0 ∧
      ∀ k < 256, (keyAt events steps (n + 1)).driver.down k = 0

/-- A byte that changes no key when nothing is down: a release code, or one of
the codes that stand for an error of the keyboard. -/
def Harmless (byte : ℕ) : Prop :=
  byte ≠ 0xE0 ∧ byte ≠ 0xE1 ∧ (byte &&& 0x80 ≠ 0 ∨ byte &&& 0x7F = 0 ∨ byte &&& 0x7F = 0x7F)

/-- A service that finds a loss comes at a good moment: what is left of the
sequence being sent is harmless, and the counter of the losses has not come
round. -/
def GoodMoment (events : ℕ → KeyEvent) (steps : ℕ → KeyStep) (n : ℕ) : Prop :=
  ∀ cs operation key, steps n = .service cs operation key → dropsSince events steps n ≠ 0 →
    dropsSince events steps n % 2 ^ 32 ≠ 0 ∧ ∀ b ∈ (keyAt events steps n).rest, Harmless b

/-! ### Decoding -/

theorem ScanCode.byte_spec (code : ScanCode) (pressed : Bool) :
    code.byte pressed ≠ 0xE0 ∧ code.byte pressed ≠ 0xE1 ∧ code.byte pressed &&& 0x7F = code.val ∧
      decide (code.byte pressed &&& 0x80 = 0) = pressed := by
  have hlt := code.lt
  obtain ⟨h60, h61⟩ := code.not_lead
  have hmask : code.byte pressed &&& 0x7F = code.byte pressed % 128 :=
    Nat.and_two_pow_sub_one_eq_mod _ 7
  have hbit : code.byte pressed &&& 0x80 = ((code.byte pressed).testBit 7).toNat * 2 ^ 7 :=
    Nat.and_two_pow _ 7
  rw [hmask, hbit, Nat.testBit_eq_decide_div_mod_eq]
  cases pressed with
  | false =>
    have hb : code.byte false = code.val + 128 := rfl
    have hdiv : (code.val + 128) / 2 ^ 7 % 2 = 1 := by omega
    rw [hb, hdiv]
    refine ⟨by omega, by omega, by omega, by decide⟩
  | true =>
    have hb : code.byte true = code.val := rfl
    have hdiv : code.val / 2 ^ 7 % 2 = 0 := by omega
    rw [hb, hdiv]
    refine ⟨by omega, by omega, by omega, by decide⟩

/-- The counter of the keys that are down is right. -/
def Counted (d : KeyboardShared) : Prop :=
  d.downCount = ((Finset.range 256).filter fun k => d.down k ≠ 0).card

theorem Counted.le {d : KeyboardShared} (h : Counted d) : d.downCount ≤ 256 := by
  rw [h]
  exact (Finset.card_filter_le _ _).trans (by simp)

/-- **What a key does**: nothing, or it goes down and is counted, or it goes up and is counted
no more; the counter does not wrap. -/
theorem keyboardSetKey_cases {d : KeyboardShared} (h : Counted d) {key : ℕ} (hkey : key < 256)
    (pressed : Bool) :
    (keyboardSetKey d key pressed = d ∧
      (key = 0 ∨ key = 0x7F ∨ (pressed = true ↔ d.down key ≠ 0))) ∨
    (key ≠ 0 ∧ key ≠ 0x7F ∧ pressed = true ∧ d.down key = 0 ∧
      keyboardSetKey d key pressed =
        { d with down := Function.update d.down key 1, downCount := d.downCount + 1 }) ∨
    (key ≠ 0 ∧ key ≠ 0x7F ∧ pressed = false ∧ d.down key ≠ 0 ∧ 0 < d.downCount ∧
      keyboardSetKey d key pressed =
        { d with down := Function.update d.down key 0, downCount := d.downCount - 1 }) := by
  have hle := h.le
  rw [keyboardSetKey]
  split_ifs with h0 h1 h2
  · exact .inl ⟨rfl, h0.imp_right .inl⟩
  · refine .inr (.inl ⟨fun hk => h0 (.inl hk), fun hk => h0 (.inr hk), h1.1, h1.2, ?_⟩)
    rw [Nat.mod_eq_of_lt (by omega)]
  · have hmem : key ∈ (Finset.range 256).filter fun k => d.down k ≠ 0 := by simp [hkey, h2.2]
    have hpos := Finset.card_pos.mpr ⟨key, hmem⟩
    rw [← h] at hpos
    refine .inr (.inr ⟨fun hk => h0 (.inl hk), fun hk => h0 (.inr hk), Bool.not_eq_true _ ▸ h2.1,
      h2.2, hpos, ?_⟩)
    rw [sub32_of_le (by omega) (by omega)]
  · refine .inl ⟨rfl, .inr (.inr ?_)⟩
    cases pressed with
    | false => simpa using h2
    | true => simpa using h1

/-- A key that goes down or up is counted. -/
theorem Counted.setKey {d : KeyboardShared} (h : Counted d) {key : ℕ} (hkey : key < 256)
    (pressed : Bool) : Counted (keyboardSetKey d key pressed) := by
  rcases keyboardSetKey_cases h hkey pressed with
    ⟨heq, -⟩ | ⟨-, -, -, hup, heq⟩ | ⟨-, -, -, hdown, -, heq⟩
  · rw [heq]
    exact h
  · have hset : ((Finset.range 256).filter fun k => Function.update d.down key 1 k ≠ 0) =
        insert key ((Finset.range 256).filter fun k => d.down k ≠ 0) := by
      ext k
      by_cases hk : k = key
      · subst hk
        simp [hkey]
      · simp [hk]
    rw [heq, Counted]
    dsimp only
    rw [hset, Finset.card_insert_of_notMem (by simp [hup]), ← h]
  · have hset : ((Finset.range 256).filter fun k => Function.update d.down key 0 k ≠ 0) =
        ((Finset.range 256).filter fun k => d.down k ≠ 0).erase key := by
      ext k
      by_cases hk : k = key
      · subst hk
        simp
      · simp [hk]
    rw [heq, Counted]
    dsimp only
    rw [hset, Finset.card_erase_of_mem (by simp [hkey, hdown]), ← h]

/-- The decoder between two sequences, with only keys down that are held. -/
structure Clean (d : KeyboardShared) (held : ℕ → Bool) : Prop where
  extended : d.extended = 0
  pause : d.pauseRemaining = 0
  down : ∀ k < 256, d.down k ≠ 0 → held k = true ∧ k ≠ 0 ∧ k ≠ 0x7F
  count : d.downCount = ((Finset.range 256).filter fun k => d.down k ≠ 0).card

namespace Clean

variable {d : KeyboardShared} {held : ℕ → Bool}

/-- Nothing held, nothing down. -/
theorem released (C : Clean d held) (h : ∀ k, held k = false) :
    d.downCount = 0 ∧ ∀ k < 256, d.down k = 0 := by
  have hdown : ∀ k < 256, d.down k = 0 := by
    intro k hlt
    by_contra hk
    have hk' := (C.down k hlt hk).1
    rw [h k] at hk'
    exact Bool.false_ne_true hk'
  refine ⟨?_, hdown⟩
  rw [C.count, Finset.card_eq_zero, Finset.filter_eq_empty_iff]
  exact fun k hlt hk => hk (hdown k (Finset.mem_range.mp hlt))

/-- A key of the driver goes down or up. -/
theorem setKey (C : Clean d held) {key : ℕ} (hkey : key < 256) (pressed : Bool) :
    Clean (keyboardSetKey d key pressed) (Function.update held key pressed) := by
  have hcount := Counted.setKey C.count hkey pressed
  have hother : ∀ k < 256, k ≠ key → d.down k ≠ 0 →
      Function.update held key pressed k = true ∧ k ≠ 0 ∧ k ≠ 0x7F := by
    intro k hlt hk hdown
    rw [Function.update_of_ne hk]
    exact C.down k hlt hdown
  rcases keyboardSetKey_cases C.count hkey pressed with
    ⟨heq, hsame⟩ | ⟨h0, h7F, rfl, -, heq⟩ | ⟨-, -, -, -, -, heq⟩
  · rw [heq] at hcount ⊢
    refine ⟨C.extended, C.pause, fun k hlt hdown => ?_, hcount⟩
    by_cases hk : k = key
    · subst hk
      obtain ⟨-, h0, h7F⟩ := C.down k hlt hdown
      rw [Function.update_self]
      exact ⟨((hsame.resolve_left h0).resolve_left h7F).mpr hdown, h0, h7F⟩
    · exact hother k hlt hk hdown
  · rw [heq] at hcount ⊢
    refine ⟨C.extended, C.pause, fun k hlt hdown => ?_, hcount⟩
    by_cases hk : k = key
    · subst hk
      rw [Function.update_self]
      exact ⟨rfl, h0, h7F⟩
    · dsimp only at hdown
      rw [Function.update_of_ne hk] at hdown
      exact hother k hlt hk hdown
  · rw [heq] at hcount ⊢
    refine ⟨C.extended, C.pause, fun k hlt hdown => ?_, hcount⟩
    have hk : k ≠ key := by
      rintro rfl
      exact hdown (Function.update_self _ _ _)
    dsimp only at hdown
    rw [Function.update_of_ne hk] at hdown
    exact hother k hlt hk hdown

/-- A byte of a key between two sequences. -/
theorem decode_key (C : Clean d held) (code : ScanCode) (pressed : Bool) :
    keyboardDecodeByte d (code.byte pressed) = keyboardSetKey d code.val pressed := by
  obtain ⟨h1, h2, h3, h4⟩ := code.byte_spec pressed
  rw [keyboardDecodeByte, if_neg (not_not.mpr C.pause), if_neg h2, if_neg h1]
  dsimp only
  rw [if_neg (not_not.mpr C.extended), h3, h4]

/-- A byte of a key after `E0h`. -/
theorem decode_extended (C : Clean d held) (code : ScanCode) (pressed : Bool) :
    [0xE0, code.byte pressed].foldl keyboardDecodeByte d =
      if code.val = 0x2A ∨ code.val = 0x36 then d
      else keyboardSetKey d (code.val + 128) pressed := by
  obtain ⟨h1, h2, h3, h4⟩ := code.byte_spec pressed
  have hlead : keyboardDecodeByte d 0xE0 = { d with extended := 1 } := by
    rw [keyboardDecodeByte, if_neg (not_not.mpr C.pause), if_neg (by decide), if_pos rfl]
  have hback : { d with extended := 0 } = d := by
    rw [← C.extended]
  rw [List.foldl_cons, List.foldl_cons, List.foldl_nil, hlead, keyboardDecodeByte,
    if_neg (not_not.mpr C.pause), if_neg h2, if_neg h1]
  dsimp only
  rw [if_pos Nat.one_ne_zero, h3, h4, hback]

/-- Pause is swallowed. -/
theorem decode_pause (C : Clean d held) :
    KeyEvent.pause.bytes.foldl keyboardDecodeByte d = d := by
  have hlead : keyboardDecodeByte d 0xE1 = { d with pauseRemaining := 5, extended := 0 } := by
    rw [keyboardDecodeByte, if_neg (not_not.mpr C.pause), if_pos rfl]
  have hback : { d with extended := 0, pauseRemaining := 0 } = d := by
    have he := C.extended
    have hp := C.pause
    cases d
    dsimp only at he hp
    rw [he, hp]
  rw [KeyEvent.bytes, List.foldl_cons, hlead]
  exact hback

/-- **A whole sequence** takes a clean decoder to a clean decoder. -/
theorem event (C : Clean d held) (e : KeyEvent) :
    Clean (e.bytes.foldl keyboardDecodeByte d) (e.hold held) := by
  cases e with
  | plain code pressed =>
    have hlt := code.lt
    rw [KeyEvent.bytes, List.foldl_cons, List.foldl_nil, C.decode_key]
    exact C.setKey (by omega) pressed
  | extended code pressed =>
    have hlt := code.lt
    rw [KeyEvent.bytes, C.decode_extended, KeyEvent.hold]
    split_ifs
    · exact C
    · exact C.setKey (by omega) pressed
  | pause =>
    rw [C.decode_pause]
    exact C

/-- After a flush, harmless bytes leave every key up. -/
theorem harmless (C : Clean d held) (hup : ∀ k < 256, d.down k = 0) : ∀ {bytes : List ℕ},
    (∀ b ∈ bytes, Harmless b) → bytes.foldl keyboardDecodeByte d = d
  | [], _ => rfl
  | b :: bytes, h => by
    obtain ⟨h1, h2, h3⟩ := h b List.mem_cons_self
    have hb : keyboardDecodeByte d b = d := by
      rw [keyboardDecodeByte, if_neg (not_not.mpr C.pause), if_neg h2, if_neg h1]
      dsimp only
      rw [if_neg (not_not.mpr C.extended), keyboardSetKey]
      split_ifs with h4 h5 h6
      · rfl
      · rcases h3 with h3 | h3
        · exact absurd (of_decide_eq_true h5.1) h3
        · exact absurd h3 h4
      · exact absurd (hup _ (Nat.lt_of_le_of_lt Nat.and_le_right (by decide))) h6.2
      · rfl
    rw [List.foldl_cons, hb]
    exact harmless C hup fun b' hb' => h b' (List.mem_cons_of_mem b hb')

end Clean

/-! ### The queue -/

/-- Two states with the same decoder. -/
structure SameKeys (s s' : KeyboardShared) : Prop where
  extended : s.extended = s'.extended
  pause : s.pauseRemaining = s'.pauseRemaining
  count : s.downCount = s'.downCount
  down : s.down = s'.down

/-- Two states with the same queue. -/
structure SameQueue (s s' : KeyboardShared) : Prop where
  lock : s.lock = s'.lock
  head : s.head = s'.head
  tail : s.tail = s'.tail
  dropped : s.dropped = s'.dropped
  observed : s.observedDropped = s'.observedDropped
  bytes : s.bytes = s'.bytes

theorem SameKeys.trans {s s' s'' : KeyboardShared} (h : SameKeys s s') (h' : SameKeys s' s'') :
    SameKeys s s'' :=
  ⟨h.extended.trans h'.extended, h.pause.trans h'.pause, h.count.trans h'.count,
    h.down.trans h'.down⟩

theorem SameKeys.clean {s s' : KeyboardShared} {held : ℕ → Bool} (h : SameKeys s s')
    (C : Clean s' held) : Clean s held where
  extended := h.extended.trans C.extended
  pause := h.pause.trans C.pause
  down := by
    rw [h.down]
    exact C.down
  count := by
    rw [h.down, h.count]
    exact C.count

theorem SameKeys.setKey {s s' : KeyboardShared} (h : SameKeys s s') (key : ℕ) (pressed : Bool) :
    SameKeys (keyboardSetKey s key pressed) (keyboardSetKey s' key pressed) := by
  rw [keyboardSetKey, keyboardSetKey, h.down, h.count]
  split_ifs
  · exact h
  · exact ⟨h.extended, h.pause, rfl, rfl⟩
  · exact ⟨h.extended, h.pause, rfl, rfl⟩
  · exact h

theorem SameKeys.decode {s s' : KeyboardShared} (h : SameKeys s s') (b : ℕ) :
    SameKeys (keyboardDecodeByte s b) (keyboardDecodeByte s' b) := by
  rw [keyboardDecodeByte, keyboardDecodeByte, h.pause, h.extended]
  have h' : SameKeys { s with extended := 0, pauseRemaining := s'.pauseRemaining }
      { s' with extended := 0 } := ⟨rfl, rfl, h.count, h.down⟩
  dsimp only
  split_ifs
  · exact ⟨rfl, rfl, h.count, h.down⟩
  · exact ⟨rfl, rfl, h.count, h.down⟩
  · exact ⟨rfl, rfl, h.count, h.down⟩
  · exact h'
  · exact h'.setKey _ _
  · exact h.setKey _ _

theorem SameKeys.foldl {s s' : KeyboardShared} (h : SameKeys s s') (bytes : List ℕ) :
    SameKeys (bytes.foldl keyboardDecodeByte s) (bytes.foldl keyboardDecodeByte s') := by
  induction bytes generalizing s s' with
  | nil => exact h
  | cons b bytes ih => exact ih (h.decode b)

theorem sameQueue_setKey (s : KeyboardShared) (key : ℕ) (pressed : Bool) :
    SameQueue (keyboardSetKey s key pressed) s := by
  rw [keyboardSetKey]
  split_ifs <;> exact ⟨rfl, rfl, rfl, rfl, rfl, rfl⟩

theorem sameQueue_decode (s : KeyboardShared) (b : ℕ) : SameQueue (keyboardDecodeByte s b) s := by
  rw [keyboardDecodeByte]
  dsimp only
  split_ifs
  · exact ⟨rfl, rfl, rfl, rfl, rfl, rfl⟩
  · exact ⟨rfl, rfl, rfl, rfl, rfl, rfl⟩
  · exact ⟨rfl, rfl, rfl, rfl, rfl, rfl⟩
  · exact ⟨rfl, rfl, rfl, rfl, rfl, rfl⟩
  · have h := sameQueue_setKey { s with extended := 0 } ((b &&& 127) + 128) (decide (b &&& 128 = 0))
    exact ⟨h.lock, h.head, h.tail, h.dropped, h.observed, h.bytes⟩
  · exact sameQueue_setKey s _ _

/-- The bytes in the ring, oldest first. -/
def KeyboardShared.queued (s : KeyboardShared) : List ℕ :=
  ringList keyboardQueueSize s.bytes s.tail s.head

theorem keyboardNext_eq {i : ℕ} (hi : i < 256) : keyboardNext i = (i + 1) % 256 := by
  rw [keyboardNext, Nat.mod_eq_of_lt (by omega)]
  exact Nat.and_two_pow_sub_one_eq_mod (i + 1) 8

theorem keyboardNext_lt {i : ℕ} (hi : i < 256) : keyboardNext i < 256 := by
  rw [keyboardNext_eq hi]
  exact Nat.mod_lt _ (by decide)

/-- **The loop** decodes the whole ring. -/
theorem keyboardDecodeLoop_spec : ∀ (remaining : ℕ) (s : KeyboardShared), s.tail < 256 →
    s.head < 256 → s.queued.length ≤ remaining →
    SameKeys (keyboardDecodeLoop remaining s) (s.queued.foldl keyboardDecodeByte s) ∧
      SameQueue (keyboardDecodeLoop remaining s) { s with tail := s.head } := by
  intro remaining
  induction remaining with
  | zero =>
    intro s ht hh hlen
    have hnil : s.queued = [] := List.length_eq_zero_iff.mp (by omega)
    have hth : s.tail = s.head := (ringList_eq_nil ht hh).mp hnil
    rw [hnil]
    exact ⟨⟨rfl, rfl, rfl, rfl⟩, ⟨rfl, rfl, hth, rfl, rfl, rfl⟩⟩
  | succ remaining ih =>
    intro s ht hh hlen
    rw [keyboardDecodeLoop]
    by_cases hth : s.tail = s.head
    · have hnil : s.queued = [] := (ringList_eq_nil ht hh).mpr hth
      rw [if_pos hth, hnil]
      exact ⟨⟨rfl, rfl, rfl, rfl⟩, ⟨rfl, rfl, hth, rfl, rfl, rfl⟩⟩
    rw [if_neg hth]
    dsimp only
    have hpop : s.queued = s.bytes s.tail :: ringList 256 s.bytes ((s.tail + 1) % 256) s.head :=
      ringList_pop ht hh hth
    set s' := keyboardDecodeByte { s with tail := keyboardNext s.tail } (s.bytes s.tail) with hs'
    have hq : SameQueue s' { s with tail := keyboardNext s.tail } := sameQueue_decode _ _
    have hrest : s'.queued = ringList 256 s.bytes ((s.tail + 1) % 256) s.head := by
      rw [KeyboardShared.queued, hq.bytes, hq.tail, hq.head, ← keyboardNext_eq ht]
    have hlen' : s'.queued.length ≤ remaining := by
      rw [hpop, List.length_cons] at hlen
      rw [hrest]
      omega
    obtain ⟨hkeys, hqueue⟩ := ih s' (by rw [hq.tail]; exact keyboardNext_lt ht)
      (by rw [hq.head]; exact hh) hlen'
    have hbase : SameKeys { s with tail := keyboardNext s.tail } s := ⟨rfl, rfl, rfl, rfl⟩
    have hsame : SameKeys s' (keyboardDecodeByte s (s.bytes s.tail)) := hbase.decode _
    constructor
    · rw [hpop, List.foldl_cons, ← hrest]
      exact hkeys.trans (hsame.foldl s'.queued)
    · exact ⟨hqueue.lock.trans hq.lock, hqueue.head.trans hq.head, hqueue.tail.trans hq.head,
        hqueue.dropped.trans hq.dropped, hqueue.observed.trans hq.observed,
        hqueue.bytes.trans hq.bytes⟩

/-- A service that nobody preempts. -/
theorem keyboardDriverService_spec {s : KeyboardShared} (hl : s.lock = 0) (ht : s.tail < 256)
    (hh : s.head < 256) (cs operation key : ℕ) :
    ∃ r s', keyboardDriverService s cs operation key = some (r, s') ∧ s'.lock = 0 ∧
      s'.head = s.head ∧ s'.tail = s.head ∧ s'.dropped = s.dropped ∧ s'.observedDropped = s.dropped ∧
      (s.observedDropped = s.dropped → SameKeys s' (s.queued.foldl keyboardDecodeByte s)) ∧
      (s.observedDropped ≠ s.dropped → SameKeys s' (keyboardFlush s)) := by
  rw [keyboardDriverService, if_neg (not_not.mpr hl)]
  dsimp only
  set s₁ : KeyboardShared :=
    { s with lock := 1, lastCpl := cs &&& 3, calls := (s.calls + 1) % 2 ^ 32 } with hs₁
  refine ⟨_, _, rfl, rfl, ?_⟩
  dsimp only
  rw [keyboardProcessQueue]
  by_cases hd : s.observedDropped = s.dropped
  · have hd₁ : ¬s₁.observedDropped ≠ s₁.dropped := not_not.mpr hd
    rw [if_neg hd₁]
    obtain ⟨hkeys, hqueue⟩ := keyboardDecodeLoop_spec keyboardQueueSize s₁ ht hh (by
      rw [KeyboardShared.queued, length_ringList]
      exact Nat.le_of_lt (ringCount_lt (by decide)))
    have hfold : SameKeys (s₁.queued.foldl keyboardDecodeByte s₁)
        (s.queued.foldl keyboardDecodeByte s) :=
      SameKeys.foldl (show SameKeys s₁ s from ⟨rfl, rfl, rfl, rfl⟩) _
    have hdone := hkeys.trans hfold
    exact ⟨hqueue.head, hqueue.tail, hqueue.dropped, hqueue.observed.trans hd,
      fun _ => ⟨hdone.extended, hdone.pause, hdone.count, hdone.down⟩, fun h => absurd hd h⟩
  · have hd₁ : s₁.observedDropped ≠ s₁.dropped := hd
    rw [if_pos hd₁]
    have hnil : (keyboardFlush s₁).queued = [] := ringList_self hh
    obtain ⟨hkeys, hqueue⟩ := keyboardDecodeLoop_spec keyboardQueueSize (keyboardFlush s₁) hh hh (by
      rw [hnil]
      exact Nat.zero_le _)
    rw [hnil] at hkeys
    exact ⟨hqueue.head, hqueue.tail, hqueue.dropped, hqueue.observed, fun h => absurd h hd,
      fun _ => ⟨hkeys.extended, hkeys.pause, hkeys.count, hkeys.down⟩⟩

/-! ### Runs -/

/-- What a run keeps: unless bytes were lost since the last service, decoding
what is queued and what is still to come of the sequence being sent leads to a
clean decoder. -/
structure KeyInv (events : ℕ → KeyEvent) (steps : ℕ → KeyStep) (n : ℕ) : Prop where
  lock : (keyAt events steps n).driver.lock = 0
  head : (keyAt events steps n).driver.head < 256
  tail : (keyAt events steps n).driver.tail < 256
  observed : (keyAt events steps n).driver.observedDropped < 2 ^ 32
  dropped : (keyAt events steps n).driver.dropped =
    ((keyAt events steps n).driver.observedDropped + dropsSince events steps n) % 2 ^ 32
  clean : dropsSince events steps n = 0 →
    Clean (((keyAt events steps n).driver.queued ++ (keyAt events steps n).rest).foldl
      keyboardDecodeByte (keyAt events steps n).driver)
      (heldAfter events (keyAt events steps n).next)

section Step

variable {events : ℕ → KeyEvent} {steps : ℕ → KeyStep} {n : ℕ}

theorem KeyEvent.bytes_ne_nil (e : KeyEvent) : e.bytes ≠ [] := by
  cases e <;> simp [KeyEvent.bytes]

theorem keyInv_zero : KeyInv events steps 0 where
  lock := rfl
  head := show 0 < 256 by decide
  tail := show 0 < 256 by decide
  observed := show 0 < 2 ^ 32 by decide
  dropped := rfl
  clean := by
    intro _
    have hnil : (keyAt events steps 0).driver.queued = [] :=
      ringList_self (show 0 < 256 by decide)
    rw [hnil]
    refine ⟨rfl, rfl, fun k _ hk => absurd rfl hk, ?_⟩
    show 0 = _
    rw [eq_comm, Finset.card_eq_zero, Finset.filter_eq_empty_iff]
    exact fun k _ hk => hk rfl

theorem keyAt_interrupt {status : ℕ} (h : steps n = .interrupt status)
    (hf : FromKeyboard status) :
    keyAt events steps (n + 1) =
      { driver := ps2KeyboardInterrupt (keyAt events steps n).driver status
          (((keyAt events steps n).sending events).headD 0)
        next := if (keyAt events steps n).rest = [] then (keyAt events steps n).next + 1
          else (keyAt events steps n).next
        rest := ((keyAt events steps n).sending events).tail } := by
  rw [keyAt, h]
  exact if_pos hf

theorem dropsSince_interrupt {status : ℕ} (h : steps n = .interrupt status) :
    dropsSince events steps (n + 1) =
      dropsSince events steps n + if Drops (keyAt events steps n) status then 1 else 0 := by
  rw [dropsSince, h]

namespace KeyInv

/-- An interrupt without a byte of the keyboard. -/
theorem step_other (I : KeyInv events steps n) {status : ℕ} (h : steps n = .interrupt status)
    (hf : ¬FromKeyboard status) : KeyInv events steps (n + 1) := by
  have hkeep : ps2KeyboardInterrupt (keyAt events steps n).driver status 0 =
      (keyAt events steps n).driver := by
    rw [ps2KeyboardInterrupt]
    by_cases h1 : status &&& 0x01 = 0
    · rw [if_pos h1]
    · rw [if_neg h1, if_pos fun h2 => hf ⟨h1, h2⟩]
  have hat : keyAt events steps (n + 1) = keyAt events steps n := by
    rw [keyAt, h]
    refine (if_neg hf).trans ?_
    rw [hkeep]
  have hdrops : dropsSince events steps (n + 1) = dropsSince events steps n := by
    rw [dropsSince_interrupt h, if_neg fun hd => hf hd.1]
    rfl
  constructor
  · rw [hat]; exact I.lock
  · rw [hat]; exact I.head
  · rw [hat]; exact I.tail
  · rw [hat]; exact I.observed
  · rw [hat, hdrops]; exact I.dropped
  · rw [hat, hdrops]; exact I.clean

/-- A byte that is lost. -/
theorem step_drop (I : KeyInv events steps n) {status : ℕ} (h : steps n = .interrupt status)
    (hd : Drops (keyAt events steps n) status) : KeyInv events steps (n + 1) := by
  have hdriver : (keyAt events steps (n + 1)).driver = { (keyAt events steps n).driver with
      dropped := ((keyAt events steps n).driver.dropped + 1) % 2 ^ 32 } := by
    rw [keyAt_interrupt h hd.1]
    dsimp only
    rw [ps2KeyboardInterrupt, if_neg hd.1.1, if_neg (not_not.mpr hd.1.2)]
    by_cases herr : status &&& 0xC0 ≠ 0
    · rw [if_pos herr]
    · rw [if_neg herr, if_pos (hd.2.resolve_left herr)]
  have hdrops : dropsSince events steps (n + 1) = dropsSince events steps n + 1 := by
    rw [dropsSince_interrupt h, if_pos hd]
  constructor
  · rw [hdriver]; exact I.lock
  · rw [hdriver]; exact I.head
  · rw [hdriver]; exact I.tail
  · rw [hdriver]; exact I.observed
  · rw [hdriver, hdrops]
    dsimp only
    rw [I.dropped]
    omega
  · rw [hdrops]
    exact fun h0 => absurd h0 (Nat.succ_ne_zero _)

/-- A byte that is queued: what is queued and still to come is the same list, or
a whole sequence longer. -/
theorem step_queue (I : KeyInv events steps n) {status : ℕ} (h : steps n = .interrupt status)
    (hf : FromKeyboard status) (hd : ¬Drops (keyAt events steps n) status) :
    KeyInv events steps (n + 1) := by
  set s := keyAt events steps n with hs
  have hok : ¬(status &&& 0xC0 ≠ 0) ∧ ¬keyboardNext s.driver.head = s.driver.tail :=
    not_or.mp fun h' => hd ⟨hf, h'⟩
  have hdriver : (keyAt events steps (n + 1)).driver = { s.driver with
      bytes := Function.update s.driver.bytes s.driver.head ((s.sending events).headD 0)
      head := keyboardNext s.driver.head } := by
    rw [keyAt_interrupt h hf]
    dsimp only
    rw [ps2KeyboardInterrupt, if_neg hf.1, if_neg (not_not.mpr hf.2), if_neg hok.1, if_neg hok.2]
  have hrest : (keyAt events steps (n + 1)).rest = (s.sending events).tail := by
    rw [keyAt_interrupt h hf]
  have hnext : (keyAt events steps (n + 1)).next =
      if s.rest = [] then s.next + 1 else s.next := by
    rw [keyAt_interrupt h hf]
  have hdrops : dropsSince events steps (n + 1) = dropsSince events steps n := by
    rw [dropsSince_interrupt h, if_neg hd]
    rfl
  have hqueued : (keyAt events steps (n + 1)).driver.queued =
      s.driver.queued ++ [(s.sending events).headD 0] := by
    rw [hdriver, KeyboardShared.queued, keyboardNext_eq I.head]
    refine ringList_push I.tail I.head ?_ _
    rw [← keyboardNext_eq I.head]
    exact hok.2
  have hne : s.sending events ≠ [] := by
    rw [KeySystem.sending]
    split_ifs with h0
    · exact (events s.next).bytes_ne_nil
    · exact h0
  -- the byte moves from the sequence to the queue
  have hstream : (keyAt events steps (n + 1)).driver.queued ++ (keyAt events steps (n + 1)).rest =
      s.driver.queued ++ s.sending events := by
    rw [hqueued, hrest, List.append_assoc, List.singleton_append]
    congr 1
    cases hsend : s.sending events with
    | nil => exact absurd hsend hne
    | cons b rest => rfl
  constructor
  · rw [hdriver]; exact I.lock
  · rw [hdriver]; exact keyboardNext_lt I.head
  · rw [hdriver]; exact I.tail
  · rw [hdriver]; exact I.observed
  · rw [hdriver, hdrops]; exact I.dropped
  · rw [hdrops]
    intro h0
    have hclean := I.clean h0
    rw [← hs] at hclean
    have hkeys : SameKeys (keyAt events steps (n + 1)).driver s.driver := by
      rw [hdriver]
      exact ⟨rfl, rfl, rfl, rfl⟩
    refine (hkeys.foldl _).clean ?_
    rw [hstream, hnext, KeySystem.sending]
    split_ifs with hr
    · rw [hr, List.append_nil] at hclean
      rw [List.foldl_append]
      exact hclean.event (events s.next)
    · exact hclean

/-- A service at a good moment. -/
theorem step_service (I : KeyInv events steps n) {cs operation key : ℕ}
    (h : steps n = .service cs operation key) (hgood : GoodMoment events steps n) :
    KeyInv events steps (n + 1) ∧ (keyAt events steps (n + 1)).driver.queued = [] ∧
      dropsSince events steps (n + 1) = 0 := by
  set s := keyAt events steps n with hs
  obtain ⟨r, d, hservice, hlock, hhead, htail, hdropped, hobserved, hkept, hflushed⟩ :=
    keyboardDriverService_spec I.lock I.tail I.head cs operation key
  have hat : keyAt events steps (n + 1) = { s with driver := d } := by
    rw [keyAt, h, KeyStep.exec, hservice]
  have hdrops : dropsSince events steps (n + 1) = 0 := by rw [dropsSince, h]
  have hh := I.head
  have hobs := I.observed
  have hdrop := I.dropped
  rw [← hs] at hh hobs hdrop hhead htail hdropped hobserved hkept hflushed
  have hnil : d.queued = [] := by
    rw [KeyboardShared.queued, hhead, htail]
    exact ringList_self hh
  rw [hat]
  refine ⟨?_, hnil, hdrops⟩
  constructor
  · rw [hat]; exact hlock
  · rw [hat, hhead]; exact hh
  · rw [hat, htail]; exact hh
  · rw [hat, hobserved, hdrop]; exact Nat.mod_lt _ (by decide)
  · rw [hat, hdrops, hobserved, hdropped, hdrop, Nat.add_zero, Nat.mod_mod]
  · intro _
    rw [hat]
    dsimp only
    rw [hnil, List.nil_append]
    by_cases h0 : dropsSince events steps n = 0
    · -- nothing was lost: the queue has been decoded
      have hclean := I.clean h0
      rw [← hs, List.foldl_append] at hclean
      have heq : s.driver.observedDropped = s.driver.dropped := by
        rw [hdrop, h0, Nat.add_zero, Nat.mod_eq_of_lt hobs]
      exact ((hkept heq).foldl _).clean hclean
    · -- everything was forgotten, and the rest of the sequence is harmless
      obtain ⟨hmod, hharmless⟩ := hgood cs operation key h h0
      have hne : s.driver.observedDropped ≠ s.driver.dropped := by
        rw [hdrop]
        omega
      have hkeys := hflushed hne
      have hup : ∀ k < 256, d.down k = 0 := by
        intro k hk
        rw [hkeys.down]
        exact if_pos hk
      have hclean : Clean d (heldAfter events s.next) := by
        refine ⟨hkeys.extended, hkeys.pause, fun k hk hdown => absurd (hup k hk) hdown, ?_⟩
        rw [hkeys.count, eq_comm]
        refine Finset.card_eq_zero.mpr (Finset.filter_eq_empty_iff.mpr fun k hk hdown => ?_)
        exact hdown (hup k (Finset.mem_range.mp hk))
      rw [hclean.harmless hup hharmless]
      exact hclean

/-- **Every step** keeps the invariant. -/
theorem step (I : KeyInv events steps n) (hgood : GoodMoment events steps n) :
    KeyInv events steps (n + 1) := by
  cases h : steps n with
  | interrupt status =>
    by_cases hf : FromKeyboard status
    · by_cases hd : Drops (keyAt events steps n) status
      · exact I.step_drop h hd
      · exact I.step_queue h hf hd
    · exact I.step_other h hf
  | service cs operation key => exact (I.step_service h hgood).1

end KeyInv

end Step

/-- **No key stays stuck**: as long as the services find a loss only at good
moments, whatever is dropped. -/
theorem keys_released {events : ℕ → KeyEvent} {steps : ℕ → KeyStep} {n : ℕ}
    (hgood : ∀ m ≤ n, GoodMoment events steps m) : NoStuckKey events steps n := by
  have I : ∀ m ≤ n, KeyInv events steps m := by
    intro m
    induction m with
    | zero => exact fun _ => keyInv_zero
    | succ m ih => exact fun hm => (ih (by omega)).step (hgood m (by omega))
  intro cs operation key h hrest hup
  obtain ⟨I', hqueued, hdrops⟩ := (I n (Nat.le_refl n)).step_service h (hgood n (Nat.le_refl n))
  have hclean := I'.clean hdrops
  rw [hqueued, hrest] at hclean
  exact hclean.released hup

/-- A press of `A` is lost, and the loss found before the release arrives. -/
def recoveredEvents : ℕ → KeyEvent
  | 0 => .plain ⟨0x1E, by decide, by decide⟩ true
  | _ => .plain ⟨0x1E, by decide, by decide⟩ false

def recoveredRun : ℕ → KeyStep
  | 0 => .interrupt 0x41
  | 2 => .interrupt 0x01
  | _ => .service 0x0A keyboardQueryAny 0

theorem keys_released_recoveredRun :
    dropsSince recoveredEvents recoveredRun 1 = 1 ∧ NoStuckKey recoveredEvents recoveredRun 3 := by
  refine ⟨by decide, keys_released fun m hm => ?_⟩
  intro cs operation key h hdrops
  match m, hm with
  | 0, _ => exact absurd h (by simp [recoveredRun])
  | 1, _ =>
    have hrest : (keyAt recoveredEvents recoveredRun 1).rest = [] := by decide
    rw [hrest]
    exact ⟨by decide, fun b hb => absurd hb List.not_mem_nil⟩
  | 2, _ => exact absurd h (by simp [recoveredRun])
  | 3, _ => exact absurd (show dropsSince recoveredEvents recoveredRun 3 = 0 by decide) hdrops

/-- The right Ctrl key is pressed and released. -/
def stuckEvents : ℕ → KeyEvent
  | 0 => .extended ⟨0x1D, by decide, by decide⟩ true
  | _ => .extended ⟨0x1D, by decide, by decide⟩ false

/-- The prefix of the press is lost, and the loss found before the second byte
arrives. -/
def stuckRun : ℕ → KeyStep
  | 0 => .interrupt 0x41
  | 1 => .service 0x0A keyboardProcessInput 0
  | 2 => .interrupt 0x01
  | 3 => .interrupt 0x01
  | 4 => .interrupt 0x01
  | _ => .service 0x0A keyboardQueryAny 0

/-- The second byte is taken for the left Ctrl key, which stays down. -/
theorem not_noStuckKey_stuckRun : ¬NoStuckKey stuckEvents stuckRun 5 := by
  intro h
  have hnext : (keyAt stuckEvents stuckRun 6).next = 2 := by decide
  have hup : ∀ k, heldAfter stuckEvents (keyAt stuckEvents stuckRun 6).next k = false := by
    intro k
    rw [hnext]
    show Function.update (Function.update (fun _ => false) (0x1D + 128) true) (0x1D + 128) false k
      = false
    by_cases hk : k = 0x1D + 128
    · rw [hk, Function.update_self]
    · rw [Function.update_of_ne hk, Function.update_of_ne hk]
  have hcount := (h 0x0A keyboardQueryAny 0 rfl (by decide) hup).1
  exact absurd hcount (by decide)

end VirtualKernel
