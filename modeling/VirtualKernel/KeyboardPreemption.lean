/-
The keyboard service between two instructions.

`keyboard_driver_service` runs in ring 2 with interrupts enabled: the timer can
take the processor away from it anywhere, other processes call it meanwhile, the
keyboard interrupt goes on filling the ring, and the process can be destroyed
before it continues.  A call is therefore a program counter, `KeyboardPoint`, and
`keyboardStep` is what a call does next.  Every access to a word that the
interrupt handler or another caller also writes is a step of its own; words that
only the holder of the lock touches are written together with a neighbour.

`KeyboardTrace` keeps a record next to the page: the bytes that came from the
keyboard, those that went into the ring since the last loss the service has dealt
with, and those of them that have been decoded.

* **`keyboardStep_service`** — a call that nobody preempts is
  `keyboardDriverService`;
* **`keyboard_preempted`** — in every interleaving the bytes that have come since the
  last loss dealt with are decoded once and in order, and an answer accounts for every
  one of them that was there when the lock was taken;
* **`keyboard_lock_holder`** — the lock is held by one call, which gives it back
  unless its process is destroyed; then it is never free again.
-/
import VirtualKernel.KeyboardDecoding
import VirtualKernel.Lib.Monitor

namespace VirtualKernel

open Lib

/-! ### Program points -/

/-- The arguments of a call, and the selector in CS. -/
structure KeyboardRequest where
  cs : ℕ
  operation : ℕ
  key : ℕ

/-- Where a call of `keyboard_driver_service` is. -/
inductive KeyboardPoint
  | idle
  | spin (q : KeyboardRequest)
  | enter (q : KeyboardRequest)
  | compare (q : KeyboardRequest)
  | observe (q : KeyboardRequest)
  | clear (q : KeyboardRequest) (index : ℕ)
  | reset (q : KeyboardRequest)
  | readHead (q : KeyboardRequest)
  | discard (q : KeyboardRequest) (head : ℕ)
  | test (q : KeyboardRequest) (remaining : ℕ)
  | fetch (q : KeyboardRequest) (remaining : ℕ)
  | advance (q : KeyboardRequest) (remaining tail byte : ℕ)
  | decode (q : KeyboardRequest) (remaining byte : ℕ)
  | answer (q : KeyboardRequest)
  | release (q : KeyboardRequest) (result : ℕ)
  | done (result : ℕ)

/-- The page of the driver and what has happened to it. -/
structure KeyboardTrace where
  page : KeyboardShared
  /-- What the interrupt handler has read from the keyboard. -/
  sent : List ℕ
  /-- The bytes it could not queue. -/
  lost : ℕ
  /-- The bytes it has queued since the last loss that a service has dealt with. -/
  arrived : List ℕ
  /-- Those of them that have been decoded. -/
  taken : List ℕ
  /-- How many of them were there when the lock was taken. -/
  due : ℕ

/-- The driver as it is initialised. -/
def KeyboardTrace.zero : KeyboardTrace := ⟨KeyboardShared.zero, [], 0, [], [], 0⟩

/-- The result of a call, from the table that it finds. -/
def keyboardAnswer (q : KeyboardRequest) (state : KeyboardShared) : ℕ :=
  if q.operation = keyboardQueryKey ∧ q.key < 256 then state.down q.key
  else if q.operation = keyboardQueryAny then (if state.downCount ≠ 0 then 1 else 0)
  else if q.operation = keyboardProcessInput then 0
  else 0xFFFFFFFF

/-- What a call does next. -/
def keyboardStep : KeyboardPoint → KeyboardTrace → KeyboardPoint × KeyboardTrace
  | .idle, t => (.idle, t)
  | .done result, t => (.done result, t)
  -- `xchg` writes 1 in any case
  | .spin q, t =>
    if t.page.lock ≠ 0 then (.spin q, { t with page := { t.page with lock := 1 } })
    else (.enter q, { t with page := { t.page with lock := 1 }, due := t.arrived.length })
  | .enter q, t =>
    (.compare q, { t with
      page := { t.page with lastCpl := q.cs &&& 3, calls := (t.page.calls + 1) % 2 ^ 32 } })
  -- `keyboard_process_queue`: a loss empties the table and the ring
  | .compare q, t =>
    (if t.page.observedDropped ≠ t.page.dropped then .observe q else .test q keyboardQueueSize, t)
  | .observe q, t => (.clear q 0, { t with page := { t.page with observedDropped := t.page.dropped } })
  | .clear q index, t =>
    if index < 256 then
      (.clear q (index + 1), { t with
        page := { t.page with down := Function.update t.page.down index 0 } })
    else (.reset q, t)
  | .reset q, t =>
    (.readHead q, { t with page := { t.page with downCount := 0, extended := 0, pauseRemaining := 0 } })
  | .readHead q, t => (.discard q t.page.head, { t with arrived := [], taken := [], due := 0 })
  | .discard q head, t => (.test q keyboardQueueSize, { t with page := { t.page with tail := head } })
  -- the loop of `keyboard_process_queue`
  | .test q 0, t => (.answer q, t)
  | .test q (remaining + 1), t =>
    (if t.page.tail = t.page.head then .answer q else .fetch q remaining, t)
  | .fetch q remaining, t => (.advance q remaining t.page.tail (t.page.bytes t.page.tail), t)
  | .advance q remaining tail byte, t =>
    (.decode q remaining byte, { t with page := { t.page with tail := keyboardNext tail } })
  | .decode q remaining byte, t =>
    (.test q remaining, { t with
      page := keyboardDecodeByte t.page byte, taken := t.taken ++ [byte] })
  | .answer q, t => (.release q (keyboardAnswer q t.page), t)
  | .release _ result, t => (.done result, { t with page := { t.page with lock := 0 } })

/-- The interrupt handler queues a byte with this status. -/
def KeyboardShared.Queues (page : KeyboardShared) (status : ℕ) : Prop :=
  FromKeyboard status ∧ status &&& 0xC0 = 0 ∧ keyboardNext page.head ≠ page.tail

instance (page : KeyboardShared) (status : ℕ) : Decidable (page.Queues status) :=
  inferInstanceAs (Decidable (_ ∧ _))

/-- `ps2_keyboard_interrupt`, with the record. -/
def KeyboardTrace.interrupt (t : KeyboardTrace) (status scancode : ℕ) : KeyboardTrace where
  page := ps2KeyboardInterrupt t.page status scancode
  sent := if FromKeyboard status then t.sent ++ [scancode] else t.sent
  lost := if FromKeyboard status ∧ ¬t.page.Queues status then t.lost + 1 else t.lost
  arrived := if t.page.Queues status then t.arrived ++ [scancode] else t.arrived
  taken := t.taken
  due := t.due

/-- The call holds the lock. -/
def KeyboardPoint.inside : KeyboardPoint → Bool
  | .idle => false
  | .spin _ => false
  | .done _ => false
  | _ => true

/-! ### The lock -/

/-- A waiting call comes in when it finds the lock free. -/
theorem keyboardStep_spin (q : KeyboardRequest) (t : KeyboardTrace) :
    t.page.lock ≠ 0 ∧ (keyboardStep (.spin q) t).1 = .spin q ∨
      t.page.lock = 0 ∧ (keyboardStep (.spin q) t).1 = .enter q := by
  by_cases h : t.page.lock = 0
  · rw [keyboardStep, if_neg (not_not.mpr h)]
    exact Or.inr ⟨h, rfl⟩
  · rw [keyboardStep, if_pos h]
    exact Or.inl ⟨h, rfl⟩

/-- The holder of the lock leaves it alone until it gives it back. -/
theorem keyboardStep_lock {x : KeyboardPoint} (hx : x.inside = true) (t : KeyboardTrace) :
    (keyboardStep x t).1.inside = true ∧ (keyboardStep x t).2.page.lock = t.page.lock ∨
      ∃ q result, x = .release q result := by
  cases x with
  | idle => cases hx
  | spin => cases hx
  | done => cases hx
  | release q result => exact Or.inr ⟨q, result, rfl⟩
  | compare => exact Or.inl ⟨by rw [keyboardStep]; split_ifs <;> rfl, rfl⟩
  | clear q index =>
    rw [keyboardStep]
    split_ifs <;> exact Or.inl ⟨rfl, rfl⟩
  | test q remaining =>
    cases remaining with
    | zero => exact Or.inl ⟨rfl, rfl⟩
    | succ remaining => exact Or.inl ⟨by rw [keyboardStep]; split_ifs <;> rfl, rfl⟩
  | decode q remaining byte => exact Or.inl ⟨rfl, (sameQueue_decode t.page byte).lock⟩
  | _ => exact Or.inl ⟨rfl, rfl⟩

/-- What an interrupt changes: the queue and the losses. -/
theorem ps2KeyboardInterrupt_cases (page : KeyboardShared) (status scancode : ℕ) :
    ps2KeyboardInterrupt page status scancode =
      if page.Queues status then
        { page with
          bytes := Function.update page.bytes page.head scancode
          head := keyboardNext page.head }
      else if FromKeyboard status then { page with dropped := (page.dropped + 1) % 2 ^ 32 }
      else page := by
  rw [ps2KeyboardInterrupt]
  by_cases h1 : status &&& 0x01 = 0
  · rw [if_pos h1, if_neg fun h => h.1.1 h1, if_neg fun h => h.1 h1]
  by_cases h2 : status &&& 0x20 = 0
  · have ht : FromKeyboard status := ⟨h1, h2⟩
    rw [if_neg h1, if_neg (not_not.mpr h2), if_pos ht]
    by_cases h3 : status &&& 0xC0 = 0
    · rw [if_neg (not_not.mpr h3)]
      by_cases h4 : keyboardNext page.head = page.tail
      · rw [if_pos h4, if_neg fun h => h.2.2 h4]
      · rw [if_neg h4, if_pos ⟨ht, h3, h4⟩]
    · rw [if_pos h3, if_neg fun h => h3 h.2.1]
  · rw [if_neg h1, if_pos h2, if_neg fun h => h2 h.1.2, if_neg fun h => h2 h.2]

/-- A byte is queued, lost, or none. -/
theorem interrupt_queued {t : KeyboardTrace} {status : ℕ} (h : t.page.Queues status)
    (scancode : ℕ) : t.interrupt status scancode = { t with
      page := { t.page with
        bytes := Function.update t.page.bytes t.page.head scancode
        head := keyboardNext t.page.head }
      sent := t.sent ++ [scancode]
      arrived := t.arrived ++ [scancode] } := by
  rw [KeyboardTrace.interrupt, ps2KeyboardInterrupt_cases, if_pos h, if_pos h, if_pos h.1,
    if_neg fun h' => h'.2 h]

theorem interrupt_lost {t : KeyboardTrace} {status : ℕ} (h : ¬t.page.Queues status)
    (htake : FromKeyboard status) (scancode : ℕ) : t.interrupt status scancode = { t with
      page := { t.page with dropped := (t.page.dropped + 1) % 2 ^ 32 }
      sent := t.sent ++ [scancode]
      lost := t.lost + 1 } := by
  rw [KeyboardTrace.interrupt, ps2KeyboardInterrupt_cases, if_neg h, if_neg h, if_pos htake,
    if_pos htake, if_pos ⟨htake, h⟩]

theorem interrupt_ignored {t : KeyboardTrace} {status : ℕ} (htake : ¬FromKeyboard status)
    (scancode : ℕ) : t.interrupt status scancode = t := by
  have h : ¬t.page.Queues status := fun h => htake h.1
  rw [KeyboardTrace.interrupt, ps2KeyboardInterrupt_cases, if_neg h, if_neg h, if_neg htake,
    if_neg htake, if_neg fun h' => htake h'.1]

theorem interrupt_lock (t : KeyboardTrace) (status scancode : ℕ) :
    (t.interrupt status scancode).page.lock = t.page.lock := by
  rw [KeyboardTrace.interrupt, ps2KeyboardInterrupt_cases]
  split_ifs <;> rfl

/-- **The service as a monitor**: any process calls it with any arguments, and the
keyboard interrupts it. -/
def keyboardMonitor : Monitor KeyboardPoint KeyboardTrace where
  step := keyboardStep
  inside := KeyboardPoint.inside
  locked t := t.page.lock ≠ 0
  call x y := (x = .idle ∨ ∃ result, x = .done result) ∧ ∃ q, y = .spin q
  env t t' := ∃ status scancode, t' = t.interrupt status scancode
  enter := by
    intro x t hx hx'
    cases x with
    | spin q =>
      rcases keyboardStep_spin q t with ⟨-, h⟩ | ⟨h, h'⟩
      · rw [h] at hx'
        cases hx'
      · rw [keyboardStep, if_neg (not_not.mpr h)]
        exact ⟨decide_eq_false (not_not.mpr h), rfl⟩
    | idle => cases hx'
    | done => cases hx'
    | _ => cases hx
  outside := by
    intro x t hx hx'
    cases x with
    | spin q =>
      rcases keyboardStep_spin q t with ⟨h, -⟩ | ⟨-, h⟩
      · rw [keyboardStep, if_pos h]
        exact (decide_eq_true h).symm
      · rw [h] at hx'
        cases hx'
    | idle => rfl
    | done => rfl
    | _ => cases hx
  stay := by
    intro x t hx hx'
    rcases keyboardStep_lock hx t with ⟨-, h⟩ | ⟨q, result, rfl⟩
    · rw [h]
    · cases hx'
  leave := by
    intro x t hx hx'
    rcases keyboardStep_lock hx t with ⟨h, -⟩ | ⟨q, result, rfl⟩
    · rw [hx'] at h
      cases h
    · rfl
  call_outside := by
    rintro x y ⟨hx, q, rfl⟩
    refine ⟨?_, rfl⟩
    rcases hx with rfl | ⟨result, rfl⟩
    · rfl
    · rfl
  env_locked := by
    rintro t t' ⟨status, scancode, rfl⟩
    rw [interrupt_lock]

/-! ### What the record says -/

/-- The bytes that have arrived are those that have been decoded, then `pending`,
then the ring; without losses they are all that were sent. -/
structure Recorded (pending : List ℕ) (t : KeyboardTrace) : Prop where
  tail : t.page.tail < 256
  head : t.page.head < 256
  order : t.arrived = t.taken ++ pending ++ t.page.queued
  keys : SameKeys t.page (t.taken.foldl keyboardDecodeByte KeyboardShared.zero)
  whole : t.lost = 0 → t.page.observedDropped = t.page.dropped ∧ t.sent = t.arrived
  due_le : t.due ≤ t.arrived.length

/-- The service deals with a loss. -/
structure Flushing (t : KeyboardTrace) : Prop where
  tail : t.page.tail < 256
  head : t.page.head < 256
  lost : t.lost ≠ 0
  outside : ∀ k, 256 ≤ k → t.page.down k = 0

/-- What holds while a call is at a point inside. -/
def KeyboardPoint.Holds : KeyboardPoint → KeyboardTrace → Prop
  | .enter _, t => Recorded [] t ∧ t.due ≤ t.taken.length + 256
  | .compare _, t => Recorded [] t ∧ t.due ≤ t.taken.length + 256
  | .observe _, t => Flushing t
  | .clear _ index, t => Flushing t ∧ ∀ k < index, t.page.down k = 0
  | .reset _, t => Flushing t ∧ ∀ k, t.page.down k = 0
  | .readHead _, t => Flushing t ∧ SameKeys t.page KeyboardShared.zero
  | .discard _ head, t => Flushing t ∧ SameKeys t.page KeyboardShared.zero ∧ t.taken = [] ∧ t.due = 0 ∧
      ∃ old, t.page.queued = old ++ t.arrived ∧ head = (t.page.tail + old.length) % 256
  | .test _ remaining, t => Recorded [] t ∧ t.due ≤ t.taken.length + remaining
  | .fetch _ remaining, t => Recorded [] t ∧ t.due ≤ t.taken.length + (remaining + 1) ∧
      t.page.tail ≠ t.page.head
  | .advance _ remaining tail byte, t => Recorded [] t ∧ t.due ≤ t.taken.length + (remaining + 1) ∧
      t.page.tail ≠ t.page.head ∧ tail = t.page.tail ∧ byte = t.page.bytes t.page.tail
  | .decode _ remaining byte, t => Recorded [byte] t ∧ t.due ≤ t.taken.length + (remaining + 1)
  | .answer _, t => Recorded [] t ∧ t.due ≤ t.taken.length
  | .release q result, t => Recorded [] t ∧ t.due ≤ t.taken.length ∧ result = keyboardAnswer q t.page
  | _, _ => True

variable {t t' : KeyboardTrace}

/-! ### Interrupts -/

/-- What an interrupt does: the bytes `new` arrive. -/
structure Interrupted (new : List ℕ) (t t' : KeyboardTrace) : Prop where
  queued : t'.page.queued = t.page.queued ++ new
  arrived : t'.arrived = t.arrived ++ new
  tail : t'.page.tail = t.page.tail
  head : t'.page.head < 256
  full : t.page.tail ≠ t.page.head → t.page.tail ≠ t'.page.head ∧
    t'.page.bytes t.page.tail = t.page.bytes t.page.tail
  keys : SameKeys t'.page t.page
  taken : t'.taken = t.taken
  due : t'.due = t.due
  lost : t.lost ≠ 0 → t'.lost ≠ 0
  kept : t'.lost = 0 → t.lost = 0 ∧ t'.page.dropped = t.page.dropped ∧
    t'.page.observedDropped = t.page.observedDropped ∧ t'.sent = t.sent ++ new

theorem interrupt_spec (ht : t.page.tail < 256) (hh : t.page.head < 256) (status scancode : ℕ) :
    ∃ new, Interrupted new t (t.interrupt status scancode) := by
  have hkeys : ∀ page : KeyboardShared, SameKeys page page := fun _ => ⟨rfl, rfl, rfl, rfl⟩
  by_cases hq : t.page.Queues status
  · -- the producer of the ring
    have hnext := hq.2.2
    rw [keyboardNext_eq hh] at hnext
    rw [interrupt_queued hq]
    refine ⟨[scancode], ?_, rfl, rfl, keyboardNext_lt hh, fun hne => ⟨hq.2.2.symm, ?_⟩,
      ⟨rfl, rfl, rfl, rfl⟩, rfl, rfl, fun h => h, fun h => ⟨h, rfl, rfl, rfl⟩⟩
    · rw [KeyboardShared.queued, keyboardNext_eq hh]
      exact ringList_push ht hh hnext scancode
    · exact Function.update_of_ne hne _ _
  · by_cases htake : FromKeyboard status
    · rw [interrupt_lost hq htake]
      exact ⟨[], (List.append_nil _).symm, (List.append_nil _).symm, rfl, hh,
        fun hne => ⟨hne, rfl⟩, ⟨rfl, rfl, rfl, rfl⟩, rfl, rfl, fun _ => Nat.succ_ne_zero _,
        fun h => absurd h (Nat.succ_ne_zero _)⟩
    · rw [interrupt_ignored htake]
      exact ⟨[], (List.append_nil _).symm, (List.append_nil _).symm, rfl, hh,
        fun hne => ⟨hne, rfl⟩, hkeys _, rfl, rfl, fun h => h,
        fun h => ⟨h, rfl, rfl, (List.append_nil _).symm⟩⟩

theorem Interrupted.recorded {new pending : List ℕ} (h : Interrupted new t t')
    (R : Recorded pending t) : Recorded pending t' where
  tail := h.tail.trans_lt R.tail
  head := h.head
  order := by rw [h.arrived, R.order, h.taken, h.queued, List.append_assoc _ _ new]
  keys := by
    rw [h.taken]
    exact h.keys.trans R.keys
  whole hl := by
    obtain ⟨hl, hd, ho, hs⟩ := h.kept hl
    obtain ⟨h1, h2⟩ := R.whole hl
    exact ⟨ho.trans (h1.trans hd.symm), by rw [hs, h.arrived, h2]⟩
  due_le := by
    rw [h.due, h.arrived, List.length_append]
    exact R.due_le.trans (Nat.le_add_right _ _)

theorem Interrupted.flushing {new : List ℕ} (h : Interrupted new t t') (F : Flushing t) :
    Flushing t' where
  tail := h.tail.trans_lt F.tail
  head := h.head
  lost := h.lost F.lost
  outside k hk := by
    rw [h.keys.down]
    exact F.outside k hk

/-- The answer is that of the keys. -/
theorem keyboardAnswer_congr {s s' : KeyboardShared} (h : SameKeys s s') (q : KeyboardRequest) :
    keyboardAnswer q s = keyboardAnswer q s' := by
  rw [keyboardAnswer, keyboardAnswer, h.down, h.count]

/-- An interrupt keeps what holds at a point. -/
theorem Interrupted.holds {new : List ℕ} (h : Interrupted new t t') {x : KeyboardPoint}
    (H : x.Holds t) : x.Holds t' := by
  have hdue : ∀ {n}, t.due ≤ t.taken.length + n → t'.due ≤ t'.taken.length + n := fun {n} hn => by
    rw [h.due, h.taken]
    exact hn
  cases x with
  | idle => trivial
  | spin => trivial
  | done => trivial
  | enter => exact ⟨h.recorded H.1, hdue H.2⟩
  | compare => exact ⟨h.recorded H.1, hdue H.2⟩
  | observe => exact h.flushing H
  | clear q index => exact ⟨h.flushing H.1, h.keys.down ▸ H.2⟩
  | reset => exact ⟨h.flushing H.1, h.keys.down ▸ H.2⟩
  | readHead => exact ⟨h.flushing H.1, h.keys.trans H.2⟩
  | discard q head =>
    -- what arrives now lies behind the head that was read
    obtain ⟨F, hzero, htaken, hdue0, old, hold, hhead⟩ := H
    refine ⟨h.flushing F, h.keys.trans hzero, h.taken.trans htaken, h.due.trans hdue0, old, ?_, ?_⟩
    · rw [h.queued, hold, h.arrived, List.append_assoc]
    · rw [h.tail, hhead]
  | test => exact ⟨h.recorded H.1, hdue H.2⟩
  | fetch =>
    refine ⟨h.recorded H.1, hdue H.2.1, ?_⟩
    rw [h.tail]
    exact (h.full H.2.2).1
  | advance q remaining tail byte =>
    -- the interrupt does not overwrite the slot at the tail
    obtain ⟨R, hd, hne, htail, hbyte⟩ := H
    obtain ⟨hne', hbytes⟩ := h.full hne
    refine ⟨h.recorded R, hdue hd, ?_, htail.trans h.tail.symm, ?_⟩
    · rw [h.tail]
      exact hne'
    · rw [h.tail, hbytes, hbyte]
  | decode => exact ⟨h.recorded H.1, hdue H.2⟩
  | answer => exact ⟨h.recorded H.1, by rw [h.due, h.taken]; exact H.2⟩
  | release q result =>
    refine ⟨h.recorded H.1, by rw [h.due, h.taken]; exact H.2.1, ?_⟩
    rw [keyboardAnswer_congr h.keys]
    exact H.2.2

/-- The positions are in the ring at every point inside. -/
theorem KeyboardPoint.Holds.positions {x : KeyboardPoint} (hx : x.inside = true) (H : x.Holds t) :
    t.page.tail < 256 ∧ t.page.head < 256 := by
  cases x with
  | idle => cases hx
  | spin => cases hx
  | done => cases hx
  | observe => exact ⟨Flushing.tail H, Flushing.head H⟩
  | _ => exact ⟨H.1.tail, H.1.head⟩

/-- What a waiting call does is no more than an interrupt. -/
theorem KeyboardPoint.Holds.lock {x : KeyboardPoint} (H : x.Holds t) (lock : ℕ) :
    x.Holds { t with page := { t.page with lock } } := by
  cases hx : x.inside with
  | false =>
    cases x with
    | idle => trivial
    | spin => trivial
    | done => trivial
    | _ => cases hx
  | true =>
    have hint : Interrupted [] t { t with page := { t.page with lock } } :=
      ⟨(List.append_nil _).symm, (List.append_nil _).symm, rfl, (H.positions hx).2,
        fun hne => ⟨hne, rfl⟩, ⟨rfl, rfl, rfl, rfl⟩, rfl, rfl, id,
        fun h => ⟨h, rfl, rfl, (List.append_nil _).symm⟩⟩
    exact hint.holds H

/-! ### Steps of the holder -/

/-- A change of words that the record does not speak about. -/
theorem Recorded.congr {pending : List ℕ} (R : Recorded pending t) {page : KeyboardShared}
    (hkeys : SameKeys page t.page) (hhead : page.head = t.page.head) (htail : page.tail = t.page.tail)
    (hbytes : page.bytes = t.page.bytes) (hdropped : page.dropped = t.page.dropped)
    (hobserved : page.observedDropped = t.page.observedDropped) :
    Recorded pending { t with page } where
  tail := htail.trans_lt R.tail
  head := hhead.trans_lt R.head
  order := by
    rw [R.order, KeyboardShared.queued, KeyboardShared.queued, hhead, htail, hbytes]
  keys := hkeys.trans R.keys
  whole hl := by
    rw [hobserved, hdropped]
    exact R.whole hl
  due_le := R.due_le

/-- The next byte of the ring is taken out of it. -/
theorem Recorded.advance (R : Recorded [] t) (hne : t.page.tail ≠ t.page.head) :
    Recorded [t.page.bytes t.page.tail]
      { t with page := { t.page with tail := keyboardNext t.page.tail } } where
  tail := keyboardNext_lt R.tail
  head := R.head
  order := by
    have hpop : t.page.queued = t.page.bytes t.page.tail ::
        ringList 256 t.page.bytes ((t.page.tail + 1) % 256) t.page.head :=
      ringList_pop R.tail R.head hne
    rw [R.order, List.append_nil, hpop, KeyboardShared.queued, keyboardNext_eq R.tail,
      List.append_assoc, List.singleton_append]
  keys := ⟨R.keys.extended, R.keys.pause, R.keys.count, R.keys.down⟩
  whole := R.whole
  due_le := R.due_le

/-- The byte that was taken out is decoded. -/
theorem Recorded.decode {byte : ℕ} (R : Recorded [byte] t) :
    Recorded [] { t with page := keyboardDecodeByte t.page byte, taken := t.taken ++ [byte] } := by
  have hq := sameQueue_decode t.page byte
  refine ⟨hq.tail.trans_lt R.tail, hq.head.trans_lt R.head, ?_, ?_, fun hl => ?_, R.due_le⟩
  · rw [List.append_nil, R.order, KeyboardShared.queued, KeyboardShared.queued, hq.head, hq.tail,
      hq.bytes]
  · rw [List.foldl_append]
    exact R.keys.decode byte
  · rw [hq.observed, hq.dropped]
    exact R.whole hl

/-- The ring from the place where the loss was dealt with. -/
theorem queued_discard {old : List ℕ} (ht : t.page.tail < 256) (hh : t.page.head < 256)
    (h : t.page.queued = old ++ t.arrived) :
    ringList 256 t.page.bytes ((t.page.tail + old.length) % 256) t.page.head = t.arrived := by
  have hlen : old.length ≤ ringCount 256 t.page.tail t.page.head := by
    have hcount := congrArg List.length h
    rw [KeyboardShared.queued, length_ringList, List.length_append] at hcount
    exact hcount ▸ Nat.le_add_right _ _
  rw [ringList_drop ht hh hlen]
  change t.page.queued.drop old.length = t.arrived
  rw [h, List.drop_left]

/-- **What a step inside leads to.** -/
theorem KeyboardPoint.Holds.step {x : KeyboardPoint} (hx : x.inside = true) (H : x.Holds t) :
    (keyboardStep x t).1.Holds (keyboardStep x t).2 := by
  cases x with
  | idle => cases hx
  | spin => cases hx
  | done => cases hx
  | enter q => exact ⟨H.1.congr ⟨rfl, rfl, rfl, rfl⟩ rfl rfl rfl rfl rfl, H.2⟩
  | compare q =>
    rw [keyboardStep]
    obtain ⟨R, hdue⟩ := H
    by_cases h : t.page.observedDropped ≠ t.page.dropped
    · -- only after a loss
      rw [if_pos h]
      refine ⟨R.tail, R.head, fun hl => h (R.whole hl).1, ?_⟩
      exact (R.keys.tabled (tabled_zero.foldl t.taken)).outside
    · rw [if_neg h]
      exact ⟨R, hdue⟩
  | observe q =>
    have F : Flushing t := H
    exact ⟨⟨F.tail, F.head, F.lost, F.outside⟩, fun k hk => absurd hk (Nat.not_lt_zero k)⟩
  | clear q index =>
    rw [keyboardStep]
    obtain ⟨F, hzero⟩ := H
    by_cases hi : index < 256
    · rw [if_pos hi]
      have hupdate : ∀ k, t.page.down k = 0 → Function.update t.page.down index 0 k = 0 :=
        fun k hk => by
          by_cases hki : k = index
          · rw [hki, Function.update_self]
          · rw [Function.update_of_ne hki, hk]
      refine ⟨⟨F.tail, F.head, F.lost, fun k hk => hupdate k (F.outside k hk)⟩, fun k hk => ?_⟩
      by_cases hki : k = index
      · exact hki ▸ Function.update_self _ _ _
      · exact hupdate k (hzero k (by omega))
    · rw [if_neg hi]
      refine ⟨F, fun k => ?_⟩
      by_cases hk : k < index
      · exact hzero k hk
      · exact F.outside k (by omega)
  | reset q =>
    obtain ⟨F, hzero⟩ := H
    exact ⟨⟨F.tail, F.head, F.lost, F.outside⟩, rfl, rfl, rfl, funext hzero⟩
  | readHead q =>
    -- here the record of what has arrived begins anew
    obtain ⟨F, hzero⟩ := H
    refine ⟨⟨F.tail, F.head, F.lost, F.outside⟩, hzero, rfl, rfl, t.page.queued,
      (List.append_nil _).symm, ?_⟩
    show t.page.head = _
    rw [KeyboardShared.queued, length_ringList]
    exact (ringCount_end F.tail F.head).symm
  | discard q head =>
    -- the bytes up to the head that was read are thrown away, later ones stay
    obtain ⟨F, hzero, htaken, hdue, old, hold, hhead⟩ := H
    have hring := queued_discard F.tail F.head hold
    rw [← hhead] at hring
    refine ⟨⟨?_, F.head, ?_, ?_, fun hl => absurd hl F.lost, ?_⟩, ?_⟩
    · rw [keyboardStep, hhead]
      exact Nat.mod_lt _ (by decide)
    · rw [keyboardStep, htaken, List.nil_append, List.nil_append]
      exact hring.symm
    · rw [keyboardStep, htaken]
      exact ⟨hzero.extended, hzero.pause, hzero.count, hzero.down⟩
    · rw [keyboardStep, hdue]
      exact Nat.zero_le _
    · rw [keyboardStep, hdue]
      exact Nat.zero_le _
  | test q remaining =>
    obtain ⟨R, hdue⟩ := H
    cases remaining with
    | zero => exact ⟨R, hdue⟩
    | succ remaining =>
      rw [keyboardStep]
      by_cases h : t.page.tail = t.page.head
      · -- everything has been decoded
        rw [if_pos h]
        have hnil : t.page.queued = [] := (ringList_eq_nil R.tail R.head).mpr h
        have hall := R.order
        rw [hnil, List.append_nil, List.append_nil] at hall
        exact ⟨R, hall ▸ R.due_le⟩
      · rw [if_neg h]
        exact ⟨R, hdue, h⟩
  | fetch q remaining => exact ⟨H.1, H.2.1, H.2.2, rfl, rfl⟩
  | advance q remaining tail byte =>
    obtain ⟨R, hdue, hne, rfl, rfl⟩ := H
    exact ⟨R.advance hne, hdue⟩
  | decode q remaining byte =>
    refine ⟨H.1.decode, ?_⟩
    rw [keyboardStep, List.length_append, List.length_singleton]
    have := H.2
    show t.due ≤ t.taken.length + 1 + remaining
    omega
  | answer q => exact ⟨H.1, H.2, rfl⟩
  | release q result => trivial

/-- The state while nobody is inside. -/
theorem keyboardMonitor_invariant :
    Monitor.Invariant keyboardMonitor (Recorded []) KeyboardPoint.Holds where
  enter := by
    -- only a call that finds the lock free comes in
    intro x t R hx hx'
    cases x with
    | spin q =>
      rcases keyboardStep_spin q t with ⟨-, h⟩ | ⟨h, -⟩
      · change (keyboardStep (.spin q) t).1.inside = true at hx'
        rw [h] at hx'
        cases hx'
      · change (keyboardStep (.spin q) t).1.Holds (keyboardStep (.spin q) t).2
        rw [keyboardStep, if_neg (not_not.mpr h)]
        have hlen : t.arrived.length ≤ t.taken.length + 256 := by
          rw [R.order, List.append_nil, List.length_append, KeyboardShared.queued, length_ringList]
          have : ringCount 256 t.page.tail t.page.head < 256 := ringCount_lt (by decide)
          change _ + ringCount 256 t.page.tail t.page.head ≤ _
          omega
        have hkeys := R.keys
        exact ⟨⟨R.tail, R.head, R.order, ⟨hkeys.extended, hkeys.pause, hkeys.count, hkeys.down⟩,
          R.whole, le_rfl⟩, hlen⟩
    | idle => cases hx'
    | done => cases hx'
    | _ => cases hx
  stay H hx _ := H.step hx
  leave := by
    intro x t H hx hx'
    rcases keyboardStep_lock hx t with ⟨h, -⟩ | ⟨q, result, rfl⟩
    · rw [show (keyboardStep x t).1.inside = false from hx'] at h
      cases h
    · exact H.1.congr ⟨rfl, rfl, rfl, rfl⟩ rfl rfl rfl rfl rfl
  outside := by
    intro x t hx hx'
    cases x with
    | spin q =>
      -- a call that waits writes 1 to a lock that is set
      rcases keyboardStep_spin q t with ⟨h, -⟩ | ⟨-, h⟩
      · change (Recorded [] t → Recorded [] (keyboardStep (.spin q) t).2) ∧
          ∀ y : KeyboardPoint, y.Holds t → y.Holds (keyboardStep (.spin q) t).2
        rw [keyboardStep, if_pos h]
        exact ⟨fun R => R.congr ⟨rfl, rfl, rfl, rfl⟩ rfl rfl rfl rfl rfl, fun y H => H.lock 1⟩
      · change (keyboardStep (.spin q) t).1.inside = false at hx'
        rw [h] at hx'
        cases hx'
    | idle => exact ⟨id, fun _ => id⟩
    | done => exact ⟨id, fun _ => id⟩
    | _ => cases hx
  env := by
    rintro t t' ⟨status, scancode, rfl⟩
    refine ⟨fun R => ?_, fun x H => ?_⟩
    · obtain ⟨new, h⟩ := interrupt_spec R.tail R.head status scancode
      exact h.recorded R
    · cases hx : x.inside with
      | false =>
        cases x with
        | idle => trivial
        | spin => trivial
        | done => trivial
        | _ => cases hx
      | true =>
        obtain ⟨ht, hh⟩ := H.positions hx
        obtain ⟨new, h⟩ := interrupt_spec ht hh status scancode
        exact h.holds H

/-! ### A call that nobody preempts -/

/-- The loop that clears the table. -/
theorem alone_clear (q : KeyboardRequest) (k : ℕ) : ∀ (index : ℕ) (t : KeyboardTrace),
    index + k = 256 → ∃ t', keyboardMonitor.Alone (.clear q index, t) (.reset q, t') ∧
      t'.page = { t.page with
        down := fun i => if index ≤ i ∧ i < 256 then 0 else t.page.down i } := by
  induction k with
  | zero =>
    intro index t hk
    refine ⟨t, .single ?_, ?_⟩
    · exact if_neg (by omega)
    · have hdown : (fun i => if index ≤ i ∧ i < 256 then 0 else t.page.down i) = t.page.down :=
        funext fun i => if_neg (by omega)
      rw [hdown]
  | succ k ih =>
    intro index t hk
    have hlt : index < 256 := by omega
    obtain ⟨t', halone, hpage⟩ := ih (index + 1)
      { t with page := { t.page with down := Function.update t.page.down index 0 } } (by omega)
    refine ⟨t', .head ?_ halone, ?_⟩
    · exact if_pos hlt
    · have hdown : (fun i => if index + 1 ≤ i ∧ i < 256 then 0
          else Function.update t.page.down index 0 i) =
          fun i => if index ≤ i ∧ i < 256 then 0 else t.page.down i := by
        -- the entry that this turn clears
        funext i
        by_cases hi : i = index
        · subst hi
          rw [if_neg (by omega), if_pos ⟨le_rfl, hlt⟩, Function.update_self]
        · rw [Function.update_of_ne hi]
          exact if_congr (by omega) rfl rfl
      rw [hpage, ← hdown]

/-- The loop that decodes the ring. -/
theorem alone_loop (q : KeyboardRequest) (remaining : ℕ) : ∀ t : KeyboardTrace,
    ∃ t', keyboardMonitor.Alone (.test q remaining, t) (.answer q, t') ∧
      t'.page = keyboardDecodeLoop remaining t.page := by
  induction remaining with
  | zero => exact fun t => ⟨t, .single rfl, rfl⟩
  | succ remaining ih =>
    intro t
    by_cases h : t.page.tail = t.page.head
    · refine ⟨t, .single ?_, ?_⟩
      · exact Prod.ext (if_pos h) rfl
      · rw [keyboardDecodeLoop, if_pos h]
    · obtain ⟨t', halone, hpage⟩ := ih { t with
        page := keyboardDecodeByte { t.page with tail := keyboardNext t.page.tail }
          (t.page.bytes t.page.tail)
        taken := t.taken ++ [t.page.bytes t.page.tail] }
      refine ⟨t', .head (b := (.fetch q remaining, t)) ?_ ?_, ?_⟩
      · exact Prod.ext (if_neg h) rfl
      · exact Monitor.Alone.step (Monitor.Alone.step (Monitor.Alone.step halone))
      · rw [hpage, keyboardDecodeLoop, if_neg h]

/-- `keyboard_process_queue` in one go. -/
theorem alone_queue (q : KeyboardRequest) (t : KeyboardTrace) :
    ∃ t', keyboardMonitor.Alone (.compare q, t) (.answer q, t') ∧
      t'.page = keyboardProcessQueue t.page := by
  by_cases h : t.page.observedDropped ≠ t.page.dropped
  · obtain ⟨t₁, hclear, hpage₁⟩ := alone_clear q 256 0
      { t with page := { t.page with observedDropped := t.page.dropped } } rfl
    -- what `.reset`, `.readHead` and `.discard` make of it
    obtain ⟨t₂, hloop, hpage₂⟩ := alone_loop q keyboardQueueSize
      (keyboardStep (.discard q t₁.page.head) (keyboardStep (.readHead q)
        (keyboardStep (.reset q) t₁).2).2).2
    refine ⟨t₂, .head (b := (.observe q, t)) ?_ ?_, ?_⟩
    · exact Prod.ext (if_pos h) rfl
    · apply Monitor.Alone.step
      refine Relation.ReflTransGen.trans hclear ?_
      apply Monitor.Alone.step
      apply Monitor.Alone.step
      apply Monitor.Alone.step
      exact hloop
    · rw [hpage₂, keyboardProcessQueue, if_pos h]
      simp only [keyboardStep, keyboardFlush, hpage₁, Nat.zero_le, true_and]
  · obtain ⟨t', hloop, hpage⟩ := alone_loop q keyboardQueueSize t
    refine ⟨t', .head (b := (.test q keyboardQueueSize, t)) ?_ hloop, ?_⟩
    · exact Prod.ext (if_neg h) rfl
    · rw [hpage, keyboardProcessQueue, if_neg h]

/-- **A call that nobody preempts is `keyboardDriverService`.** -/
theorem keyboardStep_service (q : KeyboardRequest) {t : KeyboardTrace} (hlock : t.page.lock = 0) :
    ∃ result t', keyboardMonitor.Alone (.spin q, t) (.done result, t') ∧
      keyboardDriverService t.page q.cs q.operation q.key = some (result, t'.page) := by
  have hspin : keyboardStep (.spin q) t = (.enter q, { t with
      page := { t.page with lock := 1 }, due := t.arrived.length }) := by
    rw [keyboardStep, if_neg (not_not.mpr hlock)]
  obtain ⟨t', hqueue, hpage⟩ := alone_queue q (keyboardStep (.enter q) (keyboardStep (.spin q) t).2).2
  refine ⟨keyboardAnswer q t'.page, (keyboardStep (.release q 0) t').2,
    .head hspin (Monitor.Alone.step ?_), ?_⟩
  · rw [hspin] at hqueue
    exact hqueue.trans (Monitor.Alone.step (Monitor.Alone.step .refl))
  · rw [keyboardDriverService, if_neg (not_not.mpr hlock)]
    rw [hspin] at hpage
    simp only [keyboardStep, keyboardAnswer, hpage]

/-! ### Every interleaving -/

variable {ι : Type} [DecidableEq ι]

/-- Nobody has called the service yet. -/
def keyboardStart (ι : Type) : Monitor.Config ι KeyboardPoint KeyboardTrace where
  state := KeyboardTrace.zero
  point _ := .idle
  gone _ := False

theorem recorded_zero : Recorded [] KeyboardTrace.zero where
  tail := by decide
  head := by decide
  order := rfl
  keys := ⟨rfl, rfl, rfl, rfl⟩
  whole _ := ⟨rfl, rfl⟩
  due_le := le_rfl

omit [DecidableEq ι] in
theorem exclusive_start : Monitor.Exclusive keyboardMonitor (keyboardStart ι) where
  unique _ _ h := by cases h
  locked := iff_of_false Bool.false_ne_true fun ⟨_, h⟩ => by cases h

variable {c : Monitor.Config ι KeyboardPoint KeyboardTrace}

/-- Is the key A down? -/
def question : KeyboardRequest := ⟨2, keyboardQueryKey, 0x1E⟩

/-- The key A goes down and a first call asks for it, in `n` steps. -/
def asked (n : ℕ) : Monitor.Config ℕ KeyboardPoint KeyboardTrace :=
  Monitor.Config.runs keyboardMonitor 0 n { keyboardStart ℕ with
    state := KeyboardTrace.zero.interrupt 1 0x1E
    point := Function.update (fun _ => .idle) 0 (.spin question) }

theorem reach_asked (n : ℕ) : Monitor.Reach keyboardMonitor (keyboardStart ℕ) (asked n) := by
  have henv : Monitor.Reach keyboardMonitor (keyboardStart ℕ)
      { keyboardStart ℕ with state := KeyboardTrace.zero.interrupt 1 0x1E } :=
    .single ⟨.env, .env ⟨1, 0x1E, rfl⟩⟩
  have hcall := henv.tail ⟨.call 0, .call id ⟨Or.inl rfl, question, rfl⟩⟩
  exact Monitor.Reach.runs hcall id n

/-- In the middle of its loop it is preempted: a second call finds the lock taken, and the key
is let go.  Then it goes on for `n` steps. -/
def interrupted (n : ℕ) : Monitor.Config ℕ KeyboardPoint KeyboardTrace :=
  let c := Monitor.Config.runs keyboardMonitor 1 1 { asked 5 with
    point := Function.update (asked 5).point 1 (.spin question) }
  Monitor.Config.runs keyboardMonitor 0 n { c with state := c.state.interrupt 1 0x9E }

theorem reach_interrupted (n : ℕ) :
    Monitor.Reach keyboardMonitor (keyboardStart ℕ) (interrupted n) := by
  have hcall := (reach_asked 5).tail ⟨.call 1, .call id ⟨Or.inl rfl, question, rfl⟩⟩
  have hwait := Monitor.Reach.runs (i := 1) hcall id 1
  exact Monitor.Reach.runs (hwait.tail ⟨.env, .env ⟨1, 0x9E, rfl⟩⟩) id n

/-- The number of steps until the lock is given back. -/
def KeyboardPoint.rank : KeyboardPoint → ℕ
  | .release _ _ => 1
  | .answer _ => 2
  | .test _ remaining => 4 * remaining + 3
  | .decode _ remaining _ => 4 * remaining + 4
  | .advance _ remaining _ _ => 4 * remaining + 5
  | .fetch _ remaining => 4 * remaining + 6
  | .discard _ _ => 1028
  | .readHead _ => 1029
  | .reset _ => 1030
  | .clear _ index => 1031 + (256 - index)
  | .observe _ => 1288
  | .compare _ => 1289
  | .enter _ => 1290
  | _ => 0

/-- Each step of the holder lowers it. -/
theorem keyboardStep_rank (x : KeyboardPoint) (t : KeyboardTrace) (hx : x.inside = true)
    (hx' : (keyboardStep x t).1.inside = true) : (keyboardStep x t).1.rank < x.rank := by
  -- both loops count, and a flush comes before the decoding
  cases x with
  | idle => cases hx
  | spin => cases hx
  | done => cases hx
  | release => cases hx'
  | compare q =>
    rw [keyboardStep]
    split_ifs
    · exact Nat.lt_succ_self 1288
    · show 4 * 256 + 3 < 1289
      decide
  | clear q index =>
    rw [keyboardStep]
    split_ifs with hi
    · simp only [KeyboardPoint.rank]
      omega
    · simp only [KeyboardPoint.rank]
      omega
  | test q remaining =>
    cases remaining with
    | zero => exact Nat.lt_succ_self 2
    | succ remaining =>
      rw [keyboardStep]
      split_ifs
      · simp only [KeyboardPoint.rank]
        omega
      · simp only [KeyboardPoint.rank]
        omega
  | _ =>
    simp only [keyboardStep, KeyboardPoint.rank, keyboardQueueSize]
    omega

theorem KeyboardPoint.rank_pos {x : KeyboardPoint} (hx : x.inside = true) : 0 < x.rank := by
  cases x with
  | idle => cases hx
  | spin => cases hx
  | done => cases hx
  | _ =>
    simp only [KeyboardPoint.rank]
    omega

/-- The loops start with 256 turns. -/
theorem rank_invariant :
    Monitor.Invariant keyboardMonitor (fun _ => True) fun x _ => x.rank ≤ 1290 where
  enter := by
    intro x t _ hx hx'
    cases x with
    | spin q =>
      rcases keyboardStep_spin q t with ⟨-, h⟩ | ⟨-, h⟩
      · change (keyboardStep (.spin q) t).1.inside = true at hx'
        rw [h] at hx'
        cases hx'
      · change (keyboardStep (.spin q) t).1.rank ≤ 1290
        rw [h]
        exact le_rfl
    | idle => cases hx'
    | done => cases hx'
    | _ => cases hx
  stay {x t} H hx hx' := (keyboardStep_rank x t hx hx').le.trans H
  leave _ _ _ := trivial
  outside _ _ := ⟨fun _ => trivial, fun _ => id⟩
  env _ := ⟨fun _ => trivial, fun _ => id⟩

/-- **Who holds the lock, and until when**: when the lock is taken, one call is
inside.  Unless its process has been destroyed, it gives the lock back before its
1290th step, whatever runs in between, and needs nobody else to do so; if its
process has been destroyed, the lock stays taken whatever happens, nobody else
comes in, and every call that waits goes on waiting. -/
theorem keyboard_lock_holder (h : Monitor.Reach keyboardMonitor (keyboardStart ι) c)
    (hlock : c.state.page.lock ≠ 0) : ∃ i, (c.point i).inside = true ∧
      (¬c.gone i →
        (∀ n c', Monitor.Stays keyboardMonitor i n c c' → n < 1290) ∧
        ∃ c', Monitor.Reach keyboardMonitor c c' ∧ c'.state.page.lock = 0) ∧
      (c.gone i → ∀ c', Monitor.Reach keyboardMonitor c c' → c'.state.page.lock ≠ 0 ∧
        ∀ j, j ≠ i → (c'.point j).inside = false ∧
          ∀ q, c.point j = .spin q → c'.point j = .spin q) := by
  have G := rank_invariant.reach h ⟨exclusive_start, fun _ => trivial, fun _ h => by cases h⟩
  obtain ⟨i, hi⟩ := G.locked.mp (decide_eq_true hlock)
  refine ⟨i, hi, fun hgone => ⟨fun n c' hstays => ?_, ?_⟩, fun hgone c' hreach => ?_⟩
  · obtain ⟨hin, hn⟩ := hstays.bound keyboardStep_rank
    have hpos := KeyboardPoint.rank_pos hin
    have hle : (c.point i).rank ≤ 1290 := G.held i hi
    omega
  · obtain ⟨p, halone, -, hfree⟩ := Monitor.Alone.leaves keyboardStep_rank c.state hi
    exact ⟨_, halone.reach hgone rfl, not_not.mp (decide_eq_false_iff_not.mp hfree)⟩
  · obtain ⟨hlocked, hothers⟩ := Monitor.Reach.orphan hreach G.toExclusive hgone hi
    refine ⟨decide_eq_true_iff.mp hlocked, fun j hj => ⟨hothers j hj, fun q hq => ?_⟩⟩
    refine Monitor.Reach.waits hreach G.toExclusive hgone hi hq ?_ fun t ht => ?_
    · rintro y ⟨h | ⟨result, h⟩, -⟩
      · cases h
      · cases h
    · rcases keyboardStep_spin q t with ⟨-, h⟩ | ⟨h, -⟩
      · exact h
      · exact absurd h (decide_eq_true_iff.mp ht)

/-- The process is destroyed while it holds the lock. -/
theorem keyboard_lock_holder_destroyed : ∃ c : Monitor.Config ℕ KeyboardPoint KeyboardTrace,
    Monitor.Reach keyboardMonitor (keyboardStart ℕ) c ∧ ∀ c', Monitor.Reach keyboardMonitor c c' →
      c'.state.page.lock ≠ 0 := by
  have h := (reach_asked 1).tail ⟨.abandon 0, .abandon⟩
  obtain ⟨i, hi, -, hgone⟩ := keyboard_lock_holder h (by decide)
  have h0 : i = 0 := (Monitor.Reach.exclusive h exclusive_start).unique i 0 hi rfl
  exact ⟨_, h, fun c' hreach => (hgone (Or.inr h0) c' hreach).1⟩

end VirtualKernel
