/-
The keys a user holds.

A keyboard that loses nothing sends the sequences of its events one after the other; the
bytes reach the driver through the ring, and services decode what is there at any moment.
After a service that finds the last byte the table of keys is what the events say, however
the bytes were split: the prefix and the rest of a Pause wait in the driver between two
services.  On any other input the table is of no use, but it is counted.

* **`feed_decodes`** — services decode the bytes that were fed, in order;
* **`decoded_events`** — whole sequences give the keys that are held;
* **`keyboard_exact`** — the table after a run, and its counter on any input.
-/
import VirtualKernel.KeyboardKeys
import Mathlib.Data.Set.Card

namespace VirtualKernel

open Lib

/-! ### Events -/

/-- A code of a key: 00h and 7Fh are none. -/
def ScanCode.IsKey (code : ScanCode) : Prop := 0 < code.val ∧ code.val ≤ 0x7E

/-- An event of the keyboard; the codes `E0 2A` and `E0 36` are the fake Shift codes. -/
def KeyEvent.Sent : KeyEvent → Prop
  | .plain code _ => code.IsKey
  | .extended code _ => code.IsKey
  | .pause => True

/-- The key of an event, and whether it goes down. -/
def KeyEvent.key : KeyEvent → Option (ℕ × Bool)
  | .plain code pressed => some (code.val, pressed)
  | .extended code pressed =>
    if code.val = 0x2A ∨ code.val = 0x36 then none else some (code.val + 128, pressed)
  | .pause => none

/-- The last event of the key `k` is a press. -/
def LastPressed (events : List KeyEvent) (k : ℕ) : Prop :=
  ∃ before e after, events = before ++ e :: after ∧ e.key = some (k, true) ∧
    ∀ e' ∈ after, ∀ pressed, e'.key ≠ some (k, pressed)

/-- The keys held after a list of events. -/
def heldBy (events : List KeyEvent) : ℕ → Bool := events.foldl KeyEvent.hold fun _ => false

theorem KeyEvent.hold_eq (held : ℕ → Bool) (e : KeyEvent) :
    e.hold held = match e.key with
      | none => held
      | some (k, pressed) => Function.update held k pressed := by
  cases e with
  | plain code pressed => rfl
  | extended code pressed =>
    rw [KeyEvent.hold, KeyEvent.key]
    split_ifs <;> rfl
  | pause => rfl

theorem lastPressed_append {events : List KeyEvent} {e : KeyEvent} {k : ℕ} :
    LastPressed (events ++ [e]) k ↔
      e.key = some (k, true) ∨ LastPressed events k ∧ ∀ pressed, e.key ≠ some (k, pressed) := by
  constructor
  · rintro ⟨before, e', after, heq, hkey, hafter⟩
    rcases List.eq_nil_or_concat after with rfl | ⟨after, last, rfl⟩
    · obtain ⟨-, hlast⟩ := List.append_inj' heq rfl
      rw [List.singleton_inj.mp hlast]
      exact .inl hkey
    · rw [List.concat_eq_append, ← List.cons_append, ← List.append_assoc] at heq
      obtain ⟨hfirst, hlast⟩ := List.append_inj' heq rfl
      rw [List.singleton_inj.mp hlast]
      refine .inr ⟨⟨before, e', after, hfirst, hkey, fun e'' he'' => hafter e'' (by simp [he''])⟩, ?_⟩
      exact hafter last (by simp)
  · rintro (hkey | ⟨⟨before, e', after, rfl, hkey, hafter⟩, hlast⟩)
    · exact ⟨events, e, [], rfl, hkey, fun e' he' => absurd he' List.not_mem_nil⟩
    · refine ⟨before, e', after ++ [e], by simp, hkey, fun e'' he'' => ?_⟩
      rcases List.mem_append.mp he'' with he'' | he''
      · exact hafter e'' he''
      · rw [List.mem_singleton.mp he'']
        exact hlast

/-- A key is held when its last event is a press. -/
theorem heldBy_iff (events : List KeyEvent) (k : ℕ) : heldBy events k = true ↔ LastPressed events k := by
  induction events using List.reverseRecOn with
  | nil =>
    constructor
    · exact fun h => absurd h Bool.false_ne_true
    · rintro ⟨before, e, after, heq, -⟩
      exact absurd heq (by simp)
  | append_singleton events e ih =>
    rw [lastPressed_append, ← ih, heldBy, List.foldl_append, List.foldl_cons, List.foldl_nil,
      KeyEvent.hold_eq]
    cases hkey : e.key with
    | none => simp [heldBy]
    | some kp =>
      obtain ⟨k', pressed⟩ := kp
      by_cases hk : k = k'
      · subst hk
        simp
      · simp [Function.update_of_ne hk, heldBy, Ne.symm hk]

/-! ### Whole sequences -/

/-- The decoder between two sequences, with exactly the keys down that are held. -/
structure Decoded (d : KeyboardShared) (held : ℕ → Bool) : Prop extends Clean d held where
  pressed : ∀ k, held k = true → k < 256 ∧ d.down k = 1
  outside : ∀ k, 256 ≤ k → d.down k = 0

theorem keyboardSetKey_outside {d : KeyboardShared} {key k : ℕ} (h : k ≠ key) (pressed : Bool) :
    (keyboardSetKey d key pressed).down k = d.down k := by
  rw [keyboardSetKey]
  split_ifs
  · rfl
  · exact Function.update_of_ne h ..
  · exact Function.update_of_ne h ..
  · rfl

namespace Decoded

variable {d : KeyboardShared} {held : ℕ → Bool}

theorem zero : Decoded KeyboardShared.zero fun _ => false where
  extended := rfl
  pause := rfl
  down _ _ h := absurd rfl h
  count := by
    show 0 = _
    rw [eq_comm, Finset.card_eq_zero, Finset.filter_eq_empty_iff]
    exact fun k _ hk => hk rfl
  pressed _ h := absurd h Bool.false_ne_true
  outside _ _ := rfl

/-- The table of the keys that are held. -/
theorem down_eq (D : Decoded d held) (k : ℕ) : d.down k = if held k = true then 1 else 0 := by
  split_ifs with h
  · exact (D.pressed k h).2
  · by_cases hk : k < 256
    · by_contra hdown
      exact h (D.down k hk hdown).1
    · exact D.outside k (by omega)

/-- A key of the keyboard goes down or up. -/
theorem setKey (D : Decoded d held) {key : ℕ} (hkey : key < 256) (h0 : key ≠ 0) (h7F : key ≠ 0x7F)
    (pressed : Bool) : Decoded (keyboardSetKey d key pressed) (Function.update held key pressed) := by
  refine ⟨D.toClean.setKey hkey pressed, fun k hk => ?_, fun k hk => ?_⟩
  · rcases keyboardSetKey_cases D.count hkey pressed with
      ⟨heq, hsame⟩ | ⟨-, -, rfl, -, heq⟩ | ⟨-, -, rfl, -, -, heq⟩
    · rw [heq]
      by_cases hkk : k = key
      · subst hkk
        rw [Function.update_self] at hk
        have hdown := ((hsame.resolve_left h0).resolve_left h7F).mp hk
        exact ⟨hkey, (D.pressed k (D.down k hkey hdown).1).2⟩
      · rw [Function.update_of_ne hkk] at hk
        exact D.pressed k hk
    · rw [heq]
      dsimp only
      by_cases hkk : k = key
      · subst hkk
        exact ⟨hkey, Function.update_self ..⟩
      · rw [Function.update_of_ne hkk] at hk ⊢
        exact D.pressed k hk
    · rw [heq]
      dsimp only
      by_cases hkk : k = key
      · subst hkk
        rw [Function.update_self] at hk
        exact absurd hk Bool.false_ne_true
      · rw [Function.update_of_ne hkk] at hk ⊢
        exact D.pressed k hk
  · rw [keyboardSetKey_outside (by omega)]
    exact D.outside k hk

/-- A whole sequence. -/
theorem event (D : Decoded d held) {e : KeyEvent} (he : e.Sent) :
    Decoded (e.bytes.foldl keyboardDecodeByte d) (e.hold held) := by
  cases e with
  | plain code pressed =>
    obtain ⟨hpos, hle⟩ := he
    rw [KeyEvent.bytes, List.foldl_cons, List.foldl_nil, D.toClean.decode_key]
    exact D.setKey (by omega) (by omega) (by omega) pressed
  | extended code pressed =>
    obtain ⟨hpos, hle⟩ := he
    rw [KeyEvent.bytes, D.toClean.decode_extended, KeyEvent.hold]
    split_ifs
    · exact D
    · exact D.setKey (by omega) (by omega) (by omega) pressed
  | pause =>
    rw [D.toClean.decode_pause]
    exact D

end Decoded

/-- **Whole sequences** give the keys that are held. -/
theorem decoded_events {events : List KeyEvent} (h : ∀ e ∈ events, e.Sent) :
    Decoded ((events.flatMap KeyEvent.bytes).foldl keyboardDecodeByte KeyboardShared.zero)
      (heldBy events) := by
  induction events using List.reverseRecOn with
  | nil => exact Decoded.zero
  | append_singleton events e ih =>
    rw [List.flatMap_append, List.foldl_append, List.flatMap_singleton, heldBy, List.foldl_append]
    exact (ih fun e' he' => h e' (List.mem_append_left _ he')).event (h e (by simp))

/-! ### Any bytes -/

/-- What a byte does: it changes the state of the decoder only, or it reads and writes the
entry of one key, below 256, and the counter goes up or down by one with it. -/
def ByteStep (d : KeyboardShared) (b : ℕ) : Prop :=
  (∃ extended pauseRemaining, keyboardDecodeByte d b = { d with extended, pauseRemaining }) ∨
  ∃ key < 256, ∃ pressed, keyboardDecodeByte d b = keyboardSetKey { d with extended := 0 } key pressed ∧
    ((keyboardDecodeByte d b).downCount = d.downCount ∨
      (keyboardDecodeByte d b).downCount = d.downCount + 1 ∨
      (keyboardDecodeByte d b).downCount + 1 = d.downCount)

theorem byteStep {d : KeyboardShared} (h : Counted d) (b : ℕ) : ByteStep d b := by
  have hset {key : ℕ} (hkey : key < 256) (pressed : Bool)
      (heq : keyboardDecodeByte d b = keyboardSetKey { d with extended := 0 } key pressed) :
      ByteStep d b := by
    refine .inr ⟨key, hkey, pressed, heq, ?_⟩
    have h' : Counted { d with extended := 0 } := h
    rw [heq]
    rcases keyboardSetKey_cases h' hkey pressed with
      ⟨hstep, -⟩ | ⟨-, -, -, -, hstep⟩ | ⟨-, -, -, -, hpos, hstep⟩
    · exact .inl (by rw [hstep])
    · exact .inr (.inl (by rw [hstep]))
    · refine .inr (.inr ?_)
      rw [hstep]
      exact Nat.sub_add_cancel hpos
  have hlt : b &&& 0x7F < 128 := Nat.lt_of_le_of_lt Nat.and_le_right (by decide)
  by_cases hpause : d.pauseRemaining = 0
  · by_cases hE1 : b = 0xE1
    · refine .inl ⟨0, 5, ?_⟩
      rw [keyboardDecodeByte, if_neg (not_not.mpr hpause), if_pos hE1]
    · by_cases hE0 : b = 0xE0
      · refine .inl ⟨1, d.pauseRemaining, ?_⟩
        rw [keyboardDecodeByte, if_neg (not_not.mpr hpause), if_neg hE1, if_pos hE0]
      · by_cases hext : d.extended = 0
        · have hback : { d with extended := 0 } = d := by
            rw [← hext]
          refine hset (by omega : b &&& 0x7F < 256) (decide (b &&& 0x80 = 0)) ?_
          rw [keyboardDecodeByte, if_neg (not_not.mpr hpause), if_neg hE1, if_neg hE0, hback]
          exact if_neg (not_not.mpr hext)
        · by_cases hfake : b &&& 0x7F = 0x2A ∨ b &&& 0x7F = 0x36
          · refine .inl ⟨0, d.pauseRemaining, ?_⟩
            rw [keyboardDecodeByte, if_neg (not_not.mpr hpause), if_neg hE1, if_neg hE0]
            exact (if_pos hext).trans (if_pos hfake)
          · refine hset (by omega : (b &&& 0x7F) + 128 < 256) (decide (b &&& 0x80 = 0)) ?_
            rw [keyboardDecodeByte, if_neg (not_not.mpr hpause), if_neg hE1, if_neg hE0]
            exact (if_pos hext).trans (if_neg hfake)
  · refine .inl ⟨d.extended, d.pauseRemaining - 1, ?_⟩
    rw [keyboardDecodeByte, if_pos hpause]

/-- The table is counted, and nothing is written outside it. -/
structure Tabled (d : KeyboardShared) : Prop where
  count : Counted d
  outside : ∀ k, 256 ≤ k → d.down k = 0

theorem tabled_zero : Tabled KeyboardShared.zero := ⟨Decoded.zero.count, fun _ _ => rfl⟩

theorem Tabled.decode {d : KeyboardShared} (h : Tabled d) (b : ℕ) : Tabled (keyboardDecodeByte d b) := by
  rcases byteStep h.count b with ⟨extended, pauseRemaining, heq⟩ | ⟨key, hkey, pressed, heq, -⟩
  · rw [heq]
    exact ⟨h.count, h.outside⟩
  · have h' : Counted { d with extended := 0 } := h.count
    rw [heq]
    refine ⟨h'.setKey hkey pressed, fun k hk => ?_⟩
    rw [keyboardSetKey_outside (by omega)]
    exact h.outside k hk

theorem Tabled.foldl {d : KeyboardShared} (h : Tabled d) (bytes : List ℕ) :
    Tabled (bytes.foldl keyboardDecodeByte d) := by
  induction bytes generalizing d with
  | nil => exact h
  | cons b bytes ih => exact ih (h.decode b)

theorem SameKeys.tabled {s s' : KeyboardShared} (h : SameKeys s s') (hs : Tabled s') : Tabled s := by
  obtain ⟨hcount, houtside⟩ := hs
  refine ⟨?_, ?_⟩
  · rw [Counted, h.count, h.down]
    exact hcount
  · rw [h.down]
    exact houtside

/-! ### Feeding the driver -/

/-- An interrupt that finds `status` and a byte, or a service. -/
inductive FeedStep
  | byte (status scancode : ℕ)
  | service (cs operation key : ℕ)

/-- One step of the driver. -/
def FeedStep.exec (d : KeyboardShared) : FeedStep → KeyboardShared
  | .byte status scancode => ps2KeyboardInterrupt d status scancode
  | .service cs operation key =>
    match keyboardDriverService d cs operation key with
    | none => d
    | some (_, d') => d'

/-- The driver after a list of steps from its reset state. -/
def feed (steps : List FeedStep) : KeyboardShared := steps.foldl FeedStep.exec KeyboardShared.zero

/-- The bytes of the keyboard in a list of steps. -/
def fed (steps : List FeedStep) : List ℕ :=
  steps.filterMap fun
    | .byte status scancode => if FromKeyboard status then some scancode else none
    | .service _ _ _ => none

/-- No byte of the keyboard is dropped. -/
def NoDrops (steps : List FeedStep) : Prop :=
  ∀ before status scancode after, steps = before ++ .byte status scancode :: after →
    FromKeyboard status → status &&& 0xC0 = 0 ∧ keyboardNext (feed before).head ≠ (feed before).tail

/-- What every run keeps. -/
structure Fed (d : KeyboardShared) : Prop extends Tabled d where
  lock : d.lock = 0
  head : d.head < 256
  tail : d.tail < 256

theorem feed_append (steps : List FeedStep) (step : FeedStep) :
    feed (steps ++ [step]) = step.exec (feed steps) := by
  rw [feed, List.foldl_append]
  rfl

/-- A step keeps the table counted and the ring in bounds, whatever its byte. -/
theorem Fed.step {d : KeyboardShared} (h : Fed d) (step : FeedStep) : Fed (step.exec d) := by
  cases step with
  | byte status scancode =>
    rw [FeedStep.exec, ps2KeyboardInterrupt]
    split_ifs
    · exact h
    · exact h
    · exact ⟨⟨h.count, h.outside⟩, h.lock, h.head, h.tail⟩
    · exact ⟨⟨h.count, h.outside⟩, h.lock, h.head, h.tail⟩
    · exact ⟨⟨h.count, h.outside⟩, h.lock, keyboardNext_lt h.head, h.tail⟩
  | service cs operation key =>
    obtain ⟨r, d', hservice, hlock, hhead, htail, -, -, hkept, hflushed⟩ :=
      keyboardDriverService_spec h.lock h.tail h.head cs operation key
    rw [FeedStep.exec, hservice]
    refine ⟨?_, hlock, by rw [hhead]; exact h.head, by rw [htail]; exact h.head⟩
    by_cases heq : d.observedDropped = d.dropped
    · exact (hkept heq).tabled (h.toTabled.foldl _)
    · refine (hflushed heq).tabled ⟨?_, fun k hk => ?_⟩
      · show 0 = _
        rw [eq_comm, Finset.card_eq_zero, Finset.filter_eq_empty_iff]
        intro k hk hdown
        exact hdown (if_pos (Finset.mem_range.mp hk))
      · exact (if_neg (by omega)).trans (h.outside k hk)

/-- **Any run** keeps the table counted. -/
theorem fed_feed (steps : List FeedStep) : Fed (feed steps) := by
  induction steps using List.reverseRecOn with
  | nil => exact ⟨tabled_zero, rfl, show 0 < 256 by decide, show 0 < 256 by decide⟩
  | append_singleton steps step ih =>
    rw [feed_append]
    exact ih.step step

/-- **The bytes that were fed** are those that were decoded and those that wait, when none was
dropped. -/
theorem feed_decodes {steps : List FeedStep} (h : NoDrops steps) :
    (feed steps).observedDropped = (feed steps).dropped ∧
      SameKeys ((feed steps).queued.foldl keyboardDecodeByte (feed steps))
        ((fed steps).foldl keyboardDecodeByte KeyboardShared.zero) := by
  induction steps using List.reverseRecOn with
  | nil =>
    have hnil : (feed []).queued = [] := ringList_self (show 0 < 256 by decide)
    rw [hnil]
    exact ⟨rfl, rfl, rfl, rfl, rfl⟩
  | append_singleton steps step ih =>
    have hsteps : NoDrops steps := fun before status scancode after heq =>
      h before status scancode (after ++ [step]) (by simp [heq])
    obtain ⟨hobserved, hkeys⟩ := ih hsteps
    have F := fed_feed steps
    rw [feed_append]
    cases step with
    | byte status scancode =>
      by_cases hf : FromKeyboard status
      · obtain ⟨herr, hroom⟩ := h steps status scancode [] rfl hf
        have hfed : fed (steps ++ [.byte status scancode]) = fed steps ++ [scancode] := by
          rw [fed, List.filterMap_append]
          simp [fed, hf]
        have hexec : (FeedStep.byte status scancode).exec (feed steps) = { feed steps with
            bytes := Function.update (feed steps).bytes (feed steps).head scancode
            head := keyboardNext (feed steps).head } := by
          rw [FeedStep.exec, ps2KeyboardInterrupt, if_neg hf.1, if_neg (not_not.mpr hf.2),
            if_neg (not_not.mpr herr), if_neg hroom]
        have hqueued : ((FeedStep.byte status scancode).exec (feed steps)).queued =
            (feed steps).queued ++ [scancode] := by
          rw [hexec, KeyboardShared.queued, keyboardNext_eq F.head]
          refine ringList_push F.tail F.head ?_ _
          rw [← keyboardNext_eq F.head]
          exact hroom
        rw [hfed, hqueued, List.foldl_append, List.foldl_append, hexec]
        refine ⟨hobserved, ?_⟩
        have hsame : SameKeys { feed steps with
            bytes := Function.update (feed steps).bytes (feed steps).head scancode
            head := keyboardNext (feed steps).head } (feed steps) := ⟨rfl, rfl, rfl, rfl⟩
        exact ((hsame.foldl _).trans hkeys).foldl [scancode]
      · have hfed : fed (steps ++ [.byte status scancode]) = fed steps := by
          rw [fed, List.filterMap_append]
          simp [fed, hf]
        have hexec : (FeedStep.byte status scancode).exec (feed steps) = feed steps := by
          rw [FeedStep.exec, ps2KeyboardInterrupt]
          by_cases h1 : status &&& 0x01 = 0
          · rw [if_pos h1]
          · rw [if_neg h1, if_pos fun h2 => hf ⟨h1, h2⟩]
        rw [hfed, hexec]
        exact ⟨hobserved, hkeys⟩
    | service cs operation key =>
      have hfed : fed (steps ++ [.service cs operation key]) = fed steps := by
        rw [fed, List.filterMap_append]
        simp [fed]
      obtain ⟨r, d', hservice, -, hhead, htail, hdropped, hobserved', hkept, -⟩ :=
        keyboardDriverService_spec F.lock F.tail F.head cs operation key
      have hexec : (FeedStep.service cs operation key).exec (feed steps) = d' := by
        rw [FeedStep.exec, hservice]
      have hnil : d'.queued = [] := by
        rw [KeyboardShared.queued, hhead, htail]
        exact ringList_self F.head
      rw [hfed, hexec, hnil]
      exact ⟨hobserved'.trans hdropped.symm, (hkept hobserved).trans hkeys⟩

/-- The keys that a service finds after whole sequences. -/
theorem service_decodes {events : List KeyEvent} {steps : List FeedStep}
    (hsent : ∀ e ∈ events, e.Sent) (hdrop : NoDrops steps)
    (hfed : fed steps = events.flatMap KeyEvent.bytes) (cs operation key : ℕ) :
    ∃ r d, keyboardDriverService (feed steps) cs operation key = some (r, d) ∧
      (∀ k, d.down k = if heldBy events k = true then 1 else 0) ∧ Tabled d := by
  have F := fed_feed steps
  obtain ⟨hobserved, hkeys⟩ := feed_decodes hdrop
  obtain ⟨r, d, hservice, -, -, -, -, -, hkept, -⟩ :=
    keyboardDriverService_spec F.lock F.tail F.head cs operation key
  have hsame := (hkept hobserved).trans hkeys
  rw [hfed] at hsame
  have D := decoded_events hsent
  refine ⟨r, d, hservice, fun k => ?_, hsame.tabled ⟨D.count, D.outside⟩⟩
  rw [hsame.down]
  exact D.down_eq k

/-- **The keyboard driver** inverts the encoding of the keyboard: after any run without a drop
that feeds whole sequences, a service leaves 1 in the entries of the keys whose last event was
a press and 0 in the others, and counts the former.  On any input, with any losses, the
counter is the number of keys that are down, every byte touches one entry below 256 at most,
and the counter does not wrap. -/
theorem keyboard_exact :
    (∀ (events : List KeyEvent) (steps : List FeedStep) (cs operation key : ℕ),
      (∀ e ∈ events, e.Sent) → NoDrops steps → fed steps = events.flatMap KeyEvent.bytes →
      ∃ r d, keyboardDriverService (feed steps) cs operation key = some (r, d) ∧
        (∀ k, (LastPressed events k → d.down k = 1) ∧ (¬LastPressed events k → d.down k = 0)) ∧
        d.downCount = {k | LastPressed events k}.ncard) ∧
    (∀ bytes : List ℕ, Tabled (bytes.foldl keyboardDecodeByte KeyboardShared.zero) ∧
      ∀ b, ByteStep (bytes.foldl keyboardDecodeByte KeyboardShared.zero) b) ∧
    ∀ steps : List FeedStep, Fed (feed steps) ∧ ∀ b, ByteStep (feed steps) b := by
  refine ⟨?_, fun bytes => ?_, fun steps => ⟨fed_feed steps, byteStep (fed_feed steps).count⟩⟩
  · intro events steps cs operation key hsent hdrop hfed
    obtain ⟨r, d, hservice, hdown, htabled⟩ := service_decodes hsent hdrop hfed cs operation key
    refine ⟨r, d, hservice, fun k => ⟨fun hk => ?_, fun hk => ?_⟩, ?_⟩
    · rw [hdown, if_pos ((heldBy_iff events k).mpr hk)]
    · rw [hdown, if_neg fun h => hk ((heldBy_iff events k).mp h)]
    · -- the keys that are held are the entries that are not 0
      have hset : {k | LastPressed events k} =
          ((Finset.range 256).filter fun k => d.down k ≠ 0 : Finset ℕ) := by
        ext k
        rw [Finset.mem_coe, Finset.mem_filter, Finset.mem_range, Set.mem_ofPred_eq, ← heldBy_iff,
          hdown]
        constructor
        · intro hk
          refine ⟨?_, by rw [if_pos hk]; exact Nat.one_ne_zero⟩
          by_contra hlt
          have hzero := htabled.outside k (by omega)
          rw [hdown, if_pos hk] at hzero
          exact Nat.one_ne_zero hzero
        · rintro ⟨-, hk⟩
          by_contra hheld
          exact hk (if_neg hheld)
      rw [hset, Set.ncard_coe_finset]
      exact htabled.count
  · have htabled := tabled_zero.foldl bytes
    exact ⟨htabled, byteStep htabled.count⟩

/-- A service between the two bytes of the right Ctrl key. -/
theorem keyboard_exact_split :
    ∃ r d, keyboardDriverService
        (feed [.byte 1 0xE0, .service 0x0A keyboardQueryAny 0, .byte 1 0x1D]) 0x0A keyboardQueryAny 0 =
      some (r, d) ∧
      (∀ k, (LastPressed [.extended ⟨0x1D, by decide, by decide⟩ true] k → d.down k = 1) ∧
        (¬LastPressed [.extended ⟨0x1D, by decide, by decide⟩ true] k → d.down k = 0)) ∧
      d.downCount = {k | LastPressed [.extended ⟨0x1D, by decide, by decide⟩ true] k}.ncard := by
  refine keyboard_exact.1 _ _ 0x0A keyboardQueryAny 0 ?_ ?_ rfl
  · intro e he
    rw [List.mem_singleton.mp he]
    exact ⟨by decide, by decide⟩
  · intro before status scancode after heq hf
    rcases before with _ | ⟨x, _ | ⟨y, _ | ⟨z, before⟩⟩⟩
    · simp only [List.nil_append, List.cons.injEq, FeedStep.byte.injEq] at heq
      obtain ⟨⟨rfl, -⟩, -⟩ := heq
      decide
    · simp at heq
    · simp only [List.cons_append, List.nil_append, List.cons.injEq, FeedStep.byte.injEq] at heq
      obtain ⟨rfl, rfl, ⟨rfl, -⟩, -⟩ := heq
      decide
    · simp at heq

end VirtualKernel
