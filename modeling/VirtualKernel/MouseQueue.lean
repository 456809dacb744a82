/-
The queue of mouse reports along a run of the driver.

A run is a sequence of callbacks of the host and of requests, each taken as one
step.  The ghost queue `pendingAt` holds the arrival times of the reports that
are still in the ring; `MouseInv` ties it to the packets of the ring, the
counters of losses and the remembered buttons, and one lemma for each kind of
step shows that it is kept.
-/
import VirtualKernel.MouseDriver
import Mathlib.Data.List.Forall2

namespace VirtualKernel

open Lib

/-! ### Runs -/

/-- A callback of the host or a request of a process. -/
inductive MouseStep
  | receive (controller : ℕ) (event : UsbReport)
  | request (operation : ℕ)

/-- The four controllers, reports of at most 64 bytes, the three operations. -/
def MouseStep.Valid : MouseStep → Prop
  | .receive controller (.data _ length) =>
    controller < mouseControllerCount ∧ length ≤ mouseReportBytes
  | .receive controller _ => controller < mouseControllerCount
  | .request operation => operation ≤ mouseGetDevices

instance : DecidablePred MouseStep.Valid
  | .receive controller (.data _ length) =>
    inferInstanceAs (Decidable (controller < mouseControllerCount ∧ length ≤ mouseReportBytes))
  | .receive controller .connected => inferInstanceAs (Decidable (controller < mouseControllerCount))
  | .receive controller .disconnected =>
    inferInstanceAs (Decidable (controller < mouseControllerCount))
  | .request operation => inferInstanceAs (Decidable (operation ≤ mouseGetDevices))

/-- One step, with the answer of a request. -/
def MouseStep.exec (d : MouseDriver) : MouseStep → Option ℕ × MouseDriver
  | .receive controller event => (none, mouseReceive d controller event)
  | .request operation =>
    (some (mouseProcessRequest d.shared operation).1,
      { d with shared := (mouseProcessRequest d.shared operation).2 })

/-- The driver before step `n`. -/
def mouseAt (steps : ℕ → MouseStep) : ℕ → MouseDriver
  | 0 => mouseDriverInitialize
  | n + 1 => ((steps n).exec (mouseAt steps n)).2

/-- The answer given in step `n`. -/
def mouseOutput (steps : ℕ → MouseStep) (n : ℕ) : Option ℕ :=
  ((steps n).exec (mouseAt steps n)).1

/-- Step `n` returns a `MOUSE_EVENT_VALID` word. -/
def Delivers (steps : ℕ → MouseStep) (n r : ℕ) : Prop :=
  mouseOutput steps n = some r ∧ r.testBit 31 = true

/-- The ring has no free slot left. -/
def MouseShared.Full (s : MouseShared) : Prop := mouseNext s.head = s.tail

instance (s : MouseShared) : Decidable s.Full := inferInstanceAs (Decidable (_ = _))

/-- Step `n` increments `dropped`: a report overflows the queue, or a
controller is disconnected. -/
def loses (d : MouseDriver) : MouseStep → Bool
  | .receive _ (.data _ _) => decide d.shared.Full
  | .receive _ .disconnected => true
  | _ => false

/-- The number of losses since the last request. -/
def lossesSince (steps : ℕ → MouseStep) : ℕ → ℕ
  | 0 => 0
  | n + 1 =>
    match steps n with
    | .request _ => 0
    | s => lossesSince steps n + if loses (mouseAt steps n) s then 1 else 0

/-- The buttons in the last event of controller `c` that was returned since the
last loss was reported. -/
def lastButtons (steps : ℕ → MouseStep) (c : ℕ) : ℕ → ℕ
  | 0 => 0
  | n + 1 =>
    match mouseOutput steps n with
    | none => lastButtons steps c n
    | some r =>
      if r = mouseEventLost then 0
      else if r.testBit 31 ∧ userMouseController r = c then userMouseButtons r
      else lastButtons steps c n

/-! ### The ghost queue -/

/-- The report of step `a` can be delivered in the state `d`. -/
def deliverable (steps : ℕ → MouseStep) (connected a : ℕ) : Bool :=
  match steps a with
  | .receive c (.data _ length) => decide (3 ≤ length) && connected.testBit c
  | _ => false

/-- The pending reports of which the first can be delivered. -/
def readyFrom (steps : ℕ → MouseStep) (connected : ℕ) (l : List ℕ) : List ℕ :=
  l.dropWhile fun a => !deliverable steps connected a

/-- The arrival times of the reports in the ring before step `n`. -/
def pendingAt (steps : ℕ → MouseStep) : ℕ → List ℕ
  | 0 => []
  | n + 1 =>
    let s := (mouseAt steps n).shared
    match steps n with
    | .receive _ (.data _ _) =>
      if s.Full then pendingAt steps n else pendingAt steps n ++ [n]
    | .receive _ _ => pendingAt steps n
    | .request operation =>
      if s.observedDropped ≠ s.dropped then []
      else if operation = mouseReadEvent then
        (readyFrom steps s.connected (pendingAt steps n)).tail
      else pendingAt steps n

/-- The arrival time of the report that step `n` delivers. -/
def sourceAt (steps : ℕ → MouseStep) (n : ℕ) : ℕ :=
  (readyFrom steps (mouseAt steps n).shared.connected (pendingAt steps n)).headD 0

/-! ### The words of events -/

theorem mouseNext_eq {i : ℕ} (hi : i < mouseQueueSize) : mouseNext i = (i + 1) % mouseQueueSize := by
  simp only [mouseQueueSize] at hi ⊢
  rw [mouseNext, Nat.mod_eq_of_lt (by omega)]
  exact Nat.and_two_pow_sub_one_eq_mod (i + 1) 5

theorem mouseNext_lt {i : ℕ} (hi : i < mouseQueueSize) : mouseNext i < mouseQueueSize := by
  rw [mouseNext_eq hi]
  exact Nat.mod_lt _ (by decide)

/-- The fields of an event do not overlap. -/
theorem mouseEvent_eq {id buttons dx dy : ℕ} (hid : id < 4) (hb : buttons < 8) (hx : dx < 256)
    (hy : dy < 256) :
    mouseEvent id buttons dx dy = 2 ^ 31 + 2 ^ 24 * id + 2 ^ 16 * dy + 2 ^ 8 * dx + buttons := by
  have h1 : mouseEventValid ||| id <<< 24 = 2 ^ 24 * (128 + id) := by
    rw [Nat.shiftLeft_eq, Nat.mul_comm id, show mouseEventValid = 2 ^ 31 * 1 from rfl,
      ← Nat.two_pow_add_eq_or_of_lt (by omega)]
    omega
  have h2 : 2 ^ 24 * (128 + id) ||| dy <<< 16 = 2 ^ 16 * (2 ^ 8 * (128 + id) + dy) := by
    rw [Nat.shiftLeft_eq, Nat.mul_comm dy, ← Nat.two_pow_add_eq_or_of_lt (by omega)]
    omega
  have h3 : 2 ^ 16 * (2 ^ 8 * (128 + id) + dy) ||| dx <<< 8 =
      2 ^ 8 * (2 ^ 8 * (2 ^ 8 * (128 + id) + dy) + dx) := by
    rw [Nat.shiftLeft_eq, Nat.mul_comm dx, ← Nat.two_pow_add_eq_or_of_lt (by omega)]
    omega
  rw [mouseEvent, h1, h2, h3, ← Nat.two_pow_add_eq_or_of_lt (by omega)]
  omega

theorem testBit_31 {r : ℕ} (h1 : 2 ^ 31 ≤ r) (h2 : r < 2 ^ 32) : r.testBit 31 = true := by
  rw [Nat.testBit_eq_decide_div_mod_eq]
  have : r / 2 ^ 31 = 1 := by omega
  rw [this]
  rfl

theorem int8_mod (n : ℕ) : int8 (n % 256) = int8 n := by
  rw [int8, int8, Nat.mod_mod]

/-- **The macros recover the fields of an event.** -/
theorem mouseEvent_decode {id buttons dx dy : ℕ} (hid : id < 4) (hb : buttons < 8) (hx : dx < 256)
    (hy : dy < 256) :
    (mouseEvent id buttons dx dy).testBit 31 = true ∧
      mouseEvent id buttons dx dy ≠ mouseEventLost ∧
      userMouseDx (mouseEvent id buttons dx dy) = int8 dx ∧
      userMouseDy (mouseEvent id buttons dx dy) = int8 dy ∧
      userMouseButtons (mouseEvent id buttons dx dy) = buttons ∧
      userMouseController (mouseEvent id buttons dx dy) = id := by
  have he := mouseEvent_eq hid hb hx hy
  generalize mouseEvent id buttons dx dy = r at he
  refine ⟨testBit_31 (by omega) (by omega), by rw [he]; simp only [mouseEventLost]; omega, ?_, ?_,
    ?_, ?_⟩
  · rw [userMouseDx, Nat.shiftRight_eq_div_pow, ← int8_mod, he]
    congr 1
    omega
  · rw [userMouseDy, Nat.shiftRight_eq_div_pow, ← int8_mod, he]
    congr 1
    omega
  · rw [userMouseButtons, show (7 : ℕ) = 2 ^ 3 - 1 from rfl, Nat.and_two_pow_sub_one_eq_mod, he]
    omega
  · rw [userMouseController, show (3 : ℕ) = 2 ^ 2 - 1 from rfl, Nat.and_two_pow_sub_one_eq_mod,
      Nat.shiftRight_eq_div_pow, he]
    omega

/-! ### The requests -/

theorem mouseClearButtons_eq (gone : ℕ → Bool) (s : MouseShared) :
    mouseClearButtons gone s = { s with
      buttons := fun id => if id < mouseControllerCount ∧ gone id then 0 else s.buttons id } := by
  have key : ∀ n, (List.range n).foldl (fun (s : MouseShared) id =>
      if gone id then { s with buttons := Function.update s.buttons id 0 } else s) s =
      { s with buttons := fun id => if id < n ∧ gone id then 0 else s.buttons id } := by
    intro n
    induction n with
    | zero => simp
    | succ n ih =>
      rw [List.range_succ, List.foldl_append, ih, List.foldl_cons, List.foldl_nil]
      by_cases hg : gone n = true
      · rw [if_pos hg]
        congr 1
        funext id
        by_cases hid : id = n
        · simp [hid, hg]
        · rw [Function.update_of_ne hid]
          simp only [show id < n + 1 ↔ id < n by omega]
      · rw [if_neg hg]
        congr 1
        funext id
        by_cases hid : id = n
        · simp [hid, hg]
        · simp only [show id < n + 1 ↔ id < n by omega]
  exact key _

/-- The packet can be delivered to a reader. -/
def MousePacket.ready (connected : ℕ) (p : MousePacket) : Bool :=
  decide (3 ≤ p.length) && connected.testBit p.controller

/-- **The loop of `MOUSE_READ_EVENT`** skips what cannot be delivered, up to the
first packet that can, or to the end of the ring. -/
theorem mouseReadLoop_spec : ∀ (remaining : ℕ) (s : MouseShared), s.head < mouseQueueSize →
    s.tail < mouseQueueSize →
    (∀ p ∈ ringList mouseQueueSize s.packets s.tail s.head,
      p.controller < mouseControllerCount ∧ p.length ≤ mouseReportBytes) →
    ringCount mouseQueueSize s.tail s.head ≤ remaining →
    ∃ tail malformed, tail < mouseQueueSize ∧
      match (ringList mouseQueueSize s.packets s.tail s.head).dropWhile
          fun p => !p.ready s.connected with
      | [] => tail = s.head ∧
          mouseReadLoop remaining s = (0, { s with tail := tail, malformed := malformed })
      | p :: rest => ringList mouseQueueSize s.packets tail s.head = rest ∧
          mouseReadLoop remaining s =
            (mouseEvent p.controller (p.data 0 &&& 7) (p.data 1) (p.data 2),
              { s with
                tail := tail, malformed := malformed
                buttons := Function.update s.buttons p.controller (p.data 0 &&& 7)
                decoded := (s.decoded + 1) % 2 ^ 32 }) := by
  intro remaining
  induction remaining with
  | zero =>
    intro s hh ht _ hcount
    have hth : s.tail = s.head := (ringCount_eq_zero ht hh).mp (by omega)
    refine ⟨s.tail, s.malformed, ht, ?_⟩
    rw [(ringList_eq_nil ht hh).mpr hth]
    exact ⟨hth, rfl⟩
  | succ remaining ih =>
    intro s hh ht hok hcount
    by_cases hth : s.tail = s.head
    · refine ⟨s.tail, s.malformed, ht, ?_⟩
      rw [(ringList_eq_nil ht hh).mpr hth, mouseReadLoop, if_pos hth]
      exact ⟨hth, rfl⟩
    -- one packet is taken from the ring
    have hpop := @ringList_pop _ _ s.packets _ _ ht hh hth
    rw [← mouseNext_eq ht] at hpop
    have hlen := congrArg List.length hpop
    rw [List.length_cons, length_ringList, length_ringList] at hlen
    obtain ⟨hid, hlong⟩ := hok _ (by rw [hpop]; exact List.mem_cons_self)
    have hrest : ∀ p ∈ ringList mouseQueueSize s.packets (mouseNext s.tail) s.head,
        p.controller < mouseControllerCount ∧ p.length ≤ mouseReportBytes :=
      fun p hp => hok p (by rw [hpop]; exact List.mem_cons_of_mem _ hp)
    rw [hpop]
    by_cases hshort : (s.packets s.tail).length < 3
    · have hnot : (!(s.packets s.tail).ready s.connected) = true := by
        simp [MousePacket.ready, Nat.not_le.mpr hshort]
      have hstep : mouseReadLoop (remaining + 1) s = mouseReadLoop remaining
          { s with tail := mouseNext s.tail, malformed := (s.malformed + 1) % 2 ^ 32 } := by
        rw [mouseReadLoop, if_neg hth]
        exact if_pos (Or.inr (Or.inl hshort))
      obtain ⟨tail, malformed, htail, h⟩ := ih
        { s with tail := mouseNext s.tail, malformed := (s.malformed + 1) % 2 ^ 32 } hh
        (mouseNext_lt ht) hrest (by dsimp only; omega)
      refine ⟨tail, malformed, htail, ?_⟩
      rw [List.dropWhile_cons_of_pos (p := fun p : MousePacket => !p.ready s.connected) hnot, hstep]
      exact h
    have hgood : ¬(mouseControllerCount ≤ (s.packets s.tail).controller ∨
        (s.packets s.tail).length < 3 ∨ mouseReportBytes < (s.packets s.tail).length) := by
      simp only [not_or, Nat.not_le, Nat.not_lt]
      exact ⟨hid, Nat.not_lt.mp hshort, hlong⟩
    by_cases hconn : s.connected.testBit (s.packets s.tail).controller = true
    · have hyes : ¬(!(s.packets s.tail).ready s.connected) = true := by
        simp [MousePacket.ready, Nat.not_lt.mp hshort, hconn]
      refine ⟨mouseNext s.tail, s.malformed, mouseNext_lt ht, ?_⟩
      rw [List.dropWhile_cons_of_neg (p := fun p : MousePacket => !p.ready s.connected) hyes]
      refine ⟨rfl, ?_⟩
      rw [mouseReadLoop, if_neg hth]
      exact (if_neg hgood).trans (if_neg (not_not.mpr hconn))
    · have hnot : (!(s.packets s.tail).ready s.connected) = true := by
        simp [MousePacket.ready, hconn]
      have hstep : mouseReadLoop (remaining + 1) s =
          mouseReadLoop remaining { s with tail := mouseNext s.tail } := by
        rw [mouseReadLoop, if_neg hth]
        exact (if_neg hgood).trans (if_pos hconn)
      obtain ⟨tail, malformed, htail, h⟩ := ih { s with tail := mouseNext s.tail } hh
        (mouseNext_lt ht) hrest (by dsimp only; omega)
      refine ⟨tail, malformed, htail, ?_⟩
      rw [List.dropWhile_cons_of_pos (p := fun p : MousePacket => !p.ready s.connected) hnot, hstep]
      exact h

/-- The shared state after the buttons of absent controllers are forgotten. -/
def MouseShared.polled (s : MouseShared) : MouseShared :=
  { s with buttons := fun id =>
      if id < mouseControllerCount ∧ (!s.connected.testBit id) then 0 else s.buttons id }

/-- A pending loss is answered first, whatever the operation. -/
theorem mouseProcessRequest_lost {s : MouseShared} {operation : ℕ}
    (hop : operation ≤ mouseGetDevices) (h : s.observedDropped ≠ s.dropped) :
    ∃ buttons : ℕ → ℕ, (∀ c < mouseControllerCount, buttons c = 0) ∧
      (∀ c, buttons c = 0 ∨ buttons c = s.buttons c) ∧
      mouseProcessRequest s operation = (mouseEventLost, { s with
        buttons := buttons, observedDropped := s.dropped, tail := s.head }) := by
  refine ⟨fun id => if id < mouseControllerCount ∧ (true = true) then 0
    else (s.polled).buttons id, fun c hc => if_pos ⟨hc, rfl⟩, fun c => ?_, ?_⟩
  · simp only [MouseShared.polled]
    split_ifs <;> simp
  · rw [mouseProcessRequest, if_neg (by omega), mouseClearButtons_eq]
    dsimp only
    rw [if_pos h, mouseClearButtons_eq]
    rfl

/-- The answers when no loss is pending. -/
theorem mouseProcessRequest_of_eq {s : MouseShared} {operation : ℕ}
    (hop : operation ≤ mouseGetDevices) (h : s.observedDropped = s.dropped) :
    mouseProcessRequest s operation =
      if operation = mouseGetDevices then (s.connected, s.polled)
      else if operation = mouseGetButtons then
        ((List.range mouseControllerCount).foldl (fun b id => b ||| s.polled.buttons id) 0, s.polled)
      else mouseReadLoop mouseQueueSize s.polled := by
  rw [mouseProcessRequest, if_neg (by omega), mouseClearButtons_eq]
  dsimp only
  rw [if_neg (not_not.mpr h)]
  rfl

/-! ### The invariant -/

/-- The packet holds the report that arrived in step `a`. -/
def HoldsReport (steps : ℕ → MouseStep) (p : MousePacket) (a : ℕ) : Prop :=
  ∃ bytes, steps a = .receive p.controller (.data bytes p.length) ∧
    p.controller < mouseControllerCount ∧ p.length ≤ mouseReportBytes ∧
    ∀ b < p.length, p.data b = (bytes b).toNat

theorem HoldsReport.ready_eq {steps : ℕ → MouseStep} {p : MousePacket} {a : ℕ}
    (h : HoldsReport steps p a) (connected : ℕ) :
    p.ready connected = deliverable steps connected a := by
  obtain ⟨bytes, hstep, -⟩ := h
  rw [deliverable, hstep]
  rfl

theorem forall₂_dropWhile {α β : Type} {R : α → β → Prop} {p : α → Bool} {q : β → Bool}
    {l : List α} {l' : List β} (h : List.Forall₂ R l l') (hpq : ∀ a b, R a b → p a = q b) :
    List.Forall₂ R (l.dropWhile p) (l'.dropWhile q) := by
  induction h with
  | nil => exact List.Forall₂.nil
  | @cons a b l l' hab hl ih =>
    rw [List.dropWhile_cons, List.dropWhile_cons, hpq a b hab]
    split_ifs
    · exact ih
    · exact List.Forall₂.cons hab hl

theorem exists_of_forall₂_mem {α β : Type} {R : α → β → Prop} {l : List α} {l' : List β}
    (h : List.Forall₂ R l l') {a : α} (ha : a ∈ l) : ∃ b, R a b := by
  induction h with
  | nil => exact absurd ha List.not_mem_nil
  | cons hab _ ih =>
    rcases List.mem_cons.mp ha with rfl | ha
    · exact ⟨_, hab⟩
    · exact ih ha

/-- **The invariant of the queue**: the ring holds the pending reports in the
order of their arrival, the counters tell whether a loss is pending, and while
none is, the remembered buttons are those of the last events. -/
structure MouseInv (steps : ℕ → MouseStep) (n : ℕ) : Prop where
  head : (mouseAt steps n).shared.head < mouseQueueSize
  tail : (mouseAt steps n).shared.tail < mouseQueueSize
  connected : (mouseAt steps n).shared.connected < 2 ^ 4
  observed : (mouseAt steps n).shared.observedDropped < 2 ^ 32
  dropped : (mouseAt steps n).shared.dropped =
    ((mouseAt steps n).shared.observedDropped + lossesSince steps n) % 2 ^ 32
  ring : List.Forall₂ (HoldsReport steps)
    (ringList mouseQueueSize (mouseAt steps n).shared.packets (mouseAt steps n).shared.tail
      (mouseAt steps n).shared.head) (pendingAt steps n)
  sorted : (pendingAt steps n).Pairwise (· < ·)
  bound : ∀ a ∈ pendingAt steps n, a < n
  small : ∀ c, (mouseAt steps n).shared.buttons c < 8
  buttons : lossesSince steps n = 0 → ∀ c < mouseControllerCount,
    (mouseAt steps n).shared.buttons c = lastButtons steps c n ∧
      ((mouseAt steps n).shared.connected.testBit c = false → lastButtons steps c n = 0)

section Step

variable {steps : ℕ → MouseStep} {n : ℕ}

theorem mouse_inv_zero : MouseInv steps 0 where
  head := show 0 < mouseQueueSize by decide
  tail := show 0 < mouseQueueSize by decide
  connected := show 0 < 2 ^ 4 by decide
  observed := show 0 < 2 ^ 32 by decide
  dropped := rfl
  ring := by
    have hnil : ringList mouseQueueSize (mouseAt steps 0).shared.packets
        (mouseAt steps 0).shared.tail (mouseAt steps 0).shared.head = [] :=
      ringList_self (show 0 < mouseQueueSize by decide)
    rw [hnil]
    exact List.Forall₂.nil
  sorted := List.Pairwise.nil
  bound := fun _ h => absurd h List.not_mem_nil
  small := fun _ => show 0 < 8 by decide
  buttons := fun _ _ _ => ⟨rfl, fun _ => rfl⟩

namespace MouseInv

/-- The counters differ exactly when a loss is pending. -/
theorem observed_eq_iff (H : MouseInv steps n) (hs : lossesSince steps n < 2 ^ 32) :
    (mouseAt steps n).shared.observedDropped = (mouseAt steps n).shared.dropped ↔
      lossesSince steps n = 0 := by
  have h1 := H.observed
  have h2 := H.dropped
  omega

theorem mouseAt_succ (h : steps n = s) : mouseAt steps (n + 1) = (s.exec (mouseAt steps n)).2 := by
  rw [mouseAt, h]

theorem output_eq {s : MouseStep} (h : steps n = s) :
    mouseOutput steps n = (s.exec (mouseAt steps n)).1 := by
  rw [mouseOutput, h]

/-- Callbacks have no answer, so they do not change what the last events were. -/
theorem lastButtons_receive {c : ℕ} {e : UsbReport} (h : steps n = .receive c e) (c' : ℕ) :
    lastButtons steps c' (n + 1) = lastButtons steps c' n := by
  rw [lastButtons, output_eq h]
  rfl

theorem step_connected (H : MouseInv steps n) {c : ℕ} (hc : c < mouseControllerCount)
    (h : steps n = .receive c .connected) : MouseInv steps (n + 1) := by
  have hat : mouseAt steps (n + 1) = { mouseAt steps n with shared :=
      { (mouseAt steps n).shared with
        connected := (mouseAt steps n).shared.connected ||| 1 <<< c } } := by
    rw [mouseAt_succ h, MouseStep.exec, mouseReceive, if_neg (Nat.not_le.mpr hc)]
  have hpend : pendingAt steps (n + 1) = pendingAt steps n := by
    rw [pendingAt, h]
  have hsince : lossesSince steps (n + 1) = lossesSince steps n := by
    rw [lossesSince, h]
    rfl
  have hbit : 1 <<< c < 2 ^ 4 := by
    rw [Nat.shiftLeft_eq, Nat.one_mul]
    exact Nat.pow_lt_pow_right (by decide) hc
  constructor
  · rw [hat]; exact H.head
  · rw [hat]; exact H.tail
  · rw [hat]; exact Nat.or_lt_two_pow H.connected hbit
  · rw [hat]; exact H.observed
  · rw [hat, hsince]; exact H.dropped
  · rw [hat, hpend]; exact H.ring
  · rw [hpend]; exact H.sorted
  · rw [hpend]; exact fun a ha => Nat.lt_succ_of_lt (H.bound a ha)
  · rw [hat]; exact H.small
  · intro hz c' hc'
    rw [hsince] at hz
    rw [hat, lastButtons_receive h]
    refine ⟨(H.buttons hz c' hc').1, fun hoff => (H.buttons hz c' hc').2 ?_⟩
    dsimp only at hoff
    rw [Nat.testBit_or, Bool.or_eq_false_iff] at hoff
    exact hoff.1

/-- A loss that leaves the ring alone. -/
theorem step_loss (H : MouseInv steps n) {c connected : ℕ} {e : UsbReport} {q : MouseCursorQueue}
    (h : steps n = .receive c e) (hl : loses (mouseAt steps n) (.receive c e) = true)
    (hconn : connected < 2 ^ 4) (hpend : pendingAt steps (n + 1) = pendingAt steps n)
    (hat : mouseAt steps (n + 1) = ⟨{ (mouseAt steps n).shared with
      connected := connected
      dropped := ((mouseAt steps n).shared.dropped + 1) % 2 ^ 32 }, q⟩) :
    MouseInv steps (n + 1) := by
  have hsince : lossesSince steps (n + 1) = lossesSince steps n + 1 := by
    rw [lossesSince, h]
    simp only [hl, if_true]
  constructor
  · rw [hat]; exact H.head
  · rw [hat]; exact H.tail
  · rw [hat]; exact hconn
  · rw [hat]; exact H.observed
  · rw [hat, hsince]
    have := H.dropped
    dsimp only
    omega
  · rw [hat, hpend]; exact H.ring
  · rw [hpend]; exact H.sorted
  · rw [hpend]; exact fun a ha => Nat.lt_succ_of_lt (H.bound a ha)
  · rw [hat]; exact H.small
  · intro hz
    omega

theorem step_disconnected (H : MouseInv steps n) {c : ℕ} (hc : c < mouseControllerCount)
    (h : steps n = .receive c .disconnected) : MouseInv steps (n + 1) := by
  have hat : mouseAt steps (n + 1) = mouseReceive (mouseAt steps n) c .disconnected :=
    mouseAt_succ h
  rw [mouseReceive, if_neg (Nat.not_le.mpr hc)] at hat
  exact H.step_loss h rfl (lt_of_le_of_lt Nat.and_le_left H.connected) (by rw [pendingAt, h]) hat

theorem step_data (H : MouseInv steps n) {c length : ℕ} {bytes : ℕ → UInt8}
    (hc : c < mouseControllerCount) (hl : length ≤ mouseReportBytes)
    (h : steps n = .receive c (.data bytes length)) : MouseInv steps (n + 1) := by
  have hat : mouseAt steps (n + 1) = ⟨mouseQueueReport (mouseAt steps n).shared c bytes length,
      mouseCursorEnqueue (mouseAt steps n).cursor c bytes length⟩ := by
    rw [mouseAt_succ h, MouseStep.exec, mouseReceive, if_neg (Nat.not_le.mpr hc)]
  have hgood : ¬(mouseControllerCount ≤ c ∨ mouseReportBytes < length) :=
    not_or.mpr ⟨Nat.not_le.mpr hc, Nat.not_lt.mpr hl⟩
  by_cases hfull : (mouseAt steps n).shared.Full
  · refine H.step_loss h (by simpa [loses] using hfull) H.connected ?_
      (q := mouseCursorEnqueue (mouseAt steps n).cursor c bytes length) ?_
    · rw [pendingAt, h]
      exact if_pos hfull
    · rw [hat, mouseQueueReport, if_neg hgood,
        if_pos (show mouseNext (mouseAt steps n).shared.head = _ from hfull)]
  -- the report goes into the slot at `head`
  set s := (mouseAt steps n).shared with hs
  obtain ⟨p, hp, hshared⟩ : ∃ p, HoldsReport steps p n ∧
      (mouseAt steps (n + 1)).shared =
        { s with packets := Function.update s.packets s.head p, head := mouseNext s.head } := by
    refine ⟨⟨c, length, fun b => if b < length then (bytes b).toNat
      else (s.packets s.head).data b⟩, ⟨bytes, h, hc, hl, fun b hb => if_pos hb⟩, ?_⟩
    rw [hat]
    dsimp only
    rw [mouseQueueReport, if_neg hgood, if_neg (show ¬mouseNext s.head = s.tail from hfull)]
  have hpend : pendingAt steps (n + 1) = pendingAt steps n ++ [n] := by
    rw [pendingAt, h]
    exact if_neg hfull
  have hsince : lossesSince steps (n + 1) = lossesSince steps n := by
    rw [lossesSince, h]
    simp only [loses, ← hs, decide_eq_true_eq, hfull, if_false, Nat.add_zero]
  have hring := @ringList_push _ _ s.packets _ _ H.tail H.head
    (by rw [← mouseNext_eq H.head]; exact hfull) p
  rw [← mouseNext_eq H.head] at hring
  constructor
  · rw [hshared]; exact mouseNext_lt H.head
  · rw [hshared]; exact H.tail
  · rw [hshared]; exact H.connected
  · rw [hshared]; exact H.observed
  · rw [hshared, hsince]; exact H.dropped
  · rw [hshared, hpend]
    dsimp only
    rw [hring]
    exact List.rel_append H.ring (List.Forall₂.cons hp List.Forall₂.nil)
  · rw [hpend, List.pairwise_append]
    exact ⟨H.sorted, List.pairwise_singleton _ _, fun a ha b hb => by
      rw [List.mem_singleton.mp hb]
      exact H.bound a ha⟩
  · rw [hpend]
    intro a ha
    rcases List.mem_append.mp ha with ha | ha
    · exact Nat.lt_succ_of_lt (H.bound a ha)
    · rw [List.mem_singleton.mp ha]
      exact Nat.lt_succ_self n
  · rw [hshared]; exact H.small
  · intro hz c' hc'
    rw [hsince] at hz
    rw [hshared, lastButtons_receive h]
    exact H.buttons hz c' hc'

/-- What a request leaves for the next step, once its outcome is known. -/
theorem step_request (H : MouseInv steps n) {operation r : ℕ} {s' : MouseShared}
    (h : steps n = .request operation)
    (hr : mouseProcessRequest (mouseAt steps n).shared operation = (r, s'))
    (hhead : s'.head = (mouseAt steps n).shared.head) (htail : s'.tail < mouseQueueSize)
    (hconn : s'.connected = (mouseAt steps n).shared.connected)
    (hdrop : s'.dropped = s'.observedDropped) (hobs : s'.observedDropped < 2 ^ 32)
    (hring : List.Forall₂ (HoldsReport steps)
      (ringList mouseQueueSize s'.packets s'.tail s'.head) (pendingAt steps (n + 1)))
    (hsub : (pendingAt steps (n + 1)).Sublist (pendingAt steps n))
    (hsmall : ∀ c, s'.buttons c < 8)
    (hbut : ∀ c < mouseControllerCount, s'.buttons c = lastButtons steps c (n + 1) ∧
      (s'.connected.testBit c = false → lastButtons steps c (n + 1) = 0)) :
    MouseInv steps (n + 1) := by
  have hat : (mouseAt steps (n + 1)).shared = s' := by
    rw [mouseAt_succ h, MouseStep.exec, hr]
  have hsince : lossesSince steps (n + 1) = 0 := by
    rw [lossesSince, h]
  constructor
  · rw [hat, hhead]; exact H.head
  · rw [hat]; exact htail
  · rw [hat, hconn]; exact H.connected
  · rw [hat]; exact hobs
  · rw [hat, hsince, Nat.add_zero, Nat.mod_eq_of_lt hobs]; exact hdrop
  · rw [hat]; exact hring
  · exact H.sorted.sublist hsub
  · exact fun a ha => Nat.lt_succ_of_lt (H.bound a (hsub.subset ha))
  · rw [hat]; exact hsmall
  · intro _
    rw [hat]
    exact hbut

/-- The answer of the step decides what is remembered of the last events. -/
theorem lastButtons_of_output {r : ℕ} (h : mouseOutput steps n = some r) (c : ℕ) :
    lastButtons steps c (n + 1) = if r = mouseEventLost then 0
      else if r.testBit 31 ∧ userMouseController r = c then userMouseButtons r
      else lastButtons steps c n := by
  rw [lastButtons, h]

theorem output_request {operation : ℕ} (h : steps n = .request operation) :
    mouseOutput steps n = some (mouseProcessRequest (mouseAt steps n).shared operation).1 := by
  rw [output_eq h, MouseStep.exec]

/-- A small answer is no event and no loss. -/
theorem lastButtons_small {r : ℕ} (h : mouseOutput steps n = some r) (hr : r < 16) (c : ℕ) :
    lastButtons steps c (n + 1) = lastButtons steps c n := by
  have hbit : r.testBit 31 = false := Nat.testBit_lt_two_pow (by omega)
  rw [lastButtons_of_output h, if_neg (by simp only [mouseEventLost]; omega), if_neg (by simp [hbit])]

theorem step_lost (H : MouseInv steps n) {operation : ℕ} (hop : operation ≤ mouseGetDevices)
    (h : steps n = .request operation)
    (hne : (mouseAt steps n).shared.observedDropped ≠ (mouseAt steps n).shared.dropped) :
    mouseOutput steps n = some mouseEventLost ∧ pendingAt steps (n + 1) = [] ∧
      MouseInv steps (n + 1) := by
  obtain ⟨buttons, hzero, hkeep, hr⟩ := mouseProcessRequest_lost hop hne
  have hout : mouseOutput steps n = some mouseEventLost := by rw [output_request h, hr]
  have hpend : pendingAt steps (n + 1) = [] := by
    rw [pendingAt, h]
    exact if_pos hne
  refine ⟨hout, hpend, H.step_request h hr rfl H.head rfl rfl ?_ ?_ ?_ ?_ ?_⟩
  · change (mouseAt steps n).shared.dropped < 2 ^ 32
    rw [H.dropped]
    exact Nat.mod_lt _ (by decide)
  · rw [hpend, ringList_self H.head]
    exact List.Forall₂.nil
  · rw [hpend]
    exact List.nil_sublist _
  · intro c
    rcases hkeep c with h0 | h0
    · exact lt_of_eq_of_lt h0 (by decide)
    · exact lt_of_eq_of_lt h0 (H.small c)
  · intro c hc
    rw [lastButtons_of_output hout, if_pos rfl]
    exact ⟨hzero c hc, fun _ => rfl⟩

/-- While no loss is pending, forgetting the buttons of absent controllers
changes nothing that was remembered. -/
theorem polled_buttons (H : MouseInv steps n) (hz : lossesSince steps n = 0) {c : ℕ}
    (hc : c < mouseControllerCount) :
    (mouseAt steps n).shared.polled.buttons c = lastButtons steps c n := by
  obtain ⟨h1, h2⟩ := H.buttons hz c hc
  rw [MouseShared.polled]
  dsimp only
  split_ifs with hoff
  · exact (h2 (by simpa using hoff.2)).symm
  · exact h1

theorem polled_small (H : MouseInv steps n) (c : ℕ) :
    (mouseAt steps n).shared.polled.buttons c < 8 := by
  rw [MouseShared.polled]
  dsimp only
  split_ifs
  · decide
  · exact H.small c

/-- The two queries keep the ring. -/
theorem step_query (H : MouseInv steps n) {operation r : ℕ} (hop : operation ≠ mouseReadEvent)
    (h : steps n = .request operation) (hz : lossesSince steps n = 0)
    (heq : (mouseAt steps n).shared.observedDropped = (mouseAt steps n).shared.dropped)
    (hr : mouseProcessRequest (mouseAt steps n).shared operation =
      (r, (mouseAt steps n).shared.polled)) (hsmall : r < 16) :
    pendingAt steps (n + 1) = pendingAt steps n ∧ MouseInv steps (n + 1) := by
  have hpend : pendingAt steps (n + 1) = pendingAt steps n := by
    rw [pendingAt, h]
    exact (if_neg (not_not.mpr heq)).trans (if_neg hop)
  have hout : mouseOutput steps n = some r := by rw [output_request h, hr]
  refine ⟨hpend, H.step_request h hr rfl H.tail rfl heq.symm H.observed ?_ ?_ H.polled_small ?_⟩
  · rw [hpend]; exact H.ring
  · rw [hpend]
  · intro c hc
    rw [lastButtons_small hout hsmall]
    exact ⟨H.polled_buttons hz hc, (H.buttons hz c hc).2⟩

/-- The data bytes of a packet that can be delivered. -/
theorem ready_bytes {p : MousePacket} {a connected : ℕ} (hp : HoldsReport steps p a)
    (hr : p.ready connected = true) : ∃ bytes, steps a = .receive p.controller (.data bytes p.length) ∧
      p.controller < 4 ∧ 3 ≤ p.length ∧ connected.testBit p.controller = true ∧
      p.data 0 = (bytes 0).toNat ∧ p.data 1 = (bytes 1).toNat ∧ p.data 2 = (bytes 2).toNat := by
  obtain ⟨bytes, hstep, hc, -, hb⟩ := hp
  simp only [MousePacket.ready, Bool.and_eq_true, decide_eq_true_eq] at hr
  obtain ⟨hlen, hconn⟩ := hr
  exact ⟨bytes, hstep, hc, hlen, hconn, hb 0 (by omega), hb 1 (by omega), hb 2 (by omega)⟩

/-- `MOUSE_READ_EVENT` takes the first pending report that can be delivered,
with everything before it. -/
theorem step_read (H : MouseInv steps n) (h : steps n = .request mouseReadEvent)
    (hz : lossesSince steps n = 0)
    (heq : (mouseAt steps n).shared.observedDropped = (mouseAt steps n).shared.dropped) :
    MouseInv steps (n + 1) ∧
      (readyFrom steps (mouseAt steps n).shared.connected (pendingAt steps n) = [] ∧
          mouseOutput steps n = some 0 ∨
        ∃ a rest p, readyFrom steps (mouseAt steps n).shared.connected (pendingAt steps n) = a :: rest ∧
          HoldsReport steps p a ∧ p.ready (mouseAt steps n).shared.connected = true ∧
          mouseOutput steps n =
            some (mouseEvent p.controller (p.data 0 &&& 7) (p.data 1) (p.data 2))) := by
  set s := (mouseAt steps n).shared with hs
  have hpend : pendingAt steps (n + 1) = (readyFrom steps s.connected (pendingAt steps n)).tail := by
    rw [pendingAt, h]
    exact (if_neg (not_not.mpr heq)).trans (if_pos rfl)
  have hsub : (pendingAt steps (n + 1)).Sublist (pendingAt steps n) := by
    rw [hpend]
    exact (List.tail_sublist _).trans (List.dropWhile_sublist _)
  have hreq : mouseProcessRequest s mouseReadEvent = mouseReadLoop mouseQueueSize s.polled :=
    mouseProcessRequest_of_eq (by decide) heq
  have hrel : List.Forall₂ (HoldsReport steps)
      ((ringList mouseQueueSize s.packets s.tail s.head).dropWhile fun p => !p.ready s.connected)
      (readyFrom steps s.connected (pendingAt steps n)) :=
    forall₂_dropWhile H.ring fun p a hpa => by rw [hpa.ready_eq]
  have hok : ∀ p ∈ ringList mouseQueueSize s.packets s.tail s.head,
      p.controller < mouseControllerCount ∧ p.length ≤ mouseReportBytes := by
    intro p hp
    obtain ⟨a, -, -, hc, hl, -⟩ := exists_of_forall₂_mem H.ring hp
    exact ⟨hc, hl⟩
  obtain ⟨tail, malformed, htail, hspec⟩ := mouseReadLoop_spec mouseQueueSize s.polled H.head H.tail
    hok (Nat.le_of_lt (ringCount_lt (by decide)))
  change (match (ringList mouseQueueSize s.packets s.tail s.head).dropWhile
    (fun p => !p.ready s.connected) with | [] => _ | p :: rest => _) at hspec
  generalize hd : ((ringList mouseQueueSize s.packets s.tail s.head).dropWhile
    fun p => !p.ready s.connected) = d at hspec hrel
  cases d with
  | nil =>
    obtain ⟨htl, hres⟩ := hspec
    rw [List.forall₂_nil_left_iff] at hrel
    have hout : mouseOutput steps n = some 0 := by rw [output_request h, hreq, hres]
    refine ⟨H.step_request h (hreq.trans hres) rfl htail rfl heq.symm H.observed ?_ hsub
      H.polled_small fun c hc => ?_, Or.inl ⟨hrel, hout⟩⟩
    · dsimp only
      rw [hpend, hrel, htl]
      rw [show (s.polled).head = s.head from rfl, ringList_self H.head]
      exact List.Forall₂.nil
    · rw [lastButtons_small hout (by decide)]
      exact ⟨H.polled_buttons hz hc, (H.buttons hz c hc).2⟩
  | cons p rest =>
    obtain ⟨hring, hres⟩ := hspec
    obtain ⟨a, rest', hpa, hrest, hready⟩ := List.forall₂_cons_left_iff.mp hrel
    have hp : p.ready s.connected = true := by
      have hhead := List.head_dropWhile_not (fun p : MousePacket => !p.ready s.connected)
        (show (ringList mouseQueueSize s.packets s.tail s.head).dropWhile
          (fun p => !p.ready s.connected) ≠ [] by rw [hd]; simp)
      simpa [hd] using hhead
    obtain ⟨bytes, -, hc4, -, hconn, h0, h1, h2⟩ := ready_bytes hpa hp
    have hout : mouseOutput steps n =
        some (mouseEvent p.controller (p.data 0 &&& 7) (p.data 1) (p.data 2)) := by
      rw [output_request h, hreq, hres]
    have hb : p.data 0 &&& 7 < 8 := lt_of_le_of_lt Nat.and_le_right (by decide)
    obtain ⟨hv, hnl, -, -, hbut, hctl⟩ := mouseEvent_decode hc4 hb
      (show p.data 1 < 256 by rw [h1]; exact (bytes 1).toNat_lt)
      (show p.data 2 < 256 by rw [h2]; exact (bytes 2).toNat_lt)
    refine ⟨H.step_request h (hreq.trans hres) rfl htail rfl heq.symm H.observed ?_ hsub ?_ ?_,
      Or.inr ⟨a, rest', p, hready, hpa, hp, hout⟩⟩
    · dsimp only
      rw [hpend, hready, List.tail_cons]
      exact hring ▸ hrest
    · intro c
      by_cases hcp : c = p.controller
      · rw [hcp]
        exact lt_of_eq_of_lt (Function.update_self _ _ _) hb
      · exact lt_of_eq_of_lt (Function.update_of_ne hcp _ _) (H.polled_small c)
    · intro c hc
      rw [lastButtons_of_output hout, if_neg hnl, hctl, hbut, hv]
      dsimp only
      by_cases hcp : p.controller = c
      · rw [if_pos ⟨rfl, hcp⟩, ← hcp, Function.update_self]
        refine ⟨rfl, fun hoff => ?_⟩
        rw [show (s.polled).connected = s.connected from rfl, hconn] at hoff
        cases hoff
      · rw [if_neg fun hh => hcp hh.2, Function.update_of_ne (Ne.symm hcp)]
        exact ⟨H.polled_buttons hz hc, (H.buttons hz c hc).2⟩

end MouseInv

end Step

end VirtualKernel
