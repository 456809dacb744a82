/-
Delivery of mouse events to processes.

`mouse_delivery` is the outcome of the invariant of the queue along whole runs:
every event is the report of one arrival, in order and at most once; after an
overflow or a disconnect the next request reports the loss and everything older
is gone; a report that was queued while no loss was pending is delivered; the
buttons are those of the last events.  A loss that is already pending takes a
queued report with it (`not_queuedDelivered_lossyRun`).
-/
import VirtualKernel.MouseQueue
import Mathlib.Data.List.TakeWhile

namespace VirtualKernel

open Lib

/-! ### Whole runs -/

section Run

variable {steps : ℕ → MouseStep}

theorem foldl_or_lt {f : ℕ → ℕ} (hf : ∀ c, f c < 8) (l : List ℕ) :
    ∀ b < 8, l.foldl (fun b id => b ||| f id) b < 8 := by
  induction l with
  | nil => exact fun b hb => hb
  | cons c l ih => exact fun b hb => ih _ (Nat.or_lt_two_pow (n := 3) hb (hf c))

/-- The query for the buttons, while no loss is pending. -/
theorem MouseInv.buttons_query {n : ℕ} (H : MouseInv steps n)
    (h : steps n = .request mouseGetButtons) (hz : lossesSince steps n = 0)
    (heq : (mouseAt steps n).shared.observedDropped = (mouseAt steps n).shared.dropped) :
    mouseOutput steps n = some ((List.range mouseControllerCount).foldl (fun b c =>
      if (mouseAt steps n).shared.connected.testBit c then b ||| lastButtons steps c n else b) 0) := by
  rw [MouseInv.output_request h, mouseProcessRequest_of_eq (by decide) heq, if_neg (by decide),
    if_pos rfl]
  refine congrArg some (List.foldl_ext _ _ _ fun b c hc => ?_)
  have hc4 := List.mem_range.mp hc
  rw [H.polled_buttons hz hc4]
  split_ifs with hon
  · rfl
  · rw [(H.buttons hz c hc4).2 (by simpa using hon), Nat.or_zero]

/-- **The three outcomes of a request**: a pending loss is reported, a query is
answered, or the first report that can be delivered is taken from the ring. -/
theorem MouseInv.request {n operation : ℕ} (H : MouseInv steps n)
    (hop : operation ≤ mouseGetDevices) (hs : lossesSince steps n < 2 ^ 32)
    (h : steps n = .request operation) :
    MouseInv steps (n + 1) ∧
      (lossesSince steps n ≠ 0 ∧ mouseOutput steps n = some mouseEventLost ∧
          pendingAt steps (n + 1) = [] ∨
        operation ≠ mouseReadEvent ∧ (∃ r < 16, mouseOutput steps n = some r) ∧
          pendingAt steps (n + 1) = pendingAt steps n ∨
        operation = mouseReadEvent ∧
          pendingAt steps (n + 1) =
            (readyFrom steps (mouseAt steps n).shared.connected (pendingAt steps n)).tail ∧
          (readyFrom steps (mouseAt steps n).shared.connected (pendingAt steps n) = [] ∧
              mouseOutput steps n = some 0 ∨
            ∃ a rest p,
              readyFrom steps (mouseAt steps n).shared.connected (pendingAt steps n) = a :: rest ∧
              HoldsReport steps p a ∧ p.ready (mouseAt steps n).shared.connected = true ∧
              mouseOutput steps n =
                some (mouseEvent p.controller (p.data 0 &&& 7) (p.data 1) (p.data 2)))) := by
  by_cases heq : (mouseAt steps n).shared.observedDropped = (mouseAt steps n).shared.dropped
  · have hz := (H.observed_eq_iff hs).mp heq
    have hreq := mouseProcessRequest_of_eq hop heq
    have hout := MouseInv.output_request h
    by_cases h2 : operation = mouseGetDevices
    · have hne : operation ≠ mouseReadEvent := by rw [h2]; decide
      rw [if_pos h2] at hreq
      rw [hreq] at hout
      obtain ⟨hp, H'⟩ := H.step_query hne h hz heq hreq H.connected
      exact ⟨H', Or.inr (Or.inl ⟨hne, ⟨_, H.connected, hout⟩, hp⟩)⟩
    rw [if_neg h2] at hreq
    by_cases h1 : operation = mouseGetButtons
    · have hne : operation ≠ mouseReadEvent := by rw [h1]; decide
      rw [if_pos h1] at hreq
      rw [hreq] at hout
      have hlt := lt_trans (foldl_or_lt H.polled_small (List.range mouseControllerCount) 0
        (by decide)) (show 8 < 16 by decide)
      obtain ⟨hp, H'⟩ := H.step_query hne h hz heq hreq hlt
      exact ⟨H', Or.inr (Or.inl ⟨hne, ⟨_, hlt, hout⟩, hp⟩)⟩
    · have h0 : operation = mouseReadEvent := by
        simp only [mouseGetDevices, mouseGetButtons] at hop h1 h2
        simp only [mouseReadEvent]
        omega
      subst h0
      obtain ⟨H', hres⟩ := H.step_read h hz heq
      refine ⟨H', Or.inr (Or.inr ⟨rfl, ?_, hres⟩)⟩
      rw [pendingAt, h]
      exact (if_neg (not_not.mpr heq)).trans (if_pos rfl)
  · obtain ⟨hout, hp, H'⟩ := H.step_lost hop h heq
    exact ⟨H', Or.inl ⟨fun hz => heq ((H.observed_eq_iff hs).mpr hz), hout, hp⟩⟩

/-- **One step keeps the invariant.** -/
theorem MouseInv.step {n : ℕ} (H : MouseInv steps n) (hv : (steps n).Valid)
    (hs : lossesSince steps n < 2 ^ 32) : MouseInv steps (n + 1) := by
  cases h : steps n with
  | receive c e =>
    rw [h] at hv
    cases e with
    | connected => exact H.step_connected hv h
    | data bytes length => exact H.step_data hv.1 hv.2 h
    | disconnected => exact H.step_disconnected hv h
  | request operation =>
    rw [h] at hv
    exact (H.request hv hs h).1

/-- **The invariant holds in every run.** -/
theorem mouse_invariant (hv : ∀ n, (steps n).Valid) (hs : ∀ n, lossesSince steps n < 2 ^ 32) :
    ∀ n, MouseInv steps n
  | 0 => mouse_inv_zero
  | n + 1 => (mouse_invariant hv hs n).step (hv n) (hs n)

/-- Pending reports were pending before or have just arrived. -/
theorem pendingAt_succ {n a : ℕ} (h : a ∈ pendingAt steps (n + 1)) :
    a ∈ pendingAt steps n ∨ a = n := by
  rw [pendingAt] at h
  split at h
  · split_ifs at h
    · exact Or.inl h
    · rcases List.mem_append.mp h with h | h
      · exact Or.inl h
      · exact Or.inr (List.mem_singleton.mp h)
  · exact Or.inl h
  · split_ifs at h
    · exact absurd h List.not_mem_nil
    · exact Or.inl ((List.dropWhile_sublist _).subset (List.mem_of_mem_tail h))
    · exact Or.inl h

theorem pendingAt_mem {t t' a : ℕ} (htt : t ≤ t') (h : a ∈ pendingAt steps t') :
    a ∈ pendingAt steps t ∨ t ≤ a := by
  induction t', htt using Nat.le_induction with
  | base => exact Or.inl h
  | succ t' hle ih =>
    rcases pendingAt_succ h with h | rfl
    · exact ih h
    · exact Or.inr hle

/-- What a step that returns an event has done. -/
theorem MouseInv.delivers {n r : ℕ} (H : MouseInv steps n) (hv : (steps n).Valid)
    (hs : lossesSince steps n < 2 ^ 32) (hd : Delivers steps n r) :
    steps n = .request mouseReadEvent ∧ ∃ rest p,
      readyFrom steps (mouseAt steps n).shared.connected (pendingAt steps n) =
        sourceAt steps n :: rest ∧
      HoldsReport steps p (sourceAt steps n) ∧
      p.ready (mouseAt steps n).shared.connected = true ∧
      r = mouseEvent p.controller (p.data 0 &&& 7) (p.data 1) (p.data 2) := by
  obtain ⟨hout, hbit⟩ := hd
  have hsmall : ∀ x < 2 ^ 31, mouseOutput steps n ≠ some x := by
    intro x hx hx'
    rw [hx'] at hout
    rw [Option.some.inj hout] at hx
    rw [Nat.testBit_lt_two_pow hx] at hbit
    cases hbit
  cases h : steps n with
  | receive c e =>
    rw [MouseInv.output_eq h] at hout
    cases hout
  | request operation =>
    rw [h] at hv
    rcases (H.request hv hs h).2 with ⟨-, hlost, -⟩ | ⟨-, ⟨x, hx, hquery⟩, -⟩ | ⟨rfl, -, hread⟩
    · exact absurd hlost (hsmall _ (by decide))
    · exact absurd hquery (hsmall x (lt_trans hx (by decide)))
    · refine ⟨rfl, ?_⟩
      rcases hread with ⟨-, hzero⟩ | ⟨a, rest, p, hready, hp, hrdy, hev⟩
      · exact absurd hzero (hsmall 0 (by decide))
      · have hsrc : sourceAt steps n = a := by
          rw [sourceAt, hready]
          rfl
        rw [hev] at hout
        rw [hsrc]
        exact ⟨rest, p, hready, hp, hrdy, (Option.some.inj hout).symm⟩

/-! ### Delivery -/

/-- Queued reports reach their reader: a report of a connected controller that
found room in the ring while `ok` held, with no loss until the ring has been
read out, is delivered in between. -/
def QueuedDelivered (steps : ℕ → MouseStep) (source : ℕ → ℕ) (ok : ℕ → Prop) : Prop :=
  ∀ a b c length bytes, steps a = .receive c (.data bytes length) → 3 ≤ length →
    (mouseAt steps a).shared.connected.testBit c = true → ¬(mouseAt steps a).shared.Full → ok a →
    a < b → (∀ t, a < t → t < b → loses (mouseAt steps t) (steps t) = false) →
    (mouseAt steps b).shared.tail = (mouseAt steps b).shared.head →
    ∃ t r, a < t ∧ t < b ∧ Delivers steps t r ∧ source t = a

/-- What the processes see of the reports; `source t` is the arrival time of
the report that step `t` delivers. -/
structure MouseDelivery (steps : ℕ → MouseStep) (source : ℕ → ℕ) : Prop where
  /-- Events are reports, of controllers connected at delivery, decoded right. -/
  event : ∀ t r, Delivers steps t r → source t < t ∧ ∃ c length bytes,
    steps (source t) = .receive c (.data bytes length) ∧ 3 ≤ length ∧
      (mouseAt steps t).shared.connected.testBit c = true ∧
      userMouseDx r = int8 (bytes 1).toNat ∧ userMouseDy r = int8 (bytes 2).toNat ∧
      userMouseButtons r = (bytes 0).toNat &&& 7 ∧ userMouseController r = c
  /-- They come in the order of arrival, no report twice. -/
  order : ∀ t t' r r', Delivers steps t r → Delivers steps t' r' → t < t' → source t < source t'
  /-- The first request after a loss reports it, and older reports are gone. -/
  lost : ∀ t u operation, loses (mouseAt steps t) (steps t) = true → t < u →
    steps u = .request operation → (∀ i, t < i → i < u → ∀ o, steps i ≠ .request o) →
    mouseOutput steps u = some mouseEventLost ∧ ∀ t' r, u ≤ t' → Delivers steps t' r → u < source t'
  /-- A report queued while no loss is pending is delivered. -/
  queued : QueuedDelivered steps source fun a => lossesSince steps a = 0
  /-- Without a pending loss the buttons are those of the last events. -/
  buttons : ∀ n, steps n = .request mouseGetButtons → lossesSince steps n = 0 →
    mouseOutput steps n = some ((List.range mouseControllerCount).foldl (fun b c =>
      if (mouseAt steps n).shared.connected.testBit c then b ||| lastButtons steps c n else b) 0)

theorem mouseReadLoop_connected : ∀ (remaining : ℕ) (s : MouseShared),
    (mouseReadLoop remaining s).2.connected = s.connected := by
  intro remaining
  induction remaining with
  | zero => exact fun s => rfl
  | succ remaining ih =>
    intro s
    rw [mouseReadLoop]
    dsimp only
    split_ifs
    · rfl
    · rw [ih]
    · rfl
    · rw [ih]

theorem mouseProcessRequest_connected (s : MouseShared) {operation : ℕ}
    (hop : operation ≤ mouseGetDevices) :
    (mouseProcessRequest s operation).2.connected = s.connected := by
  by_cases heq : s.observedDropped = s.dropped
  · rw [mouseProcessRequest_of_eq hop heq]
    split_ifs
    · rfl
    · rfl
    · rw [mouseReadLoop_connected]
      rfl
  · obtain ⟨buttons, -, -, hr⟩ := mouseProcessRequest_lost hop heq
    rw [hr]

/-- Only a disconnect takes a controller away. -/
theorem connected_succ {n c : ℕ} (hv : (steps n).Valid)
    (hl : loses (mouseAt steps n) (steps n) = false)
    (hc : (mouseAt steps n).shared.connected.testBit c = true) :
    (mouseAt steps (n + 1)).shared.connected.testBit c = true := by
  rw [mouseAt]
  cases h : steps n with
  | receive c' e =>
    rw [h] at hl
    rw [MouseStep.exec]
    dsimp only
    by_cases hbad : mouseControllerCount ≤ c'
    · rw [show mouseReceive (mouseAt steps n) c' e = mouseAt steps n from if_pos hbad]
      exact hc
    · cases e with
      | connected =>
        rw [mouseReceive, if_neg hbad]
        dsimp only
        rw [Nat.testBit_or, hc, Bool.true_or]
      | data bytes length =>
        rw [mouseReceive, if_neg hbad]
        dsimp only
        rw [mouseQueueReport]
        split_ifs <;> exact hc
      | disconnected => cases hl
  | request operation =>
    rw [h] at hv
    rw [MouseStep.exec]
    dsimp only
    rw [mouseProcessRequest_connected _ hv]
    exact hc

theorem lossesSince_succ {n : ℕ} (hl : loses (mouseAt steps n) (steps n) = false)
    (hz : lossesSince steps n = 0) : lossesSince steps (n + 1) = 0 := by
  rw [lossesSince]
  cases h : steps n with
  | receive c e =>
    rw [h] at hl
    dsimp only
    rw [hz, hl]
    rfl
  | request operation => rfl

/-- A loss stays pending until a request. -/
theorem lossesSince_pos {t u : ℕ} (hl : loses (mouseAt steps t) (steps t) = true) (htu : t < u)
    (hreq : ∀ i, t < i → i < u → ∀ o, steps i ≠ .request o) : lossesSince steps u ≠ 0 := by
  induction u, htu using Nat.le_induction with
  | base =>
    rw [Nat.succ_eq_add_one, lossesSince]
    cases h : steps t with
    | receive c e =>
      rw [h] at hl
      dsimp only
      rw [hl]
      exact Nat.succ_ne_zero _
    | request operation =>
      rw [h] at hl
      cases hl
  | succ u hle ih =>
    have hprev := ih fun i h1 h2 => hreq i h1 (Nat.lt_succ_of_lt h2)
    rw [lossesSince]
    cases h : steps u with
    | receive c e =>
      dsimp only
      omega
    | request operation => exact absurd h (hreq u hle (Nat.lt_succ_self u) operation)

theorem mem_readyFrom {connected a : ℕ} {l : List ℕ} (ha : a ∈ l)
    (hd : deliverable steps connected a = true) : a ∈ readyFrom steps connected l := by
  rw [← List.takeWhile_append_dropWhile (p := fun a => !deliverable steps connected a) (l := l)] at ha
  rcases List.mem_append.mp ha with h | h
  · have := List.mem_takeWhile_imp h
    rw [hd] at this
    cases this
  · exact h

/-- The source of an event was pending, before everything that stays. -/
theorem MouseInv.source {n r : ℕ} (H : MouseInv steps n) (hv : (steps n).Valid)
    (hs : lossesSince steps n < 2 ^ 32) (hd : Delivers steps n r) :
    sourceAt steps n ∈ pendingAt steps n ∧ ∀ a ∈ pendingAt steps (n + 1), sourceAt steps n < a := by
  obtain ⟨h, rest, p, hready, -, -, -⟩ := H.delivers hv hs hd
  have hsub : (sourceAt steps n :: rest).Sublist (pendingAt steps n) := by
    rw [← hready]
    exact List.dropWhile_sublist _
  refine ⟨hsub.subset List.mem_cons_self, fun a ha => ?_⟩
  have hpend : pendingAt steps (n + 1) = rest := by
    rw [h] at hv
    rcases (H.request hv hs h).2 with ⟨-, hlost, -⟩ | ⟨hne, -⟩ | ⟨-, hp, -⟩
    · obtain ⟨hout, hbit⟩ := hd
      rw [hlost] at hout
      rw [← Option.some.inj hout] at hbit
      exact absurd hbit (by decide)
    · exact absurd rfl hne
    · rw [hp, hready, List.tail_cons]
  rw [hpend] at ha
  exact (List.pairwise_cons.mp (H.sorted.sublist hsub)).1 a ha

/-- **Queued reports are delivered.** -/
theorem queued_delivered (hv : ∀ n, (steps n).Valid) (hs : ∀ n, lossesSince steps n < 2 ^ 32) :
    QueuedDelivered steps (sourceAt steps) fun a => lossesSince steps a = 0 := by
  intro a b c length bytes ha hlen hc hfull hz hab hloss hempty
  have Hinv := mouse_invariant hv hs
  have hnl : ∀ t, a ≤ t → t < b → loses (mouseAt steps t) (steps t) = false := by
    intro t hat htb
    rcases Nat.lt_or_eq_of_le hat with h | rfl
    · exact hloss t h htb
    · rw [ha]
      exact decide_eq_false hfull
  have hkeep : ∀ t, a ≤ t → t ≤ b →
      lossesSince steps t = 0 ∧ (mouseAt steps t).shared.connected.testBit c = true := by
    intro t hat
    induction t, hat using Nat.le_induction with
    | base => exact fun _ => ⟨hz, hc⟩
    | succ t hle ih =>
      intro htb
      obtain ⟨h1, h2⟩ := ih (by omega)
      have hl := hnl t hle (by omega)
      exact ⟨lossesSince_succ hl h1, connected_succ (hv t) hl h2⟩
  -- until it is delivered, the report stays pending
  have key : ∀ t, a < t → t ≤ b → a ∈ pendingAt steps t ∨
      ∃ u r, a < u ∧ u < t ∧ Delivers steps u r ∧ sourceAt steps u = a := by
    intro t hat
    induction t, hat using Nat.le_induction with
    | base =>
      intro _
      refine Or.inl ?_
      rw [Nat.succ_eq_add_one, pendingAt, ha]
      dsimp only
      rw [if_neg hfull]
      exact List.mem_append_right _ (List.mem_singleton_self a)
    | succ t hle ih =>
      intro htb
      have hat : a < t := hle
      rcases ih (by omega) with hin | ⟨u, r, h1, h2, h3, h4⟩
      · have hl := hnl t hat.le (by omega)
        obtain ⟨hzt, hct⟩ := hkeep t hat.le (by omega)
        cases h : steps t with
        | receive c' e =>
          rw [h] at hl
          refine Or.inl ?_
          rw [pendingAt, h]
          cases e with
          | connected => exact hin
          | data bytes' length' =>
            dsimp only
            split_ifs
            · exact hin
            · exact List.mem_append_left _ hin
          | disconnected => cases hl
        | request operation =>
          have hvt := hv t
          rw [h] at hvt
          rcases ((Hinv t).request hvt (hs t) h).2 with ⟨hne, -⟩ | ⟨-, -, hp⟩ | ⟨rfl, hp, hread⟩
          · exact absurd hzt hne
          · rw [hp]
            exact Or.inl hin
          · have hmem : a ∈ readyFrom steps (mouseAt steps t).shared.connected (pendingAt steps t) :=
              mem_readyFrom hin (by simp [deliverable, ha, hlen, hct])
            rcases hread with ⟨hnil, -⟩ | ⟨a', rest, p, hready, hp', hrdy, hout⟩
            · rw [hnil] at hmem
              exact absurd hmem List.not_mem_nil
            · rw [hp, hready, List.tail_cons]
              rw [hready] at hmem
              rcases List.mem_cons.mp hmem with rfl | hmem
              · obtain ⟨bytes', -, hc4, -, -, -, hx, hy⟩ := MouseInv.ready_bytes hp' hrdy
                have hval := (mouseEvent_decode hc4
                  (lt_of_le_of_lt (Nat.and_le_right (n := p.data 0)) (by decide : 7 < 8))
                  (show p.data 1 < 256 by rw [hx]; exact (bytes' 1).toNat_lt)
                  (show p.data 2 < 256 by rw [hy]; exact (bytes' 2).toNat_lt)).1
                refine Or.inr ⟨t, _, hat, Nat.lt_succ_self t, ⟨hout, hval⟩, ?_⟩
                rw [sourceAt, hready]
                rfl
              · exact Or.inl hmem
      · exact Or.inr ⟨u, r, h1, by omega, h3, h4⟩
  rcases key b hab le_rfl with hin | ⟨u, r, h1, h2, h3, h4⟩
  · -- an empty ring has nothing pending
    have hring := (Hinv b).ring
    rw [hempty, ringList_self (Hinv b).head, List.forall₂_nil_left_iff] at hring
    rw [hring] at hin
    exact absurd hin List.not_mem_nil
  · exact ⟨u, r, h1, h2, h3, h4⟩

/-- **Mouse events are delivered** in every run of callbacks and requests with
fewer than `2 ^ 32` losses between two requests. -/
theorem mouse_delivery (hv : ∀ n, (steps n).Valid) (hs : ∀ n, lossesSince steps n < 2 ^ 32) :
    ∃ source, MouseDelivery steps source := by
  have Hinv := mouse_invariant hv hs
  refine ⟨sourceAt steps, ?_, ?_, ?_, queued_delivered hv hs, ?_⟩
  · intro t r hd
    obtain ⟨-, rest, p, -, hp, hrdy, rfl⟩ := (Hinv t).delivers (hv t) (hs t) hd
    obtain ⟨bytes, hstep, hc4, hlen, hconn, h0, h1, h2⟩ := MouseInv.ready_bytes hp hrdy
    obtain ⟨-, -, hx, hy, hb, hctl⟩ := mouseEvent_decode hc4
      (lt_of_le_of_lt (Nat.and_le_right (n := p.data 0)) (by decide : 7 < 8))
      (show p.data 1 < 256 by rw [h1]; exact (bytes 1).toNat_lt)
      (show p.data 2 < 256 by rw [h2]; exact (bytes 2).toNat_lt)
    refine ⟨(Hinv t).bound _ ((Hinv t).source (hv t) (hs t) hd).1, p.controller, p.length, bytes,
      hstep, hlen, hconn, ?_, ?_, ?_, hctl⟩
    · rw [hx, h1]
    · rw [hy, h2]
    · rw [hb, h0]
  · intro t t' r r' hd hd' htt
    have hlater := ((Hinv t).source (hv t) (hs t) hd).2
    have hmem := ((Hinv t').source (hv t') (hs t') hd').1
    rcases pendingAt_mem (show t + 1 ≤ t' from htt) hmem with h | h
    · exact hlater _ h
    · have := (Hinv t).bound _ ((Hinv t).source (hv t) (hs t) hd).1
      omega
  · intro t u operation hl htu hu hreq
    have hvu := hv u
    rw [hu] at hvu
    obtain ⟨hout, hnil⟩ : mouseOutput steps u = some mouseEventLost ∧
        pendingAt steps (u + 1) = [] := by
      have hne := lossesSince_pos hl htu hreq
      have heq : (mouseAt steps u).shared.observedDropped ≠ (mouseAt steps u).shared.dropped :=
        fun h => hne (((Hinv u).observed_eq_iff (hs u)).mp h)
      obtain ⟨h1, h2, -⟩ := (Hinv u).step_lost hvu hu heq
      exact ⟨h1, h2⟩
    refine ⟨hout, fun t' r hut hd => ?_⟩
    have htu' : u + 1 ≤ t' := by
      rcases Nat.lt_or_eq_of_le hut with h | rfl
      · exact h
      · obtain ⟨h1, h2⟩ := hd
        rw [hout] at h1
        rw [← Option.some.inj h1] at h2
        exact absurd h2 (by decide)
    rcases pendingAt_mem htu' ((Hinv t').source (hv t') (hs t') hd).1 with h | h
    · rw [hnil] at h
      exact absurd h List.not_mem_nil
    · exact h
  · intro n hn hz
    exact (Hinv n).buttons_query hn hz (((Hinv n).observed_eq_iff (hs n)).mpr hz)

end Run

/-! A second controller goes away before the first one reports. -/

/-- Both reports of controller 0 move right and up, with the left button. -/
def lossyRun : ℕ → MouseStep
  | 0 => .receive 0 .connected
  | 1 => .receive 1 .connected
  | 2 => .receive 1 .disconnected
  | 3 => .receive 0 (.data (fun b => if b = 0 then 1 else if b = 1 then 5 else 250) 3)
  | 4 => .request mouseReadEvent
  | 5 => .receive 0 (.data (fun b => if b = 0 then 1 else if b = 1 then 5 else 250) 3)
  | 6 => .request mouseReadEvent
  | _ => .request mouseGetDevices

theorem lossyRun_valid : ∀ n, (lossyRun n).Valid
  | 0 | 1 | 2 | 3 | 4 | 5 | 6 => by decide
  | _ + 7 => show mouseGetDevices ≤ mouseGetDevices from le_rfl

theorem lossyRun_losses : ∀ n, lossesSince lossyRun n < 2 ^ 32
  | 0 | 1 | 2 | 3 | 4 | 5 | 6 | 7 => by decide
  | n + 8 => by
    have h : lossesSince lossyRun (n + 8) = 0 := rfl
    rw [h]
    decide

theorem mouse_delivery_lossyRun : (∀ n, (lossyRun n).Valid) ∧
    (∀ n, lossesSince lossyRun n < 2 ^ 32) ∧ mouseOutput lossyRun 6 = some 0x80FA0501 ∧
    ∃ source, MouseDelivery lossyRun source :=
  ⟨lossyRun_valid, lossyRun_losses, by decide, mouse_delivery lossyRun_valid lossyRun_losses⟩

/-- **A pending loss takes the report with it**: the report of step 3 finds
room, controller 0 stays connected and nothing is lost after it, but the loss
of step 2 is still pending when the ring is read out. -/
theorem not_queuedDelivered_lossyRun :
    (∀ n, (lossyRun n).Valid) ∧ (∀ n, lossesSince lossyRun n < 2 ^ 32) ∧
      ¬∃ source, QueuedDelivered lossyRun source fun _ => True := by
  refine ⟨lossyRun_valid, lossyRun_losses, ?_⟩
  rintro ⟨source, h⟩
  obtain ⟨t, r, h1, h2, ⟨hout, hbit⟩, -⟩ := h 3 5 0 3 _ rfl (by decide) (by decide) (by decide)
    trivial (by decide) (fun t h1 h2 => by
      obtain rfl : t = 4 := by omega
      decide) (by decide)
  obtain rfl : t = 4 := by omega
  rw [show mouseOutput lossyRun 4 = some mouseEventLost by decide] at hout
  rw [← Option.some.inj hout] at hbit
  exact absurd hbit (by decide)

end VirtualKernel
