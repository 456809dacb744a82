/-
The history of the mouse ports.

The log says when a port is probed, what has been written to the port registers, and
what the mouse driver has noted about its ports.  `Allowed` says when a request to
address 0, a probe, its failure and a note of a change may occur, and `Kept` connects
the history with the variables of the driver; polls, probes, scans and the start of the
driver keep it.

* **`address_zero_alone`** — while a device is asked at address 0 no other port of its
  controller is enabled, and a failed probe leaves its port disabled;
* **`probes_debounced`** — a port is probed again only after a change, or the end of its
  stream, and when it has been seen connected twice.
-/
import VirtualKernel.UsbHotplug

namespace VirtualKernel

open Lib

/-! ### Reading the history -/

/-- What is written to a port. -/
def UsbEvent.written (id port : ℕ) : UsbEvent → Option ℕ
  | .port i p value => if i = id ∧ p = port then some value else none
  | _ => none

/-- The port of a controller that is being probed. -/
def UsbEvent.probing (id : ℕ) : UsbEvent → Option (Option ℕ)
  | .probe i p => if i = id then some (some p) else none
  | .probed i _ _ => if i = id then some none else none
  | _ => none

/-- The port of a controller that has a stream. -/
def UsbEvent.streaming (id : ℕ) : UsbEvent → Option (Option ℕ)
  | .started i p => if i = id then some (some p) else none
  | .ended i _ => if i = id then some none else none
  | _ => none

/-- What is noted of the connection of a port. -/
def UsbEvent.connection (id port : ℕ) : UsbEvent → Option ℕ
  | .booted i p connected _ => if i = id ∧ p = port then some connected else none
  | .changed i p connected _ => if i = id ∧ p = port then some connected else none
  | .forgot i p => if i = id ∧ p = port then some 0 else none
  | _ => none

/-- What is noted of its generation. -/
def UsbEvent.generation (id port : ℕ) : UsbEvent → Option ℕ
  | .booted i p _ generation => if i = id ∧ p = port then some generation else none
  | .changed i p _ generation => if i = id ∧ p = port then some generation else none
  | _ => none

/-- A probe uses up the attempt of a port; a change that is noted, or the end of its
stream, gives it a new one. -/
def UsbEvent.rearms (id port : ℕ) : UsbEvent → Option Bool
  | .probe i p => if i = id ∧ p = port then some false else none
  | .changed i p _ _ => if i = id ∧ p = port then some true else none
  | .ended i p => if i = id ∧ p = port then some true else none
  | _ => none

/-- The marks of the probes and scans of a port. -/
def UsbEvent.ofPort (id port : ℕ) : UsbEvent → Bool
  | .probe i p => i = id ∧ p = port
  | .scan i p _ _ => i = id ∧ p = port
  | .forgot i p => i = id ∧ p = port
  | .changed i p _ _ => i = id ∧ p = port
  | _ => false

/-- The marks of streams and of the mouse driver. -/
def UsbEvent.mark : UsbEvent → Bool
  | .controlTd .. => false
  | e => e.loud

/-- The port of a stream, as the history has it. -/
def streamOf (id : ℕ) (l : List UsbEvent) : Option ℕ := (latest (·.streaming id) l).join

def connectedAt (id port : ℕ) (l : List UsbEvent) : ℕ := (latest (·.connection id port) l).getD 0

def generationAt (id port : ℕ) (l : List UsbEvent) : ℕ := (latest (·.generation id port) l).getD 0

/-- The port has not been probed since the last change or the end of its stream. -/
def armed (id port : ℕ) (l : List UsbEvent) : Bool := (latest (·.rearms id port) l).getD true

/-- The last value written to the port has none of the bits of `mask`. -/
def Clear (mask id port : ℕ) (l : List UsbEvent) : Prop :=
  ∃ value, latest (·.written id port) l = some value ∧ value &&& mask = 0

/-- A scan has just read the port as connected, as an earlier look at the port had it,
and the port has an attempt left. -/
def Debounced (id port : ℕ) (l : List UsbEvent) : Prop :=
  ∃ l₁ l₂ generation, l = l₁ ++ .scan id port 1 generation :: l₂ ∧ (∀ e ∈ l₂, e.mark = false) ∧
    connectedAt id port l₁ = 1 ∧ generationAt id port l₁ = generation ∧ armed id port l₁ = true

/-- What may follow on a history: a request to address 0 while one port is probed and the
other one disabled, a failed probe with its port disabled, the first probe of a port or a
debounced one, and the note of a real change. -/
def Allowed (l : List UsbEvent) : UsbEvent → Prop
  | .controlTd id _ address _ _ _ => address = 0 → ∃ port ≤ 1,
      latest (·.probing id) l = some (some port) ∧ Clear 4 id (1 - port) l
  | .probed id port ok => ok = false → Clear 0x204 id port l
  | .probe id port => streamOf id l = none ∧
      ((∀ e ∈ l, e.ofPort id port = false) ∨ Debounced id port l)
  | .changed id port connected generation =>
      connected ≠ connectedAt id port l ∨ generation ≠ generationAt id port l
  | _ => True

/-! One more event. -/

section Concat

variable (id port : ℕ) (l : List UsbEvent) (e : UsbEvent)

theorem streamOf_concat : streamOf id (l ++ [e]) = (e.streaming id).getD (streamOf id l) := by
  rw [streamOf, latest_concat]
  cases e.streaming id with
  | none => rfl
  | some _ => rfl

theorem connectedAt_concat :
    connectedAt id port (l ++ [e]) = (e.connection id port).getD (connectedAt id port l) := by
  rw [connectedAt, latest_concat]
  cases e.connection id port with
  | none => rfl
  | some _ => rfl

theorem generationAt_concat :
    generationAt id port (l ++ [e]) = (e.generation id port).getD (generationAt id port l) := by
  rw [generationAt, latest_concat]
  cases e.generation id port with
  | none => rfl
  | some _ => rfl

theorem armed_concat : armed id port (l ++ [e]) = (e.rearms id port).getD (armed id port l) := by
  rw [armed, latest_concat]
  cases e.rearms id port with
  | none => rfl
  | some _ => rfl

end Concat

/-! Only marks say anything. -/

theorem mark_silent {e : UsbEvent} (h : e.mark = false) (id port : ℕ) :
    e.probing id = none ∧ e.streaming id = none ∧ e.connection id port = none ∧
      e.generation id port = none ∧ e.rearms id port = none ∧ e.ofPort id port = false := by
  cases e with
  | started => cases h
  | ended => cases h
  | probe => cases h
  | probed => cases h
  | booted => cases h
  | scan => cases h
  | forgot => cases h
  | changed => cases h
  | _ => exact ⟨rfl, rfl, rfl, rfl, rfl, rfl⟩

theorem loud_mark {e : UsbEvent} (h : e.loud = false) : e.mark = false := by
  cases e with
  | controlTd => rfl
  | _ => exact h

theorem ofProbe_mark {id port : ℕ} {e : UsbEvent} (h : e.ofProbe id port = true) :
    e.mark = false := by
  cases e with
  | controlTd => rfl
  | port => rfl
  | _ => exact loud_mark (ofHost_quiet (show UsbEvent.ofHost id _ = true from h))

theorem ofProbe_beside {id port other : ℕ} (hother : other ≠ port) {e : UsbEvent}
    (h : e.ofProbe id port = true) : e.written id other = none := by
  cases e with
  | port i p value =>
    obtain ⟨-, rfl⟩ := of_decide_eq_true h
    exact if_neg fun h => hother h.2.symm
  | _ => rfl

/-- What is quiet is allowed at any time. -/
theorem allowed_quiet {l : List UsbEvent} {e : UsbEvent} (h : e.loud = false) : Allowed l e := by
  cases e with
  | controlTd => cases h
  | probe => cases h
  | probed => cases h
  | changed => cases h
  | _ => trivial

/-! ### The history and the variables -/

/-- The history agrees with what the driver knows of a port; the controllers from `B` on have
not been started. -/
structure Noted (B id port : ℕ) (s : Usb) : Prop where
  connection : connectedAt id port s.log = (s.hotplug id port).connected
  generation : generationAt id port s.log = (s.hotplug id port).generation
  tried : id < B → (s.hotplug id port).attempted = 0 → armed id port s.log = true
  untried : B ≤ id → (s.mousePort id port).status = usbMouseNotProbed → armed id port s.log = true
  shown : (s.mousePort id port).status = usbMouseStreaming →
    (s.controllers id).active = true ∧ (s.controllers id).port = port ∨ armed id port s.log = true
  fresh : B ≤ id → (s.mousePort id port).status = usbMouseNotProbed →
    ∀ e ∈ s.log, e.ofPort id port = false

/-- The history is allowed and agrees with the variables of the driver. -/
structure Kept (B : ℕ) (s : Usb) : Prop where
  lawful : Sequenced Allowed s.log
  located : ∀ id, (s.controllers id).frames = true → (s.info id).ioBase ≠ 0
  stream : ∀ id, streamOf id s.log =
    if (s.controllers id).active = true then some (s.controllers id).port else none
  noted : ∀ id, ∀ p ≤ 1, Noted B id p s

section Kept

variable {B id port : ℕ} {s t : Usb} {P : UsbEvent → Prop} {α : Type} {m : UsbM α}

/-- Events that are not about a port. -/
def Beside (id port : ℕ) (e : UsbEvent) : Prop :=
  e.connection id port = none ∧ e.generation id port = none ∧ e.rearms id port = none ∧
    e.ofPort id port = false

theorem mark_beside {e : UsbEvent} (h : e.mark = false) (id port : ℕ) : Beside id port e :=
  (mark_silent h id port).2.2

/-- What is known of a port does not change with the rest. -/
theorem Noted.of_beside (N : Noted B id port s) {l : List UsbEvent} (hlog : t.log = s.log ++ l)
    (hl : ∀ e ∈ l, Beside id port e) (hhotplug : t.hotplug id port = s.hotplug id port)
    (hmouse : t.mousePort id port = s.mousePort id port)
    (hstream : t.stream id = s.stream id) : Noted B id port t := by
  simp only [Usb.stream, Prod.mk.injEq] at hstream
  have harmed : armed id port t.log = armed id port s.log := by
    rw [armed, hlog, latest_append fun e he => (hl e he).2.2.1]
    rfl
  constructor
  · rw [connectedAt, hlog, latest_append fun e he => (hl e he).1, hhotplug]
    exact N.connection
  · rw [generationAt, hlog, latest_append fun e he => (hl e he).2.1, hhotplug]
    exact N.generation
  · rw [harmed, hhotplug]
    exact N.tried
  · rw [harmed, hmouse]
    exact N.untried
  · rw [harmed, hmouse, hstream.2.1, hstream.2.2]
    exact N.shown
  · rw [hlog, hmouse]
    intro hid hstatus e he
    rcases List.mem_append.mp he with he | he
    · exact N.fresh hid hstatus e he
    · exact (hl e he).2.2.2

/-- A step that notes something of one port and leaves the streams alone. -/
theorem Kept.change (id port : ℕ) (K : Kept B s) {l : List UsbEvent} (hlog : t.log = s.log ++ l)
    (hlawful : Sequenced Allowed (s.log ++ l)) (hl : ∀ e ∈ l, ∀ i, e.streaming i = none)
    (hstream : ∀ i, t.stream i = s.stream i) (hio : ∀ i, (t.info i).ioBase = (s.info i).ioBase)
    (hothers : ∀ i p, ¬(i = id ∧ p = port) → (∀ e ∈ l, Beside i p e) ∧
      t.hotplug i p = s.hotplug i p ∧ t.mousePort i p = s.mousePort i p)
    (N : Noted B id port t) : Kept B t := by
  refine ⟨hlog ▸ hlawful, fun i => ?_, fun i => ?_, fun i p hp => ?_⟩
  · have hs := hstream i
    simp only [Usb.stream, Prod.mk.injEq] at hs
    rw [hs.1, hio i]
    exact K.located i
  · have hs := hstream i
    simp only [Usb.stream, Prod.mk.injEq] at hs
    rw [streamOf, hlog, latest_append fun e he => hl e he i, hs.2.1, hs.2.2]
    exact K.stream i
  · by_cases hip : i = id ∧ p = port
    · rw [hip.1, hip.2]
      exact N
    · obtain ⟨hbeside, hhotplug, hmouse⟩ := hothers i p hip
      exact (K.noted i p hp).of_beside hlog hbeside hhotplug hmouse (hstream i)

/-- Programs of the host that leave no mark keep it. -/
theorem Kept.hushed (K : Kept B s) (h : Hushed P s t) (hP : ∀ e, P e → e.mark = false)
    (hlawful : Sequenced Allowed t.log) : Kept B t := by
  obtain ⟨l, hl, hPl⟩ := h.adds
  have hmark : ∀ e ∈ l, e.mark = false := fun e he => hP e (hPl e he)
  refine ⟨hlawful, fun i => ?_, fun i => ?_, fun i p hp => ?_⟩
  · have hs := h.stream i
    simp only [Usb.stream, Prod.mk.injEq] at hs
    rw [hs.1, h.ioBase i]
    exact K.located i
  · have hs := h.stream i
    simp only [Usb.stream, Prod.mk.injEq] at hs
    rw [streamOf, hl, latest_append fun e he => (mark_silent (hmark e he) i 0).2.1, hs.2.1, hs.2.2]
    exact K.stream i
  · exact (K.noted i p hp).of_beside hl (fun e he => mark_beside (hmark e he) i p)
      (by rw [h.hotplug]) (by rw [h.mousePort]) (h.stream i)

/-- Quiet programs keep it. -/
theorem Kept.quiet (K : Kept B s) (h : Hushed (fun e => e.loud = false) s t) : Kept B t := by
  refine K.hushed h (fun _ => loud_mark) ?_
  obtain ⟨l, hl, hquiet⟩ := h.adds
  rw [hl]
  exact (K.lawful.append (I := fun _ => True) trivial
    (fun _ _ _ he => ⟨allowed_quiet he, trivial⟩) hquiet).1

/-- The end of a stream rearms its port. -/
theorem Kept.ended (K : Kept B s) : Ensures (endStream id) s fun _ t => Kept B t := by
  refine ensures_get_bind (ensures_modify_bind (ensures_modify_bind (ensures_modify ?_)))
  by_cases hactive : (s.controllers id).active = true
  · rw [if_pos hactive]
    have harmed : ∀ i p, armed i p s.log = true ∨ i = id ∧ (s.controllers id).port = p →
        armed i p (s.log ++ [.ended id (s.controllers id).port]) = true := by
      rintro i p h
      rw [armed_concat, UsbEvent.rearms]
      split_ifs with hip
      · rfl
      · exact h.resolve_right fun h => hip ⟨h.1.symm, h.2⟩
    refine ⟨K.lawful.concat trivial, fun i => ?_, fun i => ?_, fun i p hp => ?_⟩
    · by_cases hi : i = id
      · simp only [hi, Function.update_self]
        exact K.located id
      · simp only [Function.update_of_ne hi]
        exact K.located i
    · rw [streamOf_concat, UsbEvent.streaming]
      by_cases hi : i = id
      · simp only [hi, if_true, Function.update_self, Bool.false_eq_true, if_false, Option.getD_some]
      · simp only [if_neg (Ne.symm hi), Option.getD_none, Function.update_of_ne hi]
        exact K.stream i
    · have N := K.noted i p hp
      refine ⟨?_, ?_, fun hB h => harmed i p (Or.inl (N.tried hB h)),
        fun hB h => harmed i p (Or.inl (N.untried hB h)), fun hstatus => ?_,
        fun hi hstatus e he => ?_⟩
      · rw [connectedAt_concat]
        exact N.connection
      · rw [generationAt_concat]
        exact N.generation
      · by_cases hi : i = id ∧ (s.controllers id).port = p
        · exact Or.inr (harmed i p (Or.inr hi))
        rcases N.shown hstatus with ⟨hon, hport⟩ | h
        · have hne : i ≠ id := fun h => hi ⟨h, h ▸ hport⟩
          simp only [Function.update_of_ne hne]
          exact Or.inl ⟨hon, hport⟩
        · exact Or.inr (harmed i p (Or.inl h))
      · rcases List.mem_append.mp he with he | he
        · exact N.fresh hi hstatus e he
        · rw [List.mem_singleton.mp he]
          rfl
  · rw [if_neg hactive, List.append_nil]
    rw [Bool.not_eq_true] at hactive
    refine K.quiet ⟨adds_of_eq rfl, rfl, rfl, fun i => ?_, fun _ => rfl, Nat.le_refl _⟩
    by_cases hi : i = id
    · simp only [Usb.stream, hi, Function.update_self, hactive]
    · simp only [Usb.stream, Function.update_of_ne hi]

instance (B : ℕ) : IsPreorder Usb fun s t => Kept B s → Kept B t where
  refl _ K := K
  trans _ _ _ h h' K := h' (h K)

/-- **Polls and interrupts** keep it. -/
theorem keptRule (B : ℕ) : PollRule fun s t => Kept B s → Kept B t where
  quiet _ _ h K := K.quiet h
  ended _ _ a t hrun K := K.ended a t hrun

end Kept

/-! ### Probes -/

/-- A probe of the port is on its way. -/
structure Underway (B id port : ℕ) (s : Usb) : Prop extends Kept B s where
  probing : latest (·.probing id) s.log = some (some port)
  beside : Clear 4 id (1 - port) s.log
  stage : (s.mousePort id port).status ≠ usbMouseNotProbed ∧
    (s.mousePort id port).status ≠ usbMouseStreaming
  spent : (s.hotplug id port).attempted ≠ 0 ∨ B ≤ id

/-- It has not started a stream. -/
structure PortIdle (B id port : ℕ) (s : Usb) : Prop extends Underway B id port s where
  inactive : (s.controllers id).active = false
  place : (s.info id).ioBase ≠ 0

section Probe

variable {B id port : ℕ} {s t : Usb}

/-- What a probe writes is allowed while it is on its way. -/
theorem Underway.host (U : Underway B id port s) (hport : port ≤ 1)
    (h : Hushed (fun e => e.ofProbe id port = true) s t) : Underway B id port t := by
  have hother : 1 - port ≠ port := by omega
  obtain ⟨l, hl, hprobe⟩ := h.adds
  have hrule := U.lawful.append (m := l)
    (I := fun l => latest (·.probing id) l = some (some port) ∧ Clear 4 id (1 - port) l)
    ⟨U.probing, U.beside⟩ (fun l e hI he => ?_) hprobe
  · rw [← hl] at hrule
    obtain ⟨hlawful, hprobing, hbeside⟩ := hrule
    refine ⟨U.toKept.hushed h (fun _ => ofProbe_mark) hlawful, hprobing, hbeside, ?_, ?_⟩
    · rw [h.mousePort]
      exact U.stage
    · rw [h.hotplug]
      exact U.spent
  · obtain ⟨value, hvalue, hclear⟩ := hI.2
    refine ⟨?_, ?_, value, ?_, hclear⟩
    · cases e with
      | controlTd i =>
        obtain rfl : i = id := of_decide_eq_true he
        exact fun _ => ⟨port, hport, hI⟩
      | probe => cases he
      | probed => cases he
      | changed => cases he
      | _ => trivial
    · rw [latest_concat, (mark_silent (ofProbe_mark he) id port).1, Option.none_or]
      exact hI.1
    · rw [latest_concat, ofProbe_beside hother he, Option.none_or]
      exact hvalue

theorem PortIdle.host (I : PortIdle B id port s) (hport : port ≤ 1)
    (h : Hushed (fun e => e.ofProbe id port = true) s t) : PortIdle B id port t := by
  have hstream := h.stream id
  simp only [Usb.stream, Prod.mk.injEq] at hstream
  refine ⟨I.toUnderway.host hport h, hstream.2.1.trans I.inactive, ?_⟩
  rw [h.ioBase id]
  exact I.place

/-- The record of a port can change. -/
theorem Kept.record (K : Kept B s) (hport : port ≤ 1) (f : UsbMousePort → UsbMousePort)
    (htried : (s.hotplug id port).attempted ≠ 0 ∨ B ≤ id ∨ armed id port s.log = true)
    (hshown : (f (s.mousePort id port)).status = usbMouseStreaming →
      (s.controllers id).active = true ∧ (s.controllers id).port = port)
    (hfresh : (f (s.mousePort id port)).status ≠ usbMouseNotProbed) :
    Ensures (setMousePort id port f) s fun _ t => Kept B t := by
  refine ensures_modify ?_
  have N := K.noted id port hport
  refine K.change id port (List.append_nil _).symm
    ((List.append_nil s.log).symm ▸ K.lawful) (fun _ he => absurd he List.not_mem_nil)
    (fun _ => rfl) (fun _ => rfl) (fun i p hip => ⟨fun _ he => absurd he List.not_mem_nil, rfl, ?_⟩) ?_
  · exact update_pair s.mousePort _ ⟨(i, p), fun h => hip (Prod.mk.inj h)⟩
  · refine ⟨N.connection, N.generation, fun hB h0 => ?_, fun _ hstatus => ?_, fun hstatus => ?_,
      fun _ hstatus => ?_⟩
    all_goals simp only [Function.update_self] at *
    · rcases htried with h | h | h
      · exact absurd h0 h
      · exact absurd hB (Nat.not_lt.mpr h)
      · exact h
    · exact absurd hstatus hfresh
    · exact Or.inl (hshown hstatus)
    · exact absurd hstatus hfresh

theorem PortIdle.record (I : PortIdle B id port s) (hport : port ≤ 1) {f : UsbMousePort → UsbMousePort}
    (hf : Staged f) : Ensures (setMousePort id port f) s fun _ t => PortIdle B id port t := by
  obtain ⟨h0, h6⟩ := hf _ I.stage
  refine ((I.toKept.record hport f (I.spent.imp_right Or.inl) (fun h => absurd h h6) h0).and
    (ensures_modify (Q := fun _ t => t.log = s.log ∧ t.mousePort id port = f (s.mousePort id port) ∧
      t.hotplug = s.hotplug ∧ t.controllers = s.controllers ∧ t.info = s.info) ?_)).mono ?_
  · exact ⟨rfl, by simp only [Function.update_self], rfl, rfl, rfl⟩
  · rintro - t ⟨K, hlog, hrecord, hhotplug, hcontrollers, hinfo⟩
    refine ⟨⟨K, hlog ▸ I.probing, hlog ▸ I.beside, ?_, hhotplug ▸ I.spent⟩, hcontrollers ▸ I.inactive,
      hinfo ▸ I.place⟩
    rw [hrecord]
    exact ⟨h0, h6⟩

/-- What `usb_uhci_disable_port` writes. -/
theorem portUpdate_disable (value : ℕ) : uhciPortUpdate value 0x204 0 % 2 ^ 16 &&& 0x204 = 0 := by
  rw [uhciPortUpdate, Nat.or_zero, ← Nat.and_two_pow_sub_one_eq_mod, Nat.and_assoc, Nat.and_assoc]
  exact Nat.and_zero value

/-- **A port that is disabled stays so until it is written again.** -/
theorem usbUhciDisablePort_clear (hid : id < uhciControllerCount) (hport : port ≤ 1)
    (hplace : (s.info id).ioBase ≠ 0) (hoff : (s.controllers id).active = false) :
    Ensures (usbUhciDisablePort id port) s fun _ t => Clear 0x204 id port t.log ∧
      ∀ mask i p, ¬(i = id ∧ p = port) → Clear mask i p s.log → Clear mask i p t.log := by
  refine ensures_get_bind (ensures_ite (fun h => ?_) fun _ => ?_)
  · rcases h with h | h | h | h
    · omega
    · omega
    · exact absurd h hplace
    · exact absurd (hoff.symm.trans h) Bool.false_ne_true
  refine ensures_modifyGet_bind (ensures_modify_bind (ensures_modifyGet_bind (ensures_modify ?_)))
  refine ⟨⟨uhciPortUpdate (s.answer (.port id port)) 0x204 0 % 2 ^ 16, ?_, portUpdate_disable _⟩,
    fun mask i p hip hclear => ?_⟩
  · rw [latest_concat, UsbEvent.written, if_pos ⟨rfl, rfl⟩]
    rfl
  · obtain ⟨value, hvalue, hmask⟩ := hclear
    refine ⟨value, ?_, hmask⟩
    rw [latest_concat, UsbEvent.written, if_neg fun h => hip ⟨h.1.symm, h.2.symm⟩]
    exact hvalue

/-- A stream starts on the port. -/
theorem PortIdle.started (I : PortIdle B id port s) {c : UhciController}
    (hcontrollers : t.controllers = Function.update s.controllers id c)
    (hframes : c.frames = (s.controllers id).frames) (hactive : c.active = true)
    (hcport : c.port = port) (hlog : t.log = s.log ++ [.started id port])
    (hinfo : t.info = s.info) (hhotplug : t.hotplug = s.hotplug)
    (hmouse : t.mousePort = s.mousePort) :
    Underway B id port t := by
  have hbeside : ∀ i p, ∀ e ∈ [UsbEvent.started id port], Beside i p e := by
    intro i p e he
    rw [List.mem_singleton.mp he]
    exact ⟨rfl, rfl, rfl, rfl⟩
  refine ⟨⟨?_, fun i => ?_, fun i => ?_, fun i p hp => ?_⟩, ?_, ?_, hmouse ▸ I.stage,
    hhotplug ▸ I.spent⟩
  · rw [hlog]
    exact I.lawful.concat trivial
  · rw [hcontrollers, hinfo]
    by_cases hi : i = id
    · rw [hi, Function.update_self, hframes]
      exact I.located id
    · rw [Function.update_of_ne hi]
      exact I.located i
  · rw [hlog, hcontrollers, streamOf_concat, UsbEvent.streaming]
    by_cases hi : i = id
    · rw [hi, if_pos rfl, Function.update_self, if_pos hactive, hcport]
      rfl
    · rw [if_neg (Ne.symm hi), Function.update_of_ne hi]
      exact I.stream i
  · have N := I.toKept.noted i p hp
    by_cases hi : i = id
    · -- a port that says STREAMING has lost its stream before
      subst hi
      have hquiet : Noted B i p { t with controllers := s.controllers } :=
        N.of_beside hlog (hbeside i p) (by rw [hhotplug]) (by rw [hmouse]) rfl
      refine ⟨hquiet.connection, hquiet.generation, hquiet.tried, hquiet.untried, fun h => ?_,
        hquiet.fresh⟩
      refine Or.inr ((hquiet.shown h).resolve_left fun h => ?_)
      exact absurd (I.inactive.symm.trans h.1) Bool.false_ne_true
    · refine N.of_beside hlog (hbeside i p) (by rw [hhotplug]) (by rw [hmouse]) ?_
      rw [Usb.stream, hcontrollers, Function.update_of_ne hi]
      rfl
  · rw [hlog, latest_concat]
    exact I.probing
  · obtain ⟨value, hvalue, hclear⟩ := I.beside
    refine ⟨value, ?_, hclear⟩
    rw [hlog, latest_concat]
    exact hvalue

/-- The probe has started its stream. -/
structure PortBusy (B id port : ℕ) (s : Usb) : Prop extends Underway B id port s where
  active : (s.controllers id).active = true
  port_eq : (s.controllers id).port = port

theorem PortBusy.host (Y : PortBusy B id port s) (hport : port ≤ 1)
    (h : Hushed (fun e => e.ofProbe id port = true) s t) : PortBusy B id port t := by
  have hstream := h.stream id
  simp only [Usb.stream, Prod.mk.injEq] at hstream
  exact ⟨Y.toUnderway.host hport h, hstream.2.1.trans Y.active, hstream.2.2.trans Y.port_eq⟩

theorem PortIdle.start (I : PortIdle B id port s) (hport : port ≤ 1) (address endpoint low packet ms : ℕ) :
    Ensures (usbUhciStartInterrupt id port address endpoint low packet ms) s fun r t =>
      (r = 0 → PortIdle B id port t) ∧ (r ≠ 0 → PortBusy B id port t) := by
  have hidle : ∀ {α : Type} {m : UsbM α} {u : Usb}, PortIdle B id port u →
      Within (Hushed fun e => e.ofProbe id port = true) m → Ensures m u fun _ t => PortIdle B id port t :=
    fun I hm => (hm.ensures _).mono fun _ _ h => I.host hport h
  have hbusy : ∀ {α : Type} {m : UsbM α} {u : Usb}, PortBusy B id port u →
      Within (Hushed fun e => e.ofProbe id port = true) m → Ensures m u fun _ t => PortBusy B id port t :=
    fun Y hm => (hm.ensures _).mono fun _ _ h => Y.host hport h
  refine ensures_get_bind (ensures_ite (fun _ => ensures_pure ⟨fun _ => I, fun h => absurd rfl h⟩) ?_)
  intro _
  refine ensures_bind (hidle I (hushed_usbIn _)) fun value _ I => ?_
  refine ensures_ite (fun _ => ensures_pure ⟨fun _ => I, fun h => absurd rfl h⟩) fun _ => ?_
  refine ensures_bind (hidle I (hushed_uhciStop fun _ => ofHost_probe port)) fun _ _ I => ?_
  refine ensures_bind (hidle I (hushed_outPort (decide_eq_true ⟨rfl, rfl⟩))) fun _ u I => ?_
  refine ensures_modify_bind (ensures_modify_bind ?_)
  have Y : PortBusy B id port { u with
      controllers := Function.update u.controllers id { u.controllers id with
        address := address, endpoint := endpoint, lowSpeed := low, packet := packet, toggle := 0
        port := port, producer := 0, consumer := 0, active := true }
      log := u.log ++ [.started id port] } := by
    refine ⟨I.started rfl rfl rfl rfl rfl rfl rfl rfl, ?_, ?_⟩
    · simp only [Function.update_self]
    · simp only [Function.update_self]
  refine ensures_bind (hbusy Y (hushed_reportCallback _)) fun _ _ Y => ?_
  have hhost : ∀ {events : List UsbEvent}, (∀ e ∈ events, e.ofHost id = true) →
      Within (Hushed fun e => e.ofProbe id port = true) (usbOut events) :=
    fun h => hushed_host (fun _ => ofHost_probe port) h
  refine ensures_bind (hbusy Y (hhost (by simp [UsbEvent.ofHost]))) fun _ _ Y => ?_
  refine ensures_bind (hbusy Y (hushed_armInterrupt fun _ => ofHost_probe port)) fun _ _ Y => ?_
  refine ensures_bind (hbusy Y (hhost (by simp [UsbEvent.ofHost]))) fun _ _ Y => ?_
  exact ensures_pure ⟨fun h => absurd h Nat.one_ne_zero, fun _ => Y⟩

/-- The steps of a probe and its two ends. -/
theorem probeRule (hid : id < uhciControllerCount) (hport : port ≤ 1) :
    ProbeRule id port (PortIdle B id port) (PortBusy B id port) fun ok t =>
      Kept B t ∧ (ok = false → PortIdle B id port t ∧ Clear 0x204 id port t.log) where
  host _ _ h I := I.host hport h
  record _ I _ hf := I.record hport hf
  failed s I := by
    refine ((usbUhciDisablePort_clear hid hport I.place I.inactive).and
      (Within.ensures (T := Hushed fun e => e.ofProbe id port = true)
        (hushed_usbUhciDisablePort fun _ => decide_eq_true ⟨rfl, rfl⟩) s)).mono ?_
    rintro - t ⟨⟨hclear, -⟩, hhushed⟩
    have I' := I.host hport hhushed
    exact ⟨I'.toKept, fun _ => ⟨I', hclear⟩⟩
  start _ I _ _ _ _ _ := I.start hport _ _ _ _ _
  streaming s Y := by
    refine (Y.toKept.record hport _ (Y.spent.imp_right Or.inl) (fun _ => ⟨Y.active, Y.port_eq⟩) ?_).mono ?_
    · exact show usbMouseStreaming ≠ usbMouseNotProbed by decide
    · exact fun _ _ K => ⟨K, fun h => absurd h.symm Bool.false_ne_true⟩

theorem Clear.four {l : List UsbEvent} (h : Clear 0x204 id port l) : Clear 4 id port l := by
  obtain ⟨value, hvalue, hclear⟩ := h
  refine ⟨value, hvalue, ?_⟩
  rw [show value &&& 4 = (value &&& 0x204) &&& 4 from (Nat.and_assoc value 0x204 4).symm, hclear,
    Nat.zero_and]

/-- **A probe** of a port whose neighbour is disabled, on a controller without a stream. -/
theorem Kept.probePort (K : Kept B s) (hid : id < uhciControllerCount) (hport : port ≤ 1)
    (hoff : (s.controllers id).active = false) (hplace : (s.info id).ioBase ≠ 0)
    (hbeside : Clear 4 id (1 - port) s.log) (hspent : (s.hotplug id port).attempted ≠ 0 ∨ B ≤ id)
    (hprobe : (∀ e ∈ s.log, e.ofPort id port = false) ∨ Debounced id port s.log) :
    Ensures (usbMouseProbePort id port) s fun ok t =>
      Kept B t ∧ (ok = false → Clear 4 id port t.log) := by
  refine ensures_ite (fun h => ?_) fun _ => ensures_modify_bind ?_
  · rcases h with h | h <;> omega
  have hallowed : Allowed s.log (.probe id port) := by
    refine ⟨?_, hprobe⟩
    rw [K.stream id, hoff]
    rfl
  -- the record is reset before anything else happens
  have hreset : Ensures (setMousePort id port fun _ =>
      ⟨usbMouseAbsent, 0, 0, 0, 0, ⟨0, 0, 0, 0, 0⟩, 0⟩) { s with log := s.log ++ [.probe id port] }
      fun _ t => PortIdle B id port t := by
    refine ensures_modify ?_
    have hmouse : ∀ (f : UsbMousePort) (i p : ℕ), ¬(i = id ∧ p = port) →
        Function.update s.mousePort id (Function.update (s.mousePort id) port f) i p =
          s.mousePort i p :=
      fun f i p hip => update_pair s.mousePort f ⟨(i, p), fun h => hip (Prod.mk.inj h)⟩
    have N := K.noted id port hport
    refine ⟨⟨K.change id port (l := [.probe id port]) rfl
      (K.lawful.concat hallowed) ?_ (fun _ => rfl) (fun _ => rfl) (fun i p hip => ⟨?_, rfl, ?_⟩) ?_,
      ?_, ?_, ?_, hspent⟩, hoff, hplace⟩
    · intro e he i
      rw [List.mem_singleton.mp he]
      rfl
    · intro e he
      rw [List.mem_singleton.mp he]
      have hne : ¬(id = i ∧ port = p) := fun h => hip ⟨h.1.symm, h.2.symm⟩
      exact ⟨rfl, rfl, if_neg hne, decide_eq_false hne⟩
    · exact hmouse _ i p hip
    · refine ⟨?_, ?_, fun hB h0 => ?_, fun _ hstatus => ?_, fun hstatus => ?_, fun _ hstatus => ?_⟩
      all_goals simp only [Function.update_self] at *
      · rw [connectedAt_concat]
        exact N.connection
      · rw [generationAt_concat]
        exact N.generation
      · rcases hspent with h | h
        · exact absurd h0 h
        · exact absurd hB (Nat.not_lt.mpr h)
      · exact absurd hstatus (by decide)
      · exact absurd hstatus (by decide)
      · exact absurd hstatus (by decide)
    · rw [latest_concat, UsbEvent.probing, if_pos rfl]
      rfl
    · obtain ⟨value, hvalue, hclear⟩ := hbeside
      refine ⟨value, ?_, hclear⟩
      rw [latest_concat]
      exact hvalue
    · simp only [Function.update_self]
      decide
  refine ensures_bind ((probeRule hid hport).probe hreset) ?_
  rintro ok u ⟨K', hfailed⟩
  refine ensures_modify_bind (ensures_pure ⟨?_, fun hok => ?_⟩)
  · have hbeside : ∀ i p, ∀ e ∈ [UsbEvent.probed id port ok], Beside i p e := by
      intro i p e he
      rw [List.mem_singleton.mp he]
      exact ⟨rfl, rfl, rfl, rfl⟩
    refine K'.change id port rfl (K'.lawful.concat fun h => (hfailed h).2) ?_
      (fun _ => rfl) (fun _ => rfl) (fun i p _ => ⟨hbeside i p, rfl, rfl⟩) ?_
    · intro e he i
      rw [List.mem_singleton.mp he]
      rfl
    · exact (K'.noted id port hport).of_beside rfl (hbeside id port) rfl rfl rfl
  · obtain ⟨value, hvalue, hclear⟩ := (hfailed hok).2.four
    refine ⟨value, ?_, hclear⟩
    rw [latest_concat]
    exact hvalue

end Probe

/-! ### Scans -/

section Scan

variable {B id port : ℕ} {s t : Usb} {a : Bool}

/-- A mark of a port that changes its entry and its record. -/
theorem Kept.note (id port : ℕ) (K : Kept B s) {e : UsbEvent} (hlog : t.log = s.log ++ [e])
    (hallowed : Allowed s.log e) (hstreaming : ∀ i, e.streaming i = none)
    (hbeside : ∀ i p, ¬(i = id ∧ p = port) → Beside i p e)
    (hothers : t.others id port = s.others id port) (N : Noted B id port t) : Kept B t := by
  have hpair : ∀ i p, ¬(i = id ∧ p = port) →
      t.mousePort i p = s.mousePort i p ∧ t.hotplug i p = s.hotplug i p := fun i p hip => by
    simp only [Usb.others, Prod.mk.injEq] at hothers
    exact Prod.mk.inj (congrFun hothers.2.2.2.2.2.2 ⟨(i, p), fun h => hip (Prod.mk.inj h)⟩)
  obtain ⟨-, -, hinfo, hcontrollers, -⟩ := others_eq hothers
  refine K.change id port hlog (K.lawful.concat hallowed) ?_ (fun i => ?_) (fun i => by rw [hinfo])
    (fun i p hip => ⟨?_, (hpair i p hip).2, (hpair i p hip).1⟩) N
  · intro e' he i
    rw [List.mem_singleton.mp he]
    exact hstreaming i
  · rw [Usb.stream, hcontrollers]
    rfl
  · intro e' he
    rw [List.mem_singleton.mp he]
    exact hbeside i p hip

theorem setMousePort_log (f : UsbMousePort → UsbMousePort) :
    Keeps (fun s => (s.log, s.hotplug)) (setMousePort id port f) := keeps_modify fun _ => rfl

theorem setHotplug_log (f : Hotplug → Hotplug) : Keeps Usb.log (setHotplug id port f) :=
  keeps_modify fun _ => rfl

theorem Kept.scanForget (K : Kept B s) (hid : id < B) (hport : port ≤ 1)
    (hbit : a = (s.controllers id).active) :
    Ensures (scanForget id port a) s fun _ t => Kept B t := by
  refine ensures_get_bind (ensures_ite (fun h => ?_) fun _ => ensures_pure K)
  obtain ⟨hstatus, hoff⟩ := h
  have N := K.noted id port hport
  -- the stream of this record has ended
  have harmed : armed id port s.log = true := by
    refine (N.shown hstatus).resolve_left fun h => ?_
    exact absurd ((hoff.symm.trans hbit).trans h.1) Bool.false_ne_true
  refine ensures_modify_bind (ensures_bind (((others_setMousePort _).ensures _).and
    ((setMousePort_record _ _).and ((setMousePort_log _).ensures _))) ?_)
  rintro - u ⟨hothers₁, ⟨hrecord₁, -⟩, hkeep₁⟩
  refine (((others_setHotplug _).ensures u).and ((setHotplug_entry _ u).and
    ((setHotplug_log _).ensures u))).mono ?_
  rintro - t ⟨hothers₂, ⟨hentry, hmouse⟩, hlog₂⟩
  obtain ⟨hlog₁, hhotplug₁⟩ := Prod.mk.inj hkeep₁
  have hlog : t.log = s.log ++ [.forgot id port] := hlog₂.trans hlog₁
  have hrecord : (t.mousePort id port).status = usbMouseAbsent := by rw [hmouse, hrecord₁]
  rw [hhotplug₁] at hentry
  refine K.note id port hlog trivial (fun _ => rfl) (fun i p hip => ?_) (hothers₂.trans hothers₁) ?_
  · have hne : ¬(id = i ∧ port = p) := fun h => hip ⟨h.1.symm, h.2.symm⟩
    exact ⟨if_neg hne, rfl, rfl, decide_eq_false hne⟩
  · have hbooted : ¬B ≤ id := Nat.not_le.mpr hid
    refine ⟨?_, ?_, fun _ _ => ?_, fun h => absurd h hbooted, fun h => ?_, fun h => absurd h hbooted⟩
    · rw [hlog, connectedAt_concat, hentry, UsbEvent.connection, if_pos ⟨rfl, rfl⟩]
      rfl
    · rw [hlog, generationAt_concat, hentry]
      exact N.generation
    · rw [hlog, armed_concat]
      exact harmed
    · rw [hrecord] at h
      exact absurd h (by decide)

/-- The mark of a scan. -/
theorem Kept.scanned (K : Kept B s) (hid : id < B) (hport : port ≤ 1) (connected generation : ℕ) :
    Kept B { s with log := s.log ++ [.scan id port connected generation] } := by
  have N := K.noted id port hport
  refine K.note id port rfl trivial (fun _ => rfl) (fun i p hip => ?_) rfl ?_
  · exact ⟨rfl, rfl, rfl, decide_eq_false fun h => hip ⟨h.1.symm, h.2.symm⟩⟩
  · have hbooted : ¬B ≤ id := Nat.not_le.mpr hid
    refine ⟨?_, ?_, ?_, fun h => absurd h hbooted, ?_, fun h => absurd h hbooted⟩
    · rw [connectedAt_concat]
      exact N.connection
    · rw [generationAt_concat]
      exact N.generation
    · rw [armed_concat]
      exact N.tried
    · rw [armed_concat]
      exact N.shown

theorem Kept.scanChanged (K : Kept B s) (hid : id < B) (hport : port ≤ 1) {generation connected : ℕ}
    (hchanged : connected ≠ (s.hotplug id port).connected ∨
      generation ≠ (s.hotplug id port).generation) :
    Ensures (scanChanged id port generation connected) s fun _ t => Kept B t := by
  have N := K.noted id port hport
  rw [← N.connection, ← N.generation] at hchanged
  refine ensures_modify_bind (ensures_bind (((others_setHotplug _).ensures _).and
    ((setHotplug_entry _ _).and ((setHotplug_log _).ensures _))) ?_)
  rintro - u ⟨hothers, ⟨hentry, hmouse⟩, hlog⟩
  have harmed : armed id port u.log = true := by
    rw [hlog, armed_concat, UsbEvent.rearms, if_pos ⟨rfl, rfl⟩]
    rfl
  have K' : Kept B u := by
    refine K.note id port hlog hchanged (fun _ => rfl) (fun i p hip => ?_) hothers ?_
    · have hne : ¬(id = i ∧ port = p) := fun h => hip ⟨h.1.symm, h.2.symm⟩
      exact ⟨if_neg hne, if_neg hne, if_neg hne, decide_eq_false hne⟩
    · refine ⟨?_, ?_, fun _ _ => harmed, fun _ _ => harmed, fun _ => Or.inr harmed,
        fun h => absurd h (Nat.not_le.mpr hid)⟩
      · rw [hlog, connectedAt_concat, hentry, UsbEvent.connection, if_pos ⟨rfl, rfl⟩]
        rfl
      · rw [hlog, generationAt_concat, hentry, UsbEvent.generation, if_pos ⟨rfl, rfl⟩]
        rfl
  refine ensures_ite (fun _ => ?_) fun _ => ensures_pure K'
  refine K'.record hport _ (Or.inr (Or.inr harmed)) (fun h => absurd h ?_) ?_
  · exact show usbMouseAbsent ≠ usbMouseStreaming by decide
  · exact show usbMouseAbsent ≠ usbMouseNotProbed by decide

/-- Both ports are disabled. -/
theorem Kept.disableBoth (K : Kept B s) (hid : id < uhciControllerCount)
    (hoff : (s.controllers id).active = false) (hplace : (s.info id).ioBase ≠ 0) {α : Type}
    {f : UsbM α} {Q : α → Usb → Prop}
    (hf : ∀ t, Kept B t → Hushed (fun e => e.loud = false) s t →
      (∀ p ≤ 1, Clear 0x204 id p t.log) → Ensures f t Q) :
    Ensures (do usbUhciDisablePort id 0; usbUhciDisablePort id 1; f) s Q := by
  have hquiet : ∀ p, Within (Hushed fun e => e.loud = false) (usbUhciDisablePort id p) :=
    fun p => hushed_usbUhciDisablePort fun _ => rfl
  refine ensures_bind (((hquiet 0).ensures s).and
    (usbUhciDisablePort_clear hid (Nat.zero_le 1) hplace hoff)) ?_
  rintro - u ⟨h₁, hclear₁, -⟩
  have hstream := h₁.stream id
  simp only [Usb.stream, Prod.mk.injEq] at hstream
  refine ensures_bind (((hquiet 1).ensures u).and (usbUhciDisablePort_clear hid (Nat.le_refl 1)
    ((h₁.ioBase id).symm ▸ hplace) (hstream.2.1.trans hoff))) ?_
  rintro - t ⟨h₂, hclear₂, hkeep⟩
  refine hf t ((K.quiet h₁).quiet h₂) (trans_of _ h₁ h₂) fun p hp => ?_
  rcases Nat.le_one_iff_eq_zero_or_eq_one.mp hp with rfl | rfl
  · exact hkeep 0x204 id 0 (fun h => absurd h.2 (by decide)) hclear₁
  · exact hclear₂

/-- **A scan of one port.** -/
theorem Kept.scanPort (K : Kept B s) (hid : id < uhciControllerCount) (hB : id < B) (hport : port ≤ 1)
    (hbit : a = (s.controllers id).active)
    (hbuilt : (s.info id).status = uhciReady → (s.controllers id).frames = true) :
    Ensures (scanPort id port a) s fun _ t => Kept B t := by
  refine ensures_bind ((K.scanForget hB hport hbit).and (scanForget_spec a s)) ?_
  rintro - u ⟨K, hothers, -⟩
  obtain ⟨-, -, hinfo, hcontrollers, -⟩ := others_eq hothers
  refine ensures_get_bind ?_
  dsimp only
  refine ensures_ite (fun _ => ensures_pure K) fun hready => ensures_modify_bind ?_
  have K₁ := K.scanned hB hport ((u.info id).portStatus port &&& 1) (u.portGeneration id port)
  refine ensures_ite (fun hchanged => ?_) fun hsteady => ?_
  · exact ensures_bind (K₁.scanChanged hB hport hchanged) fun _ _ K => ensures_pure K
  refine ensures_ite (fun _ => ensures_pure K₁) fun hprobe => ?_
  simp only [not_or, not_not, Bool.not_eq_true] at hsteady hprobe
  obtain ⟨hconnected, hoff, htried⟩ := hprobe
  have N := K.noted id port hport
  have hone : (u.info id).portStatus port &&& 1 = 1 := by
    have : (u.info id).portStatus port &&& 1 ≤ 1 := Nat.and_le_right
    omega
  -- the attempt is used up
  refine ensures_bind (((others_setHotplug _).ensures _).and ((setHotplug_entry _ _).and
    ((setHotplug_log _).ensures _))) ?_
  rintro - v ⟨hothers₂, ⟨hentry, hmouse⟩, hlog⟩
  obtain ⟨-, -, hinfo₂, hcontrollers₂, -⟩ := others_eq hothers₂
  have N₁ := K₁.noted id port hport
  have K₂ : Kept B v := by
    refine K₁.change id port (l := []) (by rw [hlog, List.append_nil])
      ((List.append_nil _).symm ▸ K₁.lawful) (fun _ he => absurd he List.not_mem_nil) (fun i => ?_)
      (fun i => by rw [hinfo₂]) (fun i p hip => ⟨fun _ he => absurd he List.not_mem_nil, ?_⟩) ?_
    · rw [Usb.stream, hcontrollers₂]
      rfl
    · simp only [Usb.others, Prod.mk.injEq] at hothers₂
      have hpair := Prod.mk.inj (congrFun hothers₂.2.2.2.2.2.2 ⟨(i, p), fun h => hip (Prod.mk.inj h)⟩)
      exact ⟨hpair.2, hpair.1⟩
    · have hbooted : ¬B ≤ id := Nat.not_le.mpr hB
      refine ⟨?_, ?_, fun _ h => ?_, fun h => absurd h hbooted, ?_, fun h => absurd h hbooted⟩
      · rw [hlog, hentry]
        exact N₁.connection
      · rw [hlog, hentry]
        exact N₁.generation
      · rw [hentry] at h
        exact absurd h Nat.one_ne_zero
      · rw [hlog, hmouse, hcontrollers₂]
        exact N₁.shown
  have hoff₂ : (v.controllers id).active = false := by
    rw [hcontrollers₂]
    show (u.controllers id).active = false
    rw [hcontrollers, ← hbit, hoff]
  have hplace : (v.info id).ioBase ≠ 0 := by
    refine K₂.located id ?_
    rw [hcontrollers₂]
    show (u.controllers id).frames = true
    rw [hcontrollers]
    exact hbuilt (by rw [← hinfo]; exact not_not.mp hready)
  refine K₂.disableBoth hid hoff₂ hplace fun w K₃ hhushed hclear => ?_
  have hstream := hhushed.stream id
  simp only [Usb.stream, Prod.mk.injEq] at hstream
  refine (K₃.probePort hid hport (hstream.2.1.trans hoff₂) ((hhushed.ioBase id).symm ▸ hplace)
    (hclear _ (by omega)).four (Or.inl ?_) (Or.inr ?_)).mono fun _ _ h => h.1
  · rw [hhushed.hotplug, hentry]
    exact Nat.one_ne_zero
  · obtain ⟨l, hl, hloud⟩ := hhushed.adds
    refine ⟨u.log, l, u.portGeneration id port, ?_, fun e he => loud_mark (hloud e he), ?_, ?_, ?_⟩
    · rw [hl, hlog, hone, List.append_assoc]
      rfl
    · rw [N.connection, ← hsteady.1, hone]
    · rw [N.generation, ← hsteady.2]
    · exact N.tried hB htried

end Scan

/-! ### Streams and schedules -/

/-- A ready controller has a schedule, and one with a stream is ready. -/
structure Sound (id : ℕ) (s : Usb) : Prop where
  built : (s.info id).status = uhciReady → (s.controllers id).frames = true
  ready : StreamReady id s

section Sound

variable {id id' : ℕ} {s t : Usb} {a : Bool}

theorem Sound.of_eq (S : Sound id s) (hinfo : t.info id = s.info id)
    (hcontrollers : t.controllers id = s.controllers id) : Sound id t := by
  refine ⟨?_, ?_⟩
  · rw [hinfo, hcontrollers]
    exact S.built
  · rw [StreamReady, hinfo, hcontrollers]
    exact S.ready

theorem Sound.of_away (S : Sound id s) (h : t.away id' = s.away id') (hne : id ≠ id') : Sound id t :=
  S.of_eq (away_eq h hne).1 (away_eq h hne).2.1

/-- Polls and interrupts can only end a stream. -/
theorem Sound.of_calm (S : Sound id s) (hcalm : t.calm id = s.calm id)
    (hstill : (s.controllers id).frames = false → t.info id = s.info id)
    (halive : (t.controllers id).active = true →
      (s.controllers id).active = true ∧ (t.info id).status = uhciReady) : Sound id t := by
  simp only [Usb.calm, Prod.mk.injEq] at hcalm
  obtain ⟨-, -, -, hframes, -⟩ := hcalm
  refine ⟨fun hready => ?_, fun hactive => ?_⟩
  · rw [hframes]
    by_contra hoff
    rw [Bool.not_eq_true] at hoff
    rw [hstill hoff] at hready
    exact absurd (hoff.symm.trans (S.built hready)) Bool.false_ne_true
  · exact ⟨hframes.trans (S.ready (halive hactive).1).1, (halive hactive).2⟩

theorem Sound.pollController (S : Sound id s) : Ensures (pollController id) s fun a t =>
    Sound id t ∧ a = (t.controllers id).active ∧ t.away id = s.away id := by
  have hstill : Ensures (VirtualKernel.pollController id) s fun _ t =>
      (s.controllers id).frames = false → t.info id = s.info id :=
    ensures_get_bind (ensures_ite (fun _ => ensures_pure fun _ => rfl) fun h =>
      fun _ _ _ hoff => absurd (Or.inl hoff) h)
  refine ((pollController_alive S.ready).and ((calm_pollController.ensures s).and hstill)).mono ?_
  rintro a t ⟨⟨hbit, halive, -⟩, hcalm, hstill⟩
  exact ⟨S.of_calm hcalm hstill fun h => ⟨(halive h).before, (halive h).ready⟩, hbit,
    congrArg (fun v => v.2.2.1) hcalm⟩

theorem pollControllers_sound (hs : ∀ id < uhciControllerCount, Sound id s) :
    ∀ n ≤ uhciControllerCount, Ensures (pollControllers n) s fun active t =>
      (∀ id < uhciControllerCount, Sound id t) ∧
        ∀ id < n, active id = (t.controllers id).active := by
  intro n
  induction n with
  | zero => exact fun _ => ensures_pure ⟨hs, fun _ h => absurd h (Nat.not_lt_zero _)⟩
  | succ n ih =>
    intro hn
    refine ensures_bind (ih (by omega)) ?_
    rintro active u ⟨hs, hbit⟩
    refine ensures_bind (hs n hn).pollController ?_
    rintro a t ⟨S, ha, haway⟩
    refine ensures_pure ⟨fun id hid => ?_, fun id hid => ?_⟩
    · by_cases hne : id = n
      · exact hne ▸ S
      · exact (hs id hid).of_away haway hne
    · rcases Nat.lt_succ_iff_lt_or_eq.mp hid with h | rfl
      · rw [Function.update_of_ne (Nat.ne_of_lt h), (away_eq haway (Nat.ne_of_lt h)).2.1]
        exact hbit id h
      · rw [Function.update_self, ha]

/-- The mask of a poll says which controllers have a stream, unless there is no clock. -/
theorem usbHostPoll_sound (hs : ∀ id < uhciControllerCount, Sound id s) :
    Ensures usbHostPoll s fun active t => (∀ id < uhciControllerCount, Sound id t) ∧
      (t.ticksPerMs = 0 ∨ ∀ id < uhciControllerCount, active id = (t.controllers id).active) := by
  refine ensures_get_bind (ensures_ite (fun h => ensures_pure ⟨hs, Or.inl h⟩) fun _ => ?_)
  refine ensures_modify_bind ((pollControllers_sound (fun id hid => ?_) _ (Nat.le_refl _)).mono ?_)
  · exact (hs id hid).of_eq rfl rfl
  · exact fun _ _ h => ⟨h.1, Or.inr h.2⟩

theorem interruptControllers_sound (gsi : ℕ) (hs : ∀ id < uhciControllerCount, Sound id s) :
    ∀ n ≤ uhciControllerCount, Ensures (interruptControllers gsi n) s fun _ t =>
      ∀ id < uhciControllerCount, Sound id t := by
  intro n
  induction n with
  | zero => exact fun _ => ensures_pure hs
  | succ n ih =>
    intro hn
    refine ensures_bind (ih (by omega)) fun _ u hs => ensures_get_bind (ensures_ite (fun _ => ?_) ?_)
    · have hstill : Ensures (serviceController n true) u fun _ t =>
          (u.controllers n).frames = false → t.info n = u.info n :=
        ensures_get_bind (ensures_ite (fun _ => ensures_pure fun _ => rfl) fun h =>
          fun _ _ _ hoff => absurd (Or.inl hoff) h)
      refine ensures_bind ((serviceController_alive true (hs n hn).ready).and
        (((calm_serviceController true).ensures u).and hstill)) ?_
      rintro - t ⟨halive, hcalm, hstill⟩
      have haway : t.away n = u.away n := congrArg (fun v => v.2.2.1) hcalm
      refine ensures_pure fun id hid => ?_
      by_cases hne : id = n
      · rw [hne]
        exact (hs n hn).of_calm hcalm hstill fun h => ⟨(halive h).1, (halive h).2.1⟩
      · exact (hs id hid).of_away haway hne
    · exact fun _ => ensures_pure hs

theorem usbHostInterrupt_sound (gsi : ℕ) (hs : ∀ id < uhciControllerCount, Sound id s) :
    Ensures (usbHostInterrupt gsi) s fun _ t => ∀ id < uhciControllerCount, Sound id t := by
  refine ensures_bind (interruptControllers_sound gsi hs _ (Nat.le_refl _)) fun _ u hs => ?_
  refine ensures_ite (fun _ => ?_) fun _ => ?_
  · exact ensures_modify fun id hid => (hs id hid).of_eq rfl rfl
  refine ensures_get_bind (ensures_modify_bind (ensures_ite (fun _ => ensures_pure ?_) fun _ => ?_))
  · exact fun id hid => (hs id hid).of_eq rfl rfl
  · have hkeeps : Keeps (fun s : Usb => (s.info, s.controllers)) (maskRoute gsi) :=
      keeps_bind (keeps_modifyGet fun _ => rfl) fun _ => keeps_bind (keeps_modify fun _ => rfl)
        fun _ => keeps_modify fun _ => rfl
    refine (hkeeps.ensures _).mono fun _ t heq id hid => ?_
    obtain ⟨hinfo, hcontrollers⟩ := Prod.mk.inj heq
    exact (hs id hid).of_eq (by rw [hinfo]) (by rw [hcontrollers])

theorem Sound.scanPort (S : Sound id s) (hid : id < uhciControllerCount) {port : ℕ} (hport : port ≤ 1)
    (hbit : a = (s.controllers id).active) : Ensures (scanPort id port a) s fun a' t =>
      Sound id t ∧ a' = (t.controllers id).active ∧ t.away id = s.away id := by
  refine (scanPort_spec hid hport hbit).mono fun a' t C => ⟨⟨fun hready => ?_, fun hactive => ?_⟩,
    C.bit, C.away⟩
  · rw [C.frames]
    by_cases h : (s.info id).status = uhciReady
    · exact S.built h
    · rw [C.untouched h] at hready
      exact absurd hready h
  · have ha' : a' = true := C.bit.trans hactive
    rw [C.frames]
    cases ha : a with
    | false => exact ⟨S.built (C.tried ha ha'), (C.started ha ha').2.1⟩
    | true =>
      rw [(C.kept ha).2.2]
      exact S.ready (hbit.symm.trans ha)

end Sound

/-! ### The start of the driver -/

section Boot

variable {B id port : ℕ} {s t : Usb}

theorem Kept.of_quiet (K : Kept B s) (hlog : t.log = s.log) (hinfo : t.info = s.info)
    (hcontrollers : t.controllers = s.controllers) (hmouse : t.mousePort = s.mousePort)
    (hhotplug : t.hotplug = s.hotplug) (htime : s.time ≤ t.time) : Kept B t :=
  K.quiet ⟨adds_of_eq hlog, hhotplug, hmouse, fun i => by rw [Usb.stream, hcontrollers]; rfl,
    fun i => by rw [hinfo], htime⟩

/-- The next controller has been started. -/
theorem Kept.next (K : Kept id s) (h : ∀ p ≤ 1, (s.hotplug id p).attempted = 0 →
    (s.mousePort id p).status = usbMouseNotProbed) : Kept (id + 1) s := by
  refine ⟨K.lawful, K.located, K.stream, fun i p hp => ?_⟩
  have N := K.noted i p hp
  refine ⟨N.connection, N.generation, fun hi h0 => ?_, fun hi => N.untried (by omega), N.shown,
    fun hi => N.fresh (by omega)⟩
  rcases Nat.lt_succ_iff_lt_or_eq.mp hi with hlt | rfl
  · exact N.tried hlt h0
  · exact N.untried (Nat.le_refl i) (h p hp h0)

theorem Kept.initializePort (K : Kept id s) (hid : id < uhciControllerCount) (hport : port ≤ 1)
    (hoff : (s.controllers id).active = false) (hplace : (s.info id).ioBase ≠ 0)
    (hbeside : Clear 4 id (1 - port) s.log)
    (hstatus : (s.mousePort id port).status = usbMouseNotProbed) :
    Ensures (initializePort id port) s fun ok t => Kept id t ∧ (ok = false → Clear 4 id port t.log) := by
  refine ensures_bind (K.probePort hid hport hoff hplace hbeside (Or.inr (Nat.le_refl id))
    (Or.inl ((K.noted id port hport).fresh (Nat.le_refl id) hstatus))) ?_
  rintro ok t ⟨K, hclear⟩
  refine ensures_ite (fun _ => ensures_modify_bind (ensures_pure ⟨?_, ?_⟩)) fun hok =>
    ensures_pure ⟨K, fun _ => hclear (Bool.not_eq_true _ ▸ hok)⟩
  · exact K.of_quiet rfl rfl rfl rfl rfl (Nat.le_refl _)
  · exact fun h => absurd h.symm Bool.false_ne_true

theorem Kept.initializePorts (K : Kept id s) (hid : id < uhciControllerCount)
    (hoff : (s.controllers id).active = false) (hbuilt : (s.controllers id).frames = true)
    (hclear : ∀ p ≤ 1, Clear 0x204 id p s.log)
    (hstatus : ∀ p ≤ 1, (s.mousePort id p).status = usbMouseNotProbed) :
    Ensures (initializePorts id) s fun _ t => Kept id t := by
  refine ensures_bind ((K.initializePort hid (Nat.zero_le 1) hoff (K.located id hbuilt)
    (hclear 1 (Nat.le_refl 1)).four (hstatus 0 (Nat.zero_le 1))).and
    (initializePort_spec hid (Nat.zero_le 1) s)) ?_
  rintro ok u ⟨⟨K, hclear⟩, hprobed⟩
  refine ensures_ite (fun _ => ensures_pure K) fun hok => ensures_get_bind ?_
  rw [Bool.not_eq_true] at hok
  have P := hprobed.2 hok
  have hstream := P.stream
  have haround := P.around
  simp only [Usb.stream, Usb.around, Prod.mk.injEq] at hstream haround
  have hother : u.mousePort id 1 = s.mousePort id 1 := congrFun haround.2.2.2.2.1 ⟨1, by decide⟩
  refine ensures_ite (fun _ => ensures_pure K) fun _ => ?_
  refine ensures_bind (K.initializePort hid (Nat.le_refl 1) (hstream.2.1.trans hoff)
    (K.located id (hstream.1.trans hbuilt)) (hclear hok) ?_) fun _ _ h => ensures_pure h.1
  rw [hother]
  exact hstatus 1 (Nat.le_refl 1)

theorem Kept.initializeHotplug (K : Kept id s) (hport : port ≤ 1) :
    Ensures (initializeHotplug id port) s fun _ t => Kept id t ∧
      t.others id port = s.others id port ∧ t.mousePort = s.mousePort ∧
        ((t.hotplug id port).attempted = 0 → (s.mousePort id port).status = usbMouseNotProbed) := by
  have N := K.noted id port hport
  refine ensures_get_bind (ensures_modify_bind ?_)
  refine (((others_setHotplug _).ensures _).and ((setHotplug_entry _ _).and
    ((setHotplug_log _).ensures _))).mono ?_
  rintro - t ⟨hothers, ⟨hentry, hmouse⟩, hlog⟩
  refine ⟨K.note id port hlog trivial (fun _ => rfl) (fun i p hip => ?_) hothers ?_, hothers, hmouse, ?_⟩
  · have hne : ¬(id = i ∧ port = p) := fun h => hip ⟨h.1.symm, h.2.symm⟩
    exact ⟨if_neg hne, if_neg hne, rfl, rfl⟩
  · obtain ⟨-, -, -, hcontrollers, -⟩ := others_eq hothers
    refine ⟨?_, ?_, fun h => absurd h (Nat.lt_irrefl id), fun hB h => ?_, fun h => ?_,
      fun hB h e he => ?_⟩
    · rw [hlog, connectedAt_concat, hentry, UsbEvent.connection, if_pos ⟨rfl, rfl⟩]
      rfl
    · rw [hlog, generationAt_concat, hentry, UsbEvent.generation, if_pos ⟨rfl, rfl⟩]
      rfl
    · rw [hmouse] at h
      rw [hlog, armed_concat]
      exact N.untried hB h
    · rw [hmouse] at h
      rw [hlog, armed_concat, hcontrollers]
      exact N.shown h
    · rw [hmouse] at h
      rw [hlog] at he
      rcases List.mem_append.mp he with he | he
      · exact N.fresh hB h e he
      · rw [List.mem_singleton.mp he]
        rfl
  · rw [hentry]
    intro h
    by_contra hne
    exact absurd ((if_pos hne).symm.trans h) Nat.one_ne_zero

/-- **A controller at boot.** -/
theorem Kept.initializeController (K : Kept id s) (hid : id < uhciControllerCount)
    (F : UsbFresh id s) : Ensures (initializeController id) s fun _ t => Kept (id + 1) t := by
  refine ensures_get_bind (ensures_ite (fun _ => ensures_pure ?_) fun hready => ?_)
  · exact K.next fun p hp _ => F.record p hp
  have hbuilt : (s.controllers id).frames = true := F.built (not_not.mp hready)
  refine K.disableBoth hid F.inactive (K.located id hbuilt) fun u K hhushed hclear => ?_
  have hstream := hhushed.stream id
  simp only [Usb.stream, Prod.mk.injEq] at hstream
  refine ensures_bind (K.initializePorts hid (hstream.2.1.trans F.inactive) (hstream.1.trans hbuilt)
    hclear fun p hp => ?_) fun _ v K => ?_
  · rw [hhushed.mousePort]
    exact F.record p hp
  refine ensures_bind (K.initializeHotplug (Nat.zero_le 1)) ?_
  rintro - w ⟨K, -, hmouse₀, h0⟩
  refine (K.initializeHotplug (Nat.le_refl 1)).mono ?_
  rintro - t ⟨K, hothers, hmouse₁, h1⟩
  refine K.next fun p hp h => ?_
  rcases Nat.le_one_iff_eq_zero_or_eq_one.mp hp with rfl | rfl
  · obtain ⟨-, -, -, -, -, -, hbeside⟩ := others_eq hothers
    rw [(hbeside 0 (by decide)).2] at h
    rw [hmouse₁, hmouse₀]
    exact h0 h
  · rw [hmouse₁]
    exact h1 h

theorem Kept.initializeControllers (K : Kept 0 s) (hfresh : ∀ id < uhciControllerCount, UsbFresh id s) :
    ∀ n ≤ uhciControllerCount, Ensures (initializeControllers n) s fun _ t => Kept n t := by
  intro n
  induction n with
  | zero => exact fun _ => ensures_pure K
  | succ n ih =>
    intro hn
    refine ensures_bind ((ih (by omega)).and (initializeControllers_spec hfresh n (by omega))) ?_
    rintro - u ⟨K, -, hrest, -⟩
    exact K.initializeController hn (hrest n (Nat.le_refl n) hn)

end Boot

/-! ### Runs -/

/-- The state that `usb_host_initialize` leaves: as for `UsbBooted`, with nothing written
yet, the variables of the mouse driver zero, and the registers of every controller with a
schedule located. -/
structure MouseBooted (s : Usb) : Prop where
  booted : UsbBooted s
  log : s.log = []
  entry : ∀ id p, s.hotplug id p = ⟨0, 0, 0⟩
  inactive : ∀ id, (s.controllers id).active = false
  record : ∀ id p, (s.mousePort id p).status = usbMouseNotProbed
  located : ∀ id, (s.controllers id).frames = true → (s.info id).ioBase ≠ 0

/-- The states between the calls of a run of the mouse driver, with any hardware. -/
inductive MouseRun : Usb → Prop
  | boot {s t : Usb} {count : ℕ} : MouseBooted s →
      usbMouseInitialize.run s = some (count, t) → MouseRun t
  | interrupt {s t : Usb} (gsi : ℕ) : MouseRun s →
      (usbHostInterrupt gsi).run s = some ((), t) → MouseRun t
  | service {s t : Usb} {scanned : Bool} : MouseRun s →
      usbMouseService.run s = some (scanned, t) → MouseRun t

section Run

variable {s t : Usb}

theorem MouseBooted.kept (h : MouseBooted s) : Kept 0 s := by
  refine ⟨h.log ▸ sequenced_nil, h.located, fun id => ?_, fun id p _ => ⟨?_, ?_, ?_, ?_, ?_, ?_⟩⟩
  · rw [h.log, h.inactive id]
    rfl
  · rw [h.log, h.entry]
    rfl
  · rw [h.log, h.entry]
    rfl
  · exact fun h => absurd h (Nat.not_lt_zero id)
  · rw [h.log]
    exact fun _ _ => rfl
  · rw [h.record]
    exact fun h => absurd h (by decide)
  · rw [h.log]
    exact fun _ _ e he => absurd he List.not_mem_nil

theorem usbMouseInitialize_kept (h : MouseBooted s) :
    Ensures usbMouseInitialize s fun _ t => Kept uhciControllerCount t := by
  refine ensures_get_bind (ensures_ite (fun h' => ?_) fun _ => ensures_modify_bind ?_)
  · exact absurd (h.booted.1.symm.trans h') Bool.false_ne_true
  have hfresh : ∀ id < uhciControllerCount, UsbFresh id { s with initialized := true } := by
    intro id hid
    have F := h.booted.2 id hid
    exact ⟨F.built, F.inactive, F.record⟩
  have K : Kept 0 { s with initialized := true } := h.kept.of_quiet rfl rfl rfl rfl rfl (Nat.le_refl _)
  refine ensures_bind (K.initializeControllers hfresh _ (Nat.le_refl _)) fun _ u K => ?_
  exact ensures_modify_bind (ensures_get_bind (ensures_pure (K.of_quiet rfl rfl rfl rfl rfl (Nat.le_refl _))))

theorem scanControllers_kept (K : Kept uhciControllerCount s)
    (hs : ∀ id < uhciControllerCount, Sound id s) {active : ℕ → Bool}
    (hbit : ∀ id < uhciControllerCount, active id = (s.controllers id).active) :
    ∀ n ≤ uhciControllerCount, Ensures (scanControllers active n) s fun _ t =>
      Kept uhciControllerCount t ∧ (∀ id < uhciControllerCount, Sound id t) ∧
        ∀ id, n ≤ id → t.controllers id = s.controllers id := by
  intro n
  induction n with
  | zero => exact fun _ => ensures_pure ⟨K, hs, fun _ _ => rfl⟩
  | succ n ih =>
    intro hn
    refine ensures_bind (ih (by omega)) ?_
    rintro count u ⟨K, hs, hrest⟩
    have hbit' : active n = (u.controllers n).active := by
      rw [hrest n (Nat.le_refl n)]
      exact hbit n hn
    have hscan : Ensures (scanController n (active n)) u fun _ t =>
        Kept uhciControllerCount t ∧ Sound n t ∧ t.away n = u.away n := by
      refine ensures_bind ((K.scanPort hn hn (Nat.zero_le 1) hbit' (hs n hn).built).and
        ((hs n hn).scanPort hn (Nat.zero_le 1) hbit')) ?_
      rintro a v ⟨K, S, hbit, haway⟩
      refine ((K.scanPort hn hn (Nat.le_refl 1) hbit S.built).and
        (S.scanPort hn (Nat.le_refl 1) hbit)).mono ?_
      rintro a' t ⟨K, S, -, haway'⟩
      exact ⟨K, S, haway'.trans haway⟩
    refine ensures_bind hscan ?_
    rintro a t ⟨K, S, haway⟩
    refine ensures_pure ⟨K, fun id hid => ?_, fun id hid => ?_⟩
    · by_cases hne : id = n
      · exact hne ▸ S
      · exact (hs id hid).of_away haway hne
    · rw [(away_eq haway (show id ≠ n by omega)).2.1]
      exact hrest id (by omega)

theorem usbMouseService_kept (K : Kept uhciControllerCount s)
    (hs : ∀ id < uhciControllerCount, Sound id s) : Ensures usbMouseService s fun _ t =>
      Kept uhciControllerCount t ∧ ∀ id < uhciControllerCount, Sound id t := by
  refine ensures_get_bind (ensures_ite (fun _ => ensures_pure ⟨K, hs⟩) fun _ => ?_)
  refine ensures_bind ((((keptRule uhciControllerCount).poll).ensures s).and (usbHostPoll_sound hs)) ?_
  rintro active u ⟨hkept, hs, hbit⟩
  have hlog : Keeps Usb.log usbUhciHotplugDue :=
    keeps_bind keeps_get fun _ => keeps_ite (keeps_pure _) (keeps_bind (keeps_modifyGet fun _ => rfl)
      fun _ => keeps_bind keeps_get fun _ => keeps_ite (keeps_pure _)
        (keeps_bind (keeps_modify fun _ => rfl) fun _ => keeps_pure _))
  refine ensures_bind ((usbUhciHotplugDue_spec u).and (hlog.ensures u)) ?_
  rintro due v ⟨⟨hticks, -, hinfo, hcontrollers, hmouse, hhotplug, -, htime⟩, hlog⟩
  have K' : Kept uhciControllerCount v :=
    (hkept K).of_quiet hlog hinfo hcontrollers hmouse hhotplug htime
  have hs' : ∀ id < uhciControllerCount, Sound id v := fun id hid =>
    (hs id hid).of_eq (by rw [hinfo]) (by rw [hcontrollers])
  refine ensures_ite (fun _ => ensures_pure ⟨K', hs'⟩) fun hdue => ?_
  have hbit' := hbit.resolve_left (hticks (Bool.not_eq_false _ ▸ hdue))
  rw [← hcontrollers] at hbit'
  refine ensures_bind (scanControllers_kept K' hs' hbit' _ (Nat.le_refl _)) ?_
  rintro count w ⟨K, hs, -⟩
  refine ensures_modify_bind (ensures_pure
    ⟨K.of_quiet rfl rfl rfl rfl rfl (Nat.le_refl _), fun id hid => ?_⟩)
  exact (hs id hid).of_eq rfl rfl

theorem MouseRun.kept (h : MouseRun s) :
    Kept uhciControllerCount s ∧ ∀ id < uhciControllerCount, Sound id s := by
  induction h with
  | boot hboot hrun =>
    refine ⟨usbMouseInitialize_kept hboot _ _ hrun, fun id hid => ?_⟩
    have ok := (usbMouseInitialize_spec hboot.booted _ _ hrun).1 id hid
    exact ⟨ok.built, ok.ready⟩
  | interrupt gsi _ hrun ih =>
    exact ⟨(keptRule _).interrupt gsi _ _ _ hrun ih.1, usbHostInterrupt_sound gsi ih.2 _ _ hrun⟩
  | service _ hrun ih => exact usbMouseService_kept ih.1 ih.2 _ _ hrun

/-! The run in which a record lingers is one of them. -/

theorem lingerBoot_mouse : MouseBooted lingerBoot := by
  refine ⟨lingerBoot_booted, rfl, fun _ _ => rfl, fun _ => rfl, fun _ _ => rfl, fun id hframes => ?_⟩
  obtain rfl : id = 0 := of_decide_eq_true hframes
  decide

theorem mouseRun_linger {n : ℕ} (h : lingerAt n = some s) : MouseRun s := by
  induction n generalizing s with
  | zero =>
    obtain ⟨⟨_, _⟩, hrun, rfl⟩ := Option.map_eq_some_iff.mp h
    exact .boot lingerBoot_mouse hrun
  | succ n ih =>
    obtain ⟨u, hu, h⟩ := Option.bind_eq_some_iff.mp h
    obtain ⟨⟨_, _⟩, hrun, rfl⟩ := Option.map_eq_some_iff.mp h
    exact (ih hu).service hrun

theorem split_at {l : List UsbEvent} {n : ℕ} {e : UsbEvent} (h : l[n]? = some e) :
    l = l.take n ++ e :: l.drop (n + 1) := by
  obtain ⟨hlt, rfl⟩ := List.getElem?_eq_some_iff.mp h
  rw [← List.drop_eq_getElem_cons hlt, List.take_append_drop]

/-- **Address 0 has one owner**: in every run, whatever the hardware answers, a request to
address 0 is sent only while one port of the controller is being probed and the last value
written to its other port leaves that disabled; and when a probe fails, the last value
written to its port has the enable and reset bits clear. -/
theorem address_zero_alone (h : MouseRun s) :
    (∀ l₁ l₂ id pid low toggle length,
      s.log = l₁ ++ .controlTd id pid 0 low toggle length :: l₂ →
        ∃ port ≤ 1, latest (·.probing id) l₁ = some (some port) ∧ Clear 4 id (1 - port) l₁) ∧
    ∀ l₁ l₂ id port, s.log = l₁ ++ .probed id port false :: l₂ → Clear 0x204 id port l₁ :=
  ⟨fun l₁ l₂ _ _ _ _ _ hlog => h.kept.1.lawful l₁ _ l₂ hlog rfl,
    fun l₁ l₂ _ _ hlog => h.kept.1.lawful l₁ _ l₂ hlog rfl⟩

/-- At boot a device is asked at address 0 for its first eight bytes. -/
theorem address_zero_alone_linger : ∃ s l₁ l₂, lingerAt 0 = some s ∧
    s.log = l₁ ++ .controlTd 0 45 0 0 0 8 :: l₂ ∧
      ∃ port ≤ 1, latest (·.probing 0) l₁ = some (some port) ∧ Clear 4 0 (1 - port) l₁ := by
  obtain ⟨s, hs⟩ := Option.isSome_iff_exists.mp
    (show (lingerAt 0).isSome = true by decide +kernel)
  have hat : ((lingerAt 0).bind fun s => s.log[12]?) = some (.controlTd 0 45 0 0 0 8) := by
    decide +kernel
  rw [hs, Option.bind_some] at hat
  have hlog := split_at hat
  exact ⟨s, _, _, hs, hlog, (address_zero_alone (mouseRun_linger hs)).1 _ _ _ _ _ _ _ hlog⟩

/-- **Probes are debounced**: a port is probed while its controller has no stream; and
either this is the first that the driver does with the port, or a scan has just read the port
as connected, with the connection and generation that an earlier look at it had noted, and
since its last probe a change has been noted or a stream on it has ended.  A change is noted
only when the port reads differently from what was noted before. -/
theorem probes_debounced (h : MouseRun s) :
    (∀ l₁ l₂ id port, s.log = l₁ ++ .probe id port :: l₂ → streamOf id l₁ = none ∧
      ((∀ e ∈ l₁, e.ofPort id port = false) ∨ Debounced id port l₁)) ∧
    ∀ l₁ l₂ id port connected generation,
      s.log = l₁ ++ .changed id port connected generation :: l₂ →
        connected ≠ connectedAt id port l₁ ∨ generation ≠ generationAt id port l₁ :=
  ⟨fun l₁ l₂ _ _ hlog => h.kept.1.lawful l₁ _ l₂ hlog,
    fun l₁ l₂ _ _ _ _ hlog => h.kept.1.lawful l₁ _ l₂ hlog⟩

/-- The mouse that has come to port 0 after boot is probed in the second scan. -/
theorem probes_debounced_linger : ∃ s l₁ l₂, lingerAt 2 = some s ∧
    s.log = l₁ ++ .probe 0 0 :: l₂ ∧ Debounced 0 0 l₁ := by
  obtain ⟨s, hs⟩ := Option.isSome_iff_exists.mp
    (show (lingerAt 2).isSome = true by decide +kernel)
  have hat : ((lingerAt 2).bind fun s => s.log[215]?) = some (.probe 0 0) := by decide +kernel
  have hbefore : ((lingerAt 2).map fun s => (s.log.take 215).any (·.ofPort 0 0)) = some true := by
    decide +kernel
  rw [hs, Option.bind_some] at hat
  rw [hs, Option.map_some, Option.some.injEq, List.any_eq_true] at hbefore
  obtain ⟨e, he, hof⟩ := hbefore
  have hlog := split_at hat
  refine ⟨s, _, _, hs, hlog, ?_⟩
  refine ((probes_debounced (mouseRun_linger hs)).1 _ _ _ _ hlog).2.resolve_left fun h => ?_
  exact absurd (hof.symm.trans (h e he)) (by decide)

end Run

end VirtualKernel
