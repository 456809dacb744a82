/-
Polls and interrupts of the UHCI controllers.

Polling a controller can end its stream but not start one.
`pollController_alive`: a stream that goes on has read its port as connected and
enabled during the poll, the last readings of the ports are from this poll, and a
stream ends at a sign of the hardware (`StreamEnds`).
-/
import VirtualKernel.UsbProbe

namespace VirtualKernel

open Lib

/-! ### Polls and interrupts -/

/-- What polling controller `id` leaves alone. -/
def Usb.calm (id : ℕ) (s : Usb) :=
  (s.hw, (s.initialized, s.ticksPerMs), s.away id, (s.controllers id).frames, (s.controllers id).port,
    s.mousePort id, s.hotplug id)

/-- What the report of a stream leaves alone. -/
def Usb.pulse (id : ℕ) (s : Usb) :=
  (s.hw, s.time, (s.info id).status, (s.controllers id).active, (s.controllers id).port)

section Poll

variable {id : ℕ} {s : Usb}

/-- `calm` is part of `frame`: it leaves open whether the stream goes on. -/
theorem Lib.Keeps.toCalm {α : Type} {m : UsbM α} (h : Keeps (Usb.frame id) m) :
    Keeps (Usb.calm id) m :=
  h.comp fun v => (v.1, v.2.1, v.2.2.1, v.2.2.2.1.1, v.2.2.2.1.2.2, v.2.2.2.2.1, v.2.2.2.2.2)

/-- A change of the controller that leaves its frames and its port. -/
theorem calm_modifyController {f : UhciController → UhciController}
    (hf : ∀ c, ((f c).frames, (f c).port) = (c.frames, c.port)) :
    Keeps (Usb.calm id) (modifyController id f) := by
  refine keeps_modify fun s => ?_
  have haway : Usb.away id
      { s with controllers := Function.update s.controllers id (f (s.controllers id)) } =
      Usb.away id s := by
    funext x
    simp only [Usb.away, Function.update_of_ne x.2]
  have hc := hf (s.controllers id)
  simp only [Prod.mk.injEq] at hc
  rw [Usb.calm, haway]
  simp only [Usb.calm, Function.update_self, hc.1, hc.2]

theorem calm_usbOut (events : List UsbEvent) : Keeps (Usb.calm id) (usbOut events) :=
  (keeps_usbOut events).toFrame.toCalm

/-- The end of a stream leaves the ports and the other controllers. -/
theorem calm_endStream : Keeps (Usb.calm id) (endStream id) :=
  keeps_bind keeps_get fun _ => keeps_bind (calm_usbOut _) fun _ =>
    keeps_bind (calm_modifyController fun _ => rfl) fun _ => (keeps_reportCallback _).toFrame.toCalm

theorem calm_queueReport (report : UhciReport) : Keeps (Usb.calm id) (queueReport id report) := by
  refine keeps_bind keeps_get fun c => keeps_bind (calm_usbOut _) fun _ =>
    keeps_ite ?_ (keeps_modifyInfo _).toCalm
  exact calm_modifyController fun _ => rfl

/-- So does the report of a transfer. -/
theorem calm_serviceReport (length : ℕ) (fromIrq : Bool) :
    Keeps (Usb.calm id) (serviceReport id length fromIrq) := by
  refine keeps_bind (keeps_modify fun s => by split_ifs <;> rfl) fun _ => ?_
  refine keeps_bind (keeps_modifyInfo _).toCalm fun _ => keeps_bind keeps_get fun _ => ?_
  refine keeps_bind (keeps_reportCallback _).toFrame.toCalm fun _ => ?_
  refine keeps_bind (calm_queueReport _) fun _ => ?_
  refine keeps_bind (calm_modifyController ?_) fun _ => keeps_armInterrupt.toFrame.toCalm
  exact fun _ => rfl

theorem calm_serviceStream (usbsts : ℕ) (fromIrq : Bool) :
    Keeps (Usb.calm id) (serviceStream id usbsts fromIrq) := by
  have hend : ∀ status, Keeps (Usb.calm id)
      (do setStatus id status; usbOut [.interruptQh id false]; endStream id; return true) :=
    fun status => keeps_bind (keeps_setStatus status).toFrame.toCalm fun _ =>
      keeps_bind (calm_usbOut _) fun _ => keeps_bind calm_endStream fun _ => keeps_pure _
  refine keeps_bind keeps_get fun c => keeps_bind (keeps_usbIn _).toFrame.toCalm fun port => ?_
  refine keeps_bind (keeps_setPortStatus _).toCalm fun _ => ?_
  refine keeps_bind keeps_readTd.toFrame.toCalm fun td => ?_
  refine keeps_bind (keeps_modify fun _ => rfl) fun _ => keeps_ite (hend _) ?_
  refine keeps_ite (keeps_pure _) (keeps_ite (hend _) (keeps_bind (calm_usbOut _) fun _ => ?_))
  refine keeps_bind keeps_get fun _ => ?_
  refine keeps_ite (keeps_bind calm_endStream fun _ => keeps_pure _) ?_
  exact keeps_bind (calm_serviceReport _ _) fun _ => keeps_pure _

/-- A service of one controller leaves the others alone. -/
theorem calm_serviceController (fromIrq : Bool) :
    Keeps (Usb.calm id) (serviceController id fromIrq) := by
  refine keeps_bind keeps_get fun s => keeps_ite (keeps_pure _) ?_
  refine keeps_bind (keeps_usbIn _).toFrame.toCalm fun status => ?_
  refine keeps_bind (keeps_modifyInfo _).toCalm fun _ => keeps_bind (calm_usbOut _) fun _ => ?_
  refine keeps_ite ?_ (keeps_ite (keeps_pure _) ?_)
  · exact keeps_bind (calm_usbOut _) fun _ =>
      keeps_bind keeps_pciDisableInterrupt.toFrame.toCalm fun _ =>
      keeps_bind (keeps_setStatus _).toFrame.toCalm fun _ =>
      keeps_bind calm_endStream fun _ => keeps_pure _
  · exact calm_serviceStream _ _

/-- A poll of a port changes what has been read of it, and its generation. -/
theorem frame_pollPort (port : ℕ) : Keeps (Usb.frame id) (pollPort id port) := by
  refine keeps_bind (keeps_usbIn _).toFrame fun value => ?_
  refine keeps_bind (keeps_setPortStatus _) fun _ => keeps_bind (keeps_modify fun s => ?_) fun _ =>
    keeps_ite (keeps_pure _) (keeps_outPort _).toFrame
  dsimp only
  split_ifs
  · rfl
  · have haway : ∀ g, Usb.away id
        { s with portGeneration := Function.update s.portGeneration id g } = Usb.away id s := by
      intro g
      funext x
      simp only [Usb.away, Function.update_of_ne x.2]
    rw [Usb.frame, haway]
    rfl

theorem frame_pollRecover : Keeps (Usb.frame id) (pollRecover id) := by
  refine keeps_bind keeps_get fun s => keeps_ite ?_ (keeps_pure _)
  refine Keeps.toFrame (keeps_bind (keeps_usbOut _) fun _ => keeps_bind keeps_uhciStop fun _ => ?_)
  refine keeps_bind (keeps_usbOut _) fun _ => keeps_bind (keeps_writeTd _) fun _ => ?_
  refine keeps_bind (keeps_modifyController fun _ => rfl) fun _ => keeps_bind (keeps_usbOut _) ?_
  exact fun _ => keeps_bind (keeps_setStatus _) fun _ => keeps_usbOut _

theorem frame_pollPause : Keeps (Usb.full id) (pollPause id) :=
  keeps_bind keeps_get fun _ => keeps_ite (keeps_pure _) (keeps_bind keeps_readTd fun _ =>
    keeps_ite (keeps_bind (keeps_usbOut _) fun _ => keeps_bind keeps_uhciStop fun _ => keeps_pure _)
      (keeps_pure _))

theorem frame_pollResume (paused : Bool) : Keeps (Usb.full id) (pollResume id paused) :=
  keeps_bind keeps_get fun _ => keeps_usbOut _

/-- And the poll of a whole controller. -/
theorem calm_pollController : Keeps (Usb.calm id) (pollController id) := by
  refine keeps_bind keeps_get fun s => keeps_ite (keeps_pure _) ?_
  refine keeps_bind frame_pollPause.toFrame.toCalm fun _ => ?_
  refine keeps_bind (calm_serviceController _) fun _ => keeps_bind keeps_get fun s => ?_
  refine keeps_ite (keeps_pure _) (keeps_bind (frame_pollResume _).toFrame.toCalm fun _ => ?_)
  refine keeps_bind frame_pollRecover.toCalm fun _ => ?_
  refine keeps_bind (frame_pollPort 0).toCalm fun _ => keeps_bind (frame_pollPort 1).toCalm fun _ => ?_
  exact keeps_bind keeps_get fun _ => keeps_pure _

/-! Time only goes on. -/

/-- `m` does not turn time back. -/
def Advances {α : Type} (m : UsbM α) : Prop := ∀ s, Ensures m s fun _ t => s.time ≤ t.time

/-- Time goes on from one step to the next. -/
theorem advances_bind {α β : Type} {m : UsbM α} {f : α → UsbM β} (hm : Advances m)
    (hf : ∀ a, Advances (f a)) : Advances (m >>= f) := fun s =>
  ensures_bind (hm s) fun a t h => (hf a t).mono fun _ _ h' => h.trans h'

theorem advances_pure {α : Type} (a : α) : Advances (pure a : UsbM α) :=
  fun _ => ensures_pure (Nat.le_refl _)

theorem advances_get : Advances (get : UsbM Usb) :=
  fun _ => ensures_modifyGet (g := fun s => (s, s)) (Nat.le_refl _)

theorem advances_modify {g : Usb → Usb} (h : ∀ s, (g s).time = s.time) :
    Advances (modify g : UsbM PUnit) := fun s => ensures_modify (Nat.le_of_eq (h s).symm)

/-- A reading of the hardware takes a moment. -/
theorem advances_usbIn (r : UsbReg) : Advances (usbIn r) :=
  fun s => ensures_modifyGet (Nat.le_succ s.time)

theorem advances_readTd : Advances (readTd id) := fun s => ensures_modifyGet (Nat.le_succ s.time)

theorem advances_usbOut (events : List UsbEvent) : Advances (usbOut events) :=
  advances_modify fun _ => rfl

theorem advances_ite {α : Type} {c : Prop} [Decidable c] {m m' : UsbM α} (h : Advances m)
    (h' : Advances m') : Advances (if c then m else m') :=
  fun s => ensures_ite (fun _ => h s) fun _ => h' s

theorem advances_uhciStop : Advances (uhciStop id) :=
  advances_bind (advances_usbOut _) fun _ => advances_bind (advances_usbIn _) fun _ =>
    advances_ite (advances_bind (advances_usbOut _) fun _ => fun _ => ensures_none)
      (advances_pure _)

theorem advances_armInterrupt : Advances (armInterrupt id) :=
  advances_bind advances_get fun _ => advances_bind (advances_usbOut _) fun _ =>
    advances_bind (advances_modify fun _ => rfl) fun _ => advances_usbOut _

theorem advances_endStream : Advances (endStream id) :=
  advances_bind advances_get fun _ => advances_bind (advances_usbOut _) fun _ =>
    advances_bind (advances_modify fun _ => rfl) fun _ => advances_modify fun _ => rfl

theorem advances_serviceReport (length : ℕ) (fromIrq : Bool) :
    Advances (serviceReport id length fromIrq) := by
  refine advances_bind (advances_modify fun s => by split_ifs <;> rfl) fun _ => ?_
  refine advances_bind (advances_modify fun _ => rfl) fun _ => advances_bind advances_get fun _ => ?_
  refine advances_bind (advances_modify fun _ => rfl) fun _ => ?_
  refine advances_bind (advances_bind advances_get fun _ => advances_bind (advances_usbOut _) fun _ =>
    advances_ite ?_ ?_) fun _ => ?_
  · exact advances_modify fun _ => rfl
  · exact advances_modify fun _ => rfl
  · exact advances_bind (advances_modify fun _ => rfl) fun _ => advances_armInterrupt

/-- All paths through the service of a stream. -/
theorem advances_serviceStream (usbsts : ℕ) (fromIrq : Bool) :
    Advances (serviceStream id usbsts fromIrq) := by
  have hend : ∀ status, Advances
      (do setStatus id status; usbOut [.interruptQh id false]; endStream id; return true) :=
    fun status => advances_bind (advances_modify fun _ => rfl) fun _ =>
      advances_bind (advances_usbOut _) fun _ =>
      advances_bind advances_endStream fun _ => advances_pure _
  refine advances_bind advances_get fun c => advances_bind (advances_usbIn _) fun port => ?_
  refine advances_bind (advances_modify fun _ => rfl) fun _ => ?_
  refine advances_bind advances_readTd fun td => ?_
  refine advances_bind (advances_modify fun _ => rfl) fun _ => advances_ite (hend _) ?_
  refine advances_ite (advances_pure _) (advances_ite (hend _) ?_)
  refine advances_bind (advances_usbOut _) fun _ => advances_bind advances_get fun _ => ?_
  refine advances_ite (advances_bind advances_endStream fun _ => advances_pure _) ?_
  exact advances_bind (advances_serviceReport _ _) fun _ => advances_pure _

theorem advances_serviceController (fromIrq : Bool) :
    Advances (serviceController id fromIrq) := by
  refine advances_bind advances_get fun s => advances_ite (advances_pure _) ?_
  refine advances_bind (advances_usbIn _) fun status => ?_
  refine advances_bind (advances_modify fun _ => rfl) fun _ => ?_
  refine advances_bind (advances_usbOut _) fun _ => advances_ite ?_
    (advances_ite (advances_pure _) ?_)
  · refine advances_bind (advances_usbOut _) fun _ => advances_bind ?_ fun _ =>
      advances_bind (advances_modify fun _ => rfl) fun _ =>
      advances_bind advances_endStream fun _ => advances_pure _
    exact advances_bind (advances_usbIn _) fun _ => advances_usbOut _
  · exact advances_serviceStream _ _

theorem advances_pollPort (port : ℕ) : Advances (pollPort id port) := by
  refine advances_bind (advances_usbIn _) fun value => ?_
  refine advances_bind (advances_modify fun _ => rfl) fun _ => ?_
  refine advances_bind (advances_modify fun s => ?_) fun _ =>
    advances_ite (advances_pure _) (advances_modify fun _ => rfl)
  dsimp only
  split_ifs <;> rfl

theorem advances_pollRecover : Advances (pollRecover id) := by
  refine advances_bind advances_get fun s => advances_ite ?_ (advances_pure _)
  refine advances_bind (advances_usbOut _) fun _ => advances_bind advances_uhciStop fun _ => ?_
  refine advances_bind (advances_usbOut _) fun _ => advances_bind (advances_modify fun _ => rfl) ?_
  refine fun _ => advances_bind (advances_modify fun _ => rfl) fun _ => ?_
  refine advances_bind (advances_usbOut _) fun _ => advances_bind (advances_modify fun _ => rfl) ?_
  exact fun _ => advances_usbOut _

theorem advances_pollPause : Advances (pollPause id) :=
  advances_bind advances_get fun _ => advances_ite (advances_pure _)
    (advances_bind advances_readTd fun _ => advances_ite (advances_bind (advances_usbOut _) fun _ =>
      advances_bind advances_uhciStop fun _ => advances_pure _) (advances_pure _))

theorem advances_pollResume (paused : Bool) : Advances (pollResume id paused) :=
  advances_bind advances_get fun _ => advances_usbOut _

/-- So the moments of a poll are in order. -/
theorem advances_pollController : Advances (pollController id) := by
  refine advances_bind advances_get fun s => advances_ite (advances_pure _) ?_
  refine advances_bind advances_pollPause fun _ => ?_
  refine advances_bind (advances_serviceController _) fun _ => advances_bind advances_get fun s => ?_
  refine advances_ite (advances_pure _) (advances_bind (advances_pollResume _) fun _ => ?_)
  refine advances_bind advances_pollRecover fun _ => ?_
  refine advances_bind (advances_pollPort 0) fun _ => advances_bind (advances_pollPort 1) fun _ => ?_
  exact advances_bind advances_get fun _ => advances_pure _

/-! Only the reading of a port at the end of a poll can count a change of it. -/

theorem generation_uhciStop : Keeps Usb.portGeneration (uhciStop id) := by
  refine keeps_bind (keeps_modify fun _ => rfl) fun _ =>
    keeps_bind (keeps_modifyGet fun _ => rfl) fun _ => keeps_ite ?_ (keeps_pure _)
  exact keeps_bind (keeps_modify fun _ => rfl) fun _ s a t h =>
    absurd h (by simp [kpanic, StateT.run])

theorem generation_armInterrupt : Keeps Usb.portGeneration (armInterrupt id) :=
  keeps_bind keeps_get fun _ => keeps_bind (keeps_modify fun _ => rfl) fun _ =>
    keeps_bind (keeps_modify fun _ => rfl) fun _ => keeps_modify fun _ => rfl

theorem generation_endStream : Keeps Usb.portGeneration (endStream id) :=
  keeps_bind keeps_get fun _ => keeps_bind (keeps_modify fun _ => rfl) fun _ =>
    keeps_bind (keeps_modify fun _ => rfl) fun _ => keeps_modify fun _ => rfl

theorem generation_serviceReport (length : ℕ) (fromIrq : Bool) :
    Keeps Usb.portGeneration (serviceReport id length fromIrq) := by
  refine keeps_bind (keeps_modify fun s => by split_ifs <;> rfl) fun _ => ?_
  refine keeps_bind (keeps_modify fun _ => rfl) fun _ => keeps_bind keeps_get fun _ => ?_
  refine keeps_bind (keeps_modify fun _ => rfl) fun _ => ?_
  refine keeps_bind (keeps_bind keeps_get fun _ => keeps_bind (keeps_modify fun _ => rfl) fun _ =>
    keeps_ite (keeps_modify fun _ => rfl) (keeps_modify fun _ => rfl)) fun _ => ?_
  exact keeps_bind (keeps_modify fun _ => rfl) fun _ => generation_armInterrupt

theorem generation_serviceStream (usbsts : ℕ) (fromIrq : Bool) :
    Keeps Usb.portGeneration (serviceStream id usbsts fromIrq) := by
  have hend : ∀ status, Keeps Usb.portGeneration
      (do setStatus id status; usbOut [.interruptQh id false]; endStream id; return true) :=
    fun status => keeps_bind (keeps_modify fun _ => rfl) fun _ =>
      keeps_bind (keeps_modify fun _ => rfl) fun _ =>
      keeps_bind generation_endStream fun _ => keeps_pure _
  refine keeps_bind keeps_get fun c => keeps_bind (keeps_modifyGet fun _ => rfl) fun port => ?_
  refine keeps_bind (keeps_modify fun _ => rfl) fun _ => ?_
  refine keeps_bind (keeps_modifyGet fun _ => rfl) fun td => ?_
  refine keeps_bind (keeps_modify fun _ => rfl) fun _ => keeps_ite (hend _) ?_
  refine keeps_ite (keeps_pure _) (keeps_ite (hend _) (keeps_bind (keeps_modify fun _ => rfl) ?_))
  refine fun _ => keeps_bind keeps_get fun _ => ?_
  refine keeps_ite (keeps_bind generation_endStream fun _ => keeps_pure _) ?_
  exact keeps_bind (generation_serviceReport _ _) fun _ => keeps_pure _

/-- The generation of a port changes only where a port is polled. -/
theorem generation_serviceController (fromIrq : Bool) :
    Keeps Usb.portGeneration (serviceController id fromIrq) := by
  refine keeps_bind keeps_get fun s => keeps_ite (keeps_pure _) ?_
  refine keeps_bind (keeps_modifyGet fun _ => rfl) fun status => ?_
  refine keeps_bind (keeps_modify fun _ => rfl) fun _ => keeps_bind (keeps_modify fun _ => rfl) ?_
  refine fun _ => keeps_ite ?_ (keeps_ite (keeps_pure _) (generation_serviceStream _ _))
  refine keeps_bind (keeps_modify fun _ => rfl) fun _ => keeps_bind ?_ fun _ =>
    keeps_bind (keeps_modify fun _ => rfl) fun _ =>
    keeps_bind generation_endStream fun _ => keeps_pure _
  exact keeps_bind (keeps_modifyGet fun _ => rfl) fun _ => keeps_modify fun _ => rfl

theorem generation_pollPause : Keeps Usb.portGeneration (pollPause id) :=
  keeps_bind keeps_get fun _ => keeps_ite (keeps_pure _) (keeps_bind (keeps_modifyGet fun _ => rfl)
    fun _ => keeps_ite (keeps_bind (keeps_modify fun _ => rfl) fun _ =>
      keeps_bind generation_uhciStop fun _ => keeps_pure _) (keeps_pure _))

/-- A recovery does not count as a change of the port. -/
theorem generation_pollRecover : Keeps Usb.portGeneration (pollRecover id) := by
  refine keeps_bind keeps_get fun s => keeps_ite ?_ (keeps_pure _)
  refine keeps_bind (keeps_modify fun _ => rfl) fun _ => keeps_bind generation_uhciStop fun _ => ?_
  refine keeps_bind (keeps_modify fun _ => rfl) fun _ => keeps_bind (keeps_modify fun _ => rfl) ?_
  refine fun _ => keeps_bind (keeps_modify fun _ => rfl) fun _ => ?_
  refine keeps_bind (keeps_modify fun _ => rfl) fun _ => keeps_bind (keeps_modify fun _ => rfl) ?_
  exact fun _ => keeps_modify fun _ => rfl

/-- The generation of a port after its register has read as `value`. -/
def Usb.noted (s : Usb) (id port value : ℕ) : ℕ :=
  if value &&& 2 = 0 then s.portGeneration id port else (s.portGeneration id port + 1) % 2 ^ 32

/-- A poll of a port counts one more generation exactly when it reads a change of the connection. -/
theorem pollPort_generation (port : ℕ) (v : Usb) : Ensures (pollPort id port) v fun _ t =>
    t.portGeneration id = Function.update (v.portGeneration id) port
      (v.noted id port (v.hw v.time (.port id port) % 2 ^ 16)) := by
  refine ensures_modifyGet_bind (ensures_modify_bind (ensures_modify_bind ?_))
  have hnoted : ∀ w : Usb, w.portGeneration = (if v.answer (.port id port) &&& 2 = 0 then
        v.portGeneration else Function.update v.portGeneration id (Function.update
          (v.portGeneration id) port ((v.portGeneration id port + 1) % 2 ^ 32))) →
      w.portGeneration id = Function.update (v.portGeneration id) port
        (v.noted id port (v.hw v.time (.port id port) % 2 ^ 16)) := by
    intro w hw
    have hanswer : v.hw v.time (.port id port) % 2 ^ 16 = v.answer (.port id port) := rfl
    rw [hw, Usb.noted, hanswer]
    split_ifs
    · rw [Function.update_eq_self]
    · rw [Function.update_self]
  refine ensures_ite (fun _ => ensures_pure (hnoted _ ?_)) fun _ => ensures_modify (hnoted _ ?_)
  all_goals
    dsimp only
    split_ifs <;> rfl

/-! When a stream goes on, and what ends it. -/

/-- After its end a stream is not active. -/
theorem endStream_inactive (u : Usb) :
    Ensures (endStream id) u fun _ t => (t.controllers id).active = false := by
  refine ensures_get_bind (ensures_modify_bind (ensures_modify_bind (ensures_modify ?_)))
  simp only [Function.update_self]

theorem pulse_armInterrupt : Keeps (Usb.pulse id) (armInterrupt id) :=
  keeps_bind keeps_get fun _ => keeps_bind (keeps_modify fun _ => rfl) fun _ =>
    keeps_bind (keeps_modify fun _ => rfl) fun _ => keeps_modify fun _ => rfl

/-- The report of a transfer takes no time and does not end the stream. -/
theorem pulse_serviceReport (length : ℕ) (fromIrq : Bool) :
    Keeps (Usb.pulse id) (serviceReport id length fromIrq) := by
  have hinfo : ∀ f : UhciInfo → UhciInfo, (∀ i, (f i).status = i.status) →
      Keeps (Usb.pulse id) (modifyInfo id f) := fun f hf =>
    keeps_modify fun s => by simp only [Usb.pulse, Function.update_self, hf]
  have hcontroller : ∀ f : UhciController → UhciController,
      (∀ c, (f c).active = c.active) → (∀ c, (f c).port = c.port) →
      Keeps (Usb.pulse id) (modifyController id f) := fun f hf hf' =>
    keeps_modify fun s => by simp only [Usb.pulse, Function.update_self, hf, hf']
  refine keeps_bind (keeps_modify fun s => by split_ifs <;> rfl) fun _ => ?_
  refine keeps_bind (hinfo _ fun _ => rfl) fun _ => keeps_bind keeps_get fun _ => ?_
  refine keeps_bind (keeps_modify fun _ => rfl) fun _ => ?_
  refine keeps_bind (keeps_bind keeps_get fun _ => keeps_bind (keeps_modify fun _ => rfl) fun _ =>
    keeps_ite ?_ ?_) fun _ => ?_
  · exact hcontroller _ (fun _ => rfl) fun _ => rfl
  · exact hinfo _ fun _ => rfl
  · refine keeps_bind (hcontroller _ ?_ ?_) fun _ => pulse_armInterrupt
    · exact fun _ => rfl
    · exact fun _ => rfl

/-- A stream that survives has seen its port connected and enabled. -/
theorem serviceStream_alive (usbsts : ℕ) (fromIrq : Bool) {v : Usb}
    (hready : (v.info id).status = uhciReady) :
    Ensures (serviceStream id usbsts fromIrq) v fun _ t => (t.controllers id).active = true →
      (t.info id).status = uhciReady ∧ v.time < t.time ∧
        v.answer (.port id (v.controllers id).port) &&& 5 = 5 := by
  have hend : ∀ (u : Usb) (Q : Usb → Prop), Ensures (endStream id >>= fun _ => pure true) u
      fun _ t => (t.controllers id).active = true → Q t := fun u Q =>
    ensures_bind (endStream_inactive u) fun _ t h => ensures_pure fun h' =>
      absurd (h.symm.trans h') Bool.false_ne_true
  refine ensures_get_bind (ensures_modifyGet_bind (ensures_modify_bind ?_))
  refine ensures_modifyGet_bind (ensures_modify_bind ?_)
  dsimp only
  set port := v.answer (.port id (v.controllers id).port) with hport
  refine ensures_ite (fun _ => ensures_modify_bind (ensures_modify_bind (hend _ _))) fun hon => ?_
  have hon' : port &&& 5 = 5 := by
    by_contra hne
    exact hon (Or.inl hne)
  refine ensures_ite (fun _ => ensures_pure fun _ => ?_) fun _ => ?_
  · refine ⟨?_, show v.time < v.time + 1 + 1 by omega, hon'⟩
    simp only [Function.update_self]
    exact hready
  refine ensures_ite (fun _ => ensures_modify_bind (ensures_modify_bind (hend _ _))) fun _ => ?_
  refine ensures_modify_bind (ensures_get_bind (ensures_ite (fun _ => hend _ _) fun _ => ?_))
  refine ensures_bind ((pulse_serviceReport _ _).ensures _) fun _ t hpulse => ensures_pure fun _ => ?_
  simp only [Usb.pulse, Prod.mk.injEq, Function.update_self] at hpulse
  refine ⟨hpulse.2.2.1.trans hready, ?_, hon'⟩
  rw [hpulse.2.1]
  omega

/-- The controller of a stream has answered, at one of the times `P`, with a sign
that its stream is over: its port is not connected and enabled or has changed, or its
transfer has ended with an error. -/
inductive StreamEnds (id : ℕ) (s : Usb) (P : ℕ → Prop) : Prop
  | port (time : ℕ) : P time →
      s.hw time (.port id (s.controllers id).port) % 2 ^ 16 &&& 7 ≠ 5 → StreamEnds id s P
  | transfer (word : ℕ) :
      word = s.td id ∨ (∃ time, P time ∧ word = s.hw time (.interruptTd id) % 2 ^ 32) →
      word &&& uhciActive = 0 → uhciCompletedLength word (s.controllers id).packet < 0 →
      StreamEnds id s P

/-- A sign that ends the stream of a later state is one for the earlier state, too. -/
theorem StreamEnds.earlier {P P' : ℕ → Prop} {t : Usb} (h : StreamEnds id t P) (hhw : t.hw = s.hw)
    (hcontroller : t.controllers id = s.controllers id)
    (htd : t.td id = s.td id ∨ ∃ time, P' time ∧ t.td id = s.hw time (.interruptTd id) % 2 ^ 32)
    (hP : ∀ time, P time → P' time) : StreamEnds id s P' := by
  cases h with
  | port time htime hport =>
    rw [hhw, hcontroller] at hport
    exact .port time (hP time htime) hport
  | transfer word hword hinactive herror =>
    rw [hcontroller] at herror
    refine .transfer word ?_ hinactive herror
    rcases hword with rfl | ⟨time, htime, rfl⟩
    · exact htd
    · exact Or.inr ⟨time, hP time htime, by rw [hhw]⟩

/-- A stream goes on, or there was a sign that it is over. -/
theorem serviceStream_ends (usbsts : ℕ) (fromIrq : Bool) {v : Usb}
    (hactive : (v.controllers id).active = true) (hready : (v.info id).status = uhciReady) :
    Ensures (serviceStream id usbsts fromIrq) v fun _ t => (t.controllers id).active = true ∨
      StreamEnds id v fun time => v.time ≤ time ∧ time < t.time := by
  -- both ends of a stream run the same four commands
  have hend : ∀ (status : ℕ) (w : Usb), v.time + 2 ≤ w.time →
      (∀ t₁, v.time + 2 ≤ t₁ → StreamEnds id v fun time => v.time ≤ time ∧ time < t₁) →
      Ensures (do setStatus id status; usbOut [.interruptQh id false]; endStream id; return true) w
        fun _ t => (t.controllers id).active = true ∨
          StreamEnds id v fun time => v.time ≤ time ∧ time < t.time := by
    intro status w htime hends
    have hlater : Advances
        (do setStatus id status; usbOut [.interruptQh id false]; endStream id; return true) :=
      advances_bind (advances_modify fun _ => rfl) fun _ => advances_bind (advances_usbOut _) fun _ =>
        advances_bind advances_endStream fun _ => advances_pure _
    exact (hlater w).mono fun _ t h => Or.inr (hends t.time (htime.trans h))
  refine ensures_get_bind (ensures_modifyGet_bind (ensures_modify_bind ?_))
  refine ensures_modifyGet_bind (ensures_modify_bind ?_)
  dsimp only
  set port := v.answer (.port id (v.controllers id).port) with hport
  refine ensures_ite (fun hbad => hend _ _ (Nat.le_refl _) fun t₁ ht₁ => ?_) fun _ => ?_
  · -- the register of the port says that the mouse is gone
    refine .port v.time ⟨Nat.le_refl _, by omega⟩ ?_
    show port &&& 7 ≠ 5
    intro hgood
    have hmask : ∀ m, port &&& (7 &&& m) = 5 &&& m := by
      intro m
      rw [← Nat.and_assoc, hgood]
    have h5 : port &&& 5 = 5 := hmask 5
    have h2 : port &&& 2 = 0 := hmask 2
    exact hbad.elim (fun h => h h5) fun h => h h2
  refine ensures_ite (fun _ => ensures_pure (Or.inl hactive)) fun hinactive => ?_
  refine ensures_ite (fun herror => hend _ _ (Nat.le_refl _) fun t₁ ht₁ => ?_) fun _ => ?_
  · -- the transfer has ended with an error
    refine .transfer _ ?_ (not_not.mp hinactive) herror
    split_ifs
    · exact Or.inl rfl
    · exact Or.inr ⟨v.time + 1, ⟨Nat.le_succ _, by omega⟩, rfl⟩
  refine ensures_modify_bind (ensures_get_bind (ensures_ite (fun hnot => ?_) fun _ => ?_))
  · refine absurd ?_ hnot
    simp only [Function.update_self]
    exact hready
  refine ensures_bind ((pulse_serviceReport _ _).ensures _) fun _ t hpulse => ensures_pure (Or.inl ?_)
  simp only [Usb.pulse, Prod.mk.injEq] at hpulse
  exact hpulse.2.2.2.1.trans hactive

/-- A controller with a stream is set up and ready. -/
def StreamReady (id : ℕ) (s : Usb) : Prop :=
  (s.controllers id).active = true →
    (s.controllers id).frames = true ∧ (s.info id).status = uhciReady

/-- At some time from `t₀` on and before `t₁` the port of the stream read as
connected and enabled. -/
def SeenOn (id port : ℕ) (hw : ℕ → UsbReg → ℕ) (t₀ t₁ : ℕ) : Prop :=
  ∃ t, t₀ ≤ t ∧ t < t₁ ∧ hw t (.port id port) % 2 ^ 16 &&& 5 = 5

/-- A port that was seen in a span of time was seen in a longer one. -/
theorem SeenOn.mono {port : ℕ} {hw : ℕ → UsbReg → ℕ} {t₀ t₀' t₁ t₁' : ℕ}
    (h : SeenOn id port hw t₀ t₁) (h₀ : t₀' ≤ t₀) (h₁ : t₁ ≤ t₁') : SeenOn id port hw t₀' t₁' := by
  obtain ⟨t, ht₀, ht₁, hon⟩ := h
  exact ⟨t, h₀.trans ht₀, Nat.lt_of_lt_of_le ht₁ h₁, hon⟩

/-- A stream that is active afterwards was active before. -/
theorem serviceController_alive (fromIrq : Bool) (hs : StreamReady id s) :
    Ensures (serviceController id fromIrq) s fun _ t => (t.controllers id).active = true →
      (s.controllers id).active = true ∧ (t.info id).status = uhciReady ∧
        SeenOn id (s.controllers id).port s.hw s.time t.time := by
  refine ensures_get_bind (ensures_ite (fun h => ensures_pure fun hactive => ?_) fun _ => ?_)
  · obtain ⟨hframes, hready⟩ := hs hactive
    rcases h with h | h
    · exact absurd (h.symm.trans hframes) Bool.false_ne_true
    · exact absurd (h.symm.trans hready) (by decide)
  refine ensures_modifyGet_bind (ensures_modify_bind (ensures_modify_bind ?_))
  dsimp only
  refine ensures_ite (fun _ => ensures_modify_bind ?_) fun _ => ?_
  · refine ensures_bind (keeps_pciDisableInterrupt |>.ensures _) fun _ _ _ => ?_
    exact ensures_modify_bind (ensures_bind (endStream_inactive _) fun _ t h =>
      ensures_pure fun h' => absurd (h.symm.trans h') Bool.false_ne_true)
  refine ensures_ite (fun h => ensures_pure fun h' => ?_) fun hactive => ?_
  · exact absurd (h.symm.trans h') Bool.false_ne_true
  rw [Bool.not_eq_false] at hactive
  refine (serviceStream_alive _ _ ?_).mono ?_
  · simp only [Function.update_self]
    split_ifs <;> exact (hs hactive).2
  · intro _ t h halive
    obtain ⟨hready, htime, hon⟩ := h halive
    exact ⟨hactive, hready, s.time + 1, Nat.le_succ _, htime, hon⟩

/-- The same of a controller, unless it reports an error. -/
theorem serviceController_ends (fromIrq : Bool) (hs : StreamReady id s)
    (hframes : (s.controllers id).frames = true) (hworks : (s.info id).status ≠ uhciControllerError) :
    Ensures (serviceController id fromIrq) s fun _ t => (t.info id).status = uhciControllerError ∨
      s.hw s.time (.status id) % 2 ^ 16 &&& 0x18 = 0 ∧ s.time < t.time ∧
        ((s.controllers id).active = true → (t.controllers id).active = true ∨
          StreamEnds id s fun time => s.time ≤ time ∧ time < t.time) := by
  refine ensures_get_bind (ensures_ite (fun h => ?_) fun _ => ?_)
  · rcases h with h | h
    · exact absurd (h.symm.trans hframes) Bool.false_ne_true
    · exact absurd h hworks
  refine ensures_modifyGet_bind (ensures_modify_bind (ensures_modify_bind ?_))
  dsimp only
  refine ensures_ite (fun _ => ensures_modify_bind ?_) fun hgood => ?_
  · refine ensures_bind (keeps_pciDisableInterrupt |>.ensures _) fun _ w _ => ?_
    have hstatus : Keeps (fun s : Usb => (s.info id).status) (endStream id) :=
      keeps_bind keeps_get fun _ => keeps_bind (keeps_modify fun _ => rfl) fun _ =>
        keeps_bind (keeps_modify fun _ => rfl) fun _ => keeps_modify fun _ => rfl
    refine ensures_modify_bind (ensures_bind (hstatus.ensures _) fun _ t h => ensures_pure (Or.inl ?_))
    rw [h]
    simp only [Function.update_self]
  replace hgood : s.hw s.time (.status id) % 2 ^ 16 &&& 0x18 = 0 := not_not.mp hgood
  refine ensures_ite (fun hoff => ensures_pure (Or.inr ⟨hgood, Nat.lt_succ_self _, fun h => ?_⟩)) ?_
  · exact absurd (hoff.symm.trans h) Bool.false_ne_true
  intro hactive
  rw [Bool.not_eq_false] at hactive
  refine ((serviceStream_ends _ _ ?_ ?_).and (advances_serviceStream _ _ _)).mono ?_
  · exact hactive
  · simp only [Function.update_self]
    split_ifs <;> exact (hs hactive).2
  · rintro - t ⟨h, hlater⟩
    refine Or.inr ⟨hgood, hlater, fun _ => h.imp_right fun h => ?_⟩
    exact h.earlier rfl rfl (Or.inl rfl) fun time ht => ⟨Nat.le_of_succ_le ht.1, ht.2⟩

/-- The reading of a port at the end of a poll. -/
theorem pollPort_spec (port : ℕ) (v : Usb) : Ensures (pollPort id port) v fun _ t =>
    v.time < t.time ∧ (t.info id).status = (v.info id).status ∧
      (t.info id).portStatus = Function.update (v.info id).portStatus port
        (v.hw v.time (.port id port) % 2 ^ 16) := by
  refine ensures_modifyGet_bind (ensures_modify_bind (ensures_modify_bind ?_))
  have hread : ∀ w : Usb, w.time = v.time + 1 →
      w.info = Function.update v.info id { v.info id with
        portStatus := Function.update (v.info id).portStatus port (v.answer (.port id port)) } →
      v.time < w.time ∧ (w.info id).status = (v.info id).status ∧
        (w.info id).portStatus = Function.update (v.info id).portStatus port
          (v.hw v.time (.port id port) % 2 ^ 16) := by
    intro w htime hinfo
    rw [htime, hinfo, Function.update_self]
    exact ⟨Nat.lt_succ_self _, rfl, rfl⟩
  refine ensures_ite (fun _ => ensures_pure (hread _ ?_ ?_)) fun _ => ensures_modify (hread _ ?_ ?_)
  all_goals
    dsimp only
    split_ifs <;> rfl

/-- A stream that survives a poll has seen its port connected. -/
structure Alive (id : ℕ) (s t : Usb) : Prop where
  before : (s.controllers id).active = true
  ready : (t.info id).status = uhciReady
  seen : SeenOn id (s.controllers id).port s.hw s.time t.time

/-- A controller that is ready after a poll: it has reported no error, both ports
have been read, and there was a sign when the stream has ended. -/
structure Polled (id : ℕ) (s t : Usb) : Prop where
  works : (s.info id).status ≠ uhciControllerError
  sound : ∃ τ, s.time ≤ τ ∧ τ < t.time ∧ s.hw τ (.status id) % 2 ^ 16 &&& 0x18 = 0
  read : ∀ p ≤ 1, ∃ τ, s.time ≤ τ ∧ τ < t.time ∧
    (t.info id).portStatus p = s.hw τ (.port id p) % 2 ^ 16 ∧
    t.portGeneration id p = s.noted id p (s.hw τ (.port id p) % 2 ^ 16)
  ended : (s.controllers id).active = true → (t.controllers id).active = true ∨
    StreamEnds id s fun time => s.time ≤ time ∧ time < t.time

/-- **A poll of one controller.** -/
theorem pollController_alive (hs : StreamReady id s) :
    Ensures (pollController id) s fun a t => a = (t.controllers id).active ∧
      ((t.controllers id).active = true → Alive id s t) ∧
      ((s.controllers id).frames = true → (t.info id).status = uhciReady → Polled id s t) := by
  refine ensures_get_bind (ensures_ite (fun h => ensures_pure ?_) fun hruns => ?_)
  · have hoff : (s.controllers id).active = false := by
      by_contra hactive
      rw [Bool.not_eq_false] at hactive
      obtain ⟨hframes, hready⟩ := hs hactive
      rcases h with h | h
      · exact absurd (h.symm.trans hframes) Bool.false_ne_true
      · exact absurd (h.symm.trans hready) (by decide)
    rw [hoff]
    refine ⟨rfl, fun h => absurd h Bool.false_ne_true, fun hframes hready => ?_⟩
    rcases h with h | h
    · exact absurd (h.symm.trans hframes) Bool.false_ne_true
    · exact absurd (h.symm.trans hready) (by decide)
  -- the pause reads only the descriptor
  have htd : Ensures (pollPause id) s fun _ t => t.td id = s.td id ∨ ∃ time,
      (s.time ≤ time ∧ time < t.time) ∧ t.td id = s.hw time (.interruptTd id) % 2 ^ 32 := by
    have hstop : Keeps Usb.td (uhciStop id) := by
      refine keeps_bind (keeps_modify fun _ => rfl) fun _ =>
        keeps_bind (keeps_modifyGet fun _ => rfl) fun _ => keeps_ite ?_ (keeps_pure _)
      exact keeps_bind (keeps_modify fun _ => rfl) fun _ s a t h =>
        absurd h (by simp [kpanic, StateT.run])
    have hread : ∀ w : Usb, s.time < w.time → w.td = Function.update s.td id
        (if s.td id &&& uhciActive = 0 then s.td id else s.answer (.interruptTd id)) →
        w.td id = s.td id ∨ ∃ time, (s.time ≤ time ∧ time < w.time) ∧
          w.td id = s.hw time (.interruptTd id) % 2 ^ 32 := by
      intro w hlater hw
      rw [hw, Function.update_self]
      split_ifs
      · exact Or.inl rfl
      · exact Or.inr ⟨s.time, ⟨Nat.le_refl _, hlater⟩, rfl⟩
    refine ensures_get_bind (ensures_ite (fun _ => ensures_pure (Or.inl rfl)) fun _ => ?_)
    refine ensures_modifyGet_bind (ensures_ite (fun _ => ensures_modify_bind ?_) fun _ => ?_)
    · refine ensures_bind ((hstop.ensures _).and (advances_uhciStop _)) fun _ t h => ensures_pure ?_
      exact hread t (Nat.lt_of_lt_of_le (Nat.lt_succ_self _) h.2) h.1
    · exact ensures_pure (hread _ (Nat.lt_succ_self _) rfl)
  have hpause : Ensures (pollPause id) s fun _ t => s.time ≤ t.time ∧ t.hw = s.hw ∧
      t.info = s.info ∧ t.controllers = s.controllers := by
    have hstop : Keeps (fun s : Usb => (s.hw, s.info, s.controllers)) (uhciStop id) := by
      refine keeps_bind (keeps_modify fun _ => rfl) fun _ =>
        keeps_bind (keeps_modifyGet fun _ => rfl) fun _ => keeps_ite ?_ (keeps_pure _)
      exact keeps_bind (keeps_modify fun _ => rfl) fun _ s a t h =>
        absurd h (by simp [kpanic, StateT.run])
    have hkeeps : Keeps (fun s : Usb => (s.hw, s.info, s.controllers)) (pollPause id) := by
      refine keeps_bind keeps_get fun _ => keeps_ite (keeps_pure _)
        (keeps_bind (keeps_modifyGet fun _ => rfl) fun _ => keeps_ite ?_ (keeps_pure _))
      exact keeps_bind (keeps_modify fun _ => rfl) fun _ => keeps_bind hstop fun _ => keeps_pure _
    refine ((advances_pollPause s).and (hkeeps.ensures s)).mono ?_
    rintro - t ⟨htime, heq⟩
    simp only [Prod.mk.injEq] at heq
    exact ⟨htime, heq⟩
  refine ensures_bind (hpause.and (htd.and (generation_pollPause.ensures s))) ?_
  rintro paused s₁ ⟨⟨ht₁, hhw₁, hinfo₁, hcontrollers₁⟩, htd₁, hgeneration₁⟩
  have hs₁ : StreamReady id s₁ := by
    rw [StreamReady, hinfo₁, hcontrollers₁]
    exact hs
  have hends := serviceController_ends false hs₁
    (by rw [hcontrollers₁]; exact Bool.not_eq_false _ ▸ fun h => hruns (Or.inl h))
    (by rw [hinfo₁]; exact fun h => hruns (Or.inr h))
  refine ensures_bind (((calm_serviceController false).ensures s₁).and
    ((advances_serviceController false s₁).and ((serviceController_alive false hs₁).and
      (hends.and ((generation_serviceController false).ensures s₁))))) ?_
  rintro - s₂ ⟨hcalm₂, ht₂, halive₂, hends₂, hgeneration₂⟩
  have hhw₂ : s₂.hw = s.hw := (congrArg Prod.fst hcalm₂).trans hhw₁
  rw [hcontrollers₁, hhw₁] at halive₂
  refine ensures_get_bind (ensures_ite (fun herror => ensures_pure ?_) fun hnoError => ?_)
  · have hoff : (s₂.controllers id).active = false := by
      by_contra hactive
      rw [Bool.not_eq_false] at hactive
      exact absurd ((halive₂ hactive).2.1.symm.trans herror) (by decide)
    rw [hoff]
    exact ⟨rfl, fun h => absurd h Bool.false_ne_true,
      fun _ h => absurd (h.symm.trans herror) (by decide)⟩
  have hresume : Keeps (fun s : Usb => (s.info, s.portGeneration)) (pollResume id paused) :=
    keeps_bind keeps_get fun _ => keeps_modify fun _ => rfl
  refine ensures_bind (((frame_pollResume paused).toFrame.ensures s₂).and
    ((advances_pollResume paused s₂).and (hresume.ensures s₂))) ?_
  rintro - s₂' ⟨hframe₂, ht₂', hkept₂⟩
  obtain ⟨hinfo₂, hgeneration₂'⟩ := Prod.mk.inj hkept₂
  -- a ready controller needs no recovery
  have hrecover : Ensures (pollRecover id) s₂' fun _ t =>
      (s₂'.info id).status = uhciReady → t.info = s₂'.info := by
    refine ensures_get_bind (ensures_ite (fun h => ?_) fun _ => ensures_pure fun _ => rfl)
    intro a t _ hready
    rw [hready] at h
    exact absurd h (by decide)
  refine ensures_bind ((frame_pollRecover.ensures s₂').and ((advances_pollRecover s₂').and
    (hrecover.and (generation_pollRecover.ensures s₂')))) ?_
  rintro - s₃ ⟨hframe₃, ht₃, hinfo₃, hgeneration₃⟩
  rw [hinfo₂] at hinfo₃
  replace hframe₃ := hframe₃.trans hframe₂
  refine ensures_bind (((frame_pollPort 0).ensures s₃).and
    ((pollPort_spec 0 s₃).and (pollPort_generation 0 s₃))) ?_
  rintro - s₄ ⟨hframe₄, ⟨ht₄, hstatus₄, hports₄⟩, hgeneration₄⟩
  refine ensures_bind (((frame_pollPort 1).ensures s₄).and
    ((pollPort_spec 1 s₄).and (pollPort_generation 1 s₄))) ?_
  rintro - s₅ ⟨hframe₅, ⟨ht₅, hstatus₅, hports₅⟩, hgeneration₅⟩
  have hframe : s₅.frame id = s₂.frame id := hframe₅.trans (hframe₄.trans hframe₃)
  have hactive₂ : (s₅.controllers id).active = (s₂.controllers id).active :=
    congrArg (fun v => v.2.1) (@around_of_frame id 0 _ _ hframe).2.1
  have hhw₃ : s₃.hw = s.hw := (congrArg Prod.fst hframe₃).trans hhw₂
  have hhw₄ : s₄.hw = s.hw := (congrArg Prod.fst hframe₄).trans hhw₃
  obtain ⟨hsound, hlater, hends₃⟩ := hends₂.resolve_left hnoError
  refine ensures_get_bind (ensures_pure ⟨rfl, fun hactive => ?_, fun _ _ =>
    ⟨fun h => hruns (Or.inr h), ⟨s₁.time, ht₁, by omega, hhw₁ ▸ hsound⟩, ?_, ?_⟩⟩)
  · obtain ⟨hbefore, hready, hseen⟩ := halive₂ (hactive₂.symm.trans hactive)
    refine ⟨hbefore, ?_, hseen.mono ht₁ (by omega)⟩
    rw [hstatus₅, hstatus₄, hinfo₃ hready, hready]
  · -- the last readings of the ports are those of `pollPort`
    have hgeneration : s₃.portGeneration = s.portGeneration :=
      hgeneration₃.trans (hgeneration₂'.trans (hgeneration₂.trans hgeneration₁))
    intro p hp
    rcases Nat.le_one_iff_eq_zero_or_eq_one.mp hp with rfl | rfl
    · refine ⟨s₃.time, by omega, by omega, ?_, ?_⟩
      · rw [hports₅, Function.update_of_ne (by decide), hports₄, Function.update_self, hhw₃]
      · rw [hgeneration₅, Function.update_of_ne (by decide), hgeneration₄, Function.update_self,
          Usb.noted, Usb.noted, hgeneration, hhw₃]
    · refine ⟨s₄.time, by omega, by omega, ?_, ?_⟩
      · rw [hports₅, Function.update_self, hhw₄]
      · rw [hgeneration₅, Function.update_self, Usb.noted, Usb.noted, hgeneration₄,
          Function.update_of_ne (by decide), hgeneration, hhw₄]
  · intro hactive
    rcases hends₃ (by rw [hcontrollers₁]; exact hactive) with h | h
    · exact Or.inl (hactive₂.trans h)
    · refine Or.inr (h.earlier hhw₁ (by rw [hcontrollers₁]) ?_ fun time ht => ⟨by omega, by omega⟩)
      rcases htd₁ with h | ⟨time, ht, h⟩
      · exact Or.inl h
      · exact Or.inr ⟨time, ⟨ht.1, by omega⟩, h⟩

end Poll

end VirtualKernel
