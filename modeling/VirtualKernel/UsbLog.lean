/-
What the USB drivers write to the log.

The programs of the host leave alone what probing is about: the records and entries
of the ports, which controller has a stream, and where its registers are.  `Hushed P`
says so together with the events they add and the time that passes.  A poll or an interrupt does more only
where a stream ends; `PollRule` and `ProbeRule` are the rules for what holds along a
poll and along a probe.

* **`PollRule.poll`**, **`PollRule.interrupt`** — whatever quiet steps and ends of
  streams keep;
* **`ProbeRule.probe`** — whatever the steps of a probe keep, with a different end
  for each of its outcomes.
-/
import VirtualKernel.Lib.History
import VirtualKernel.UsbPoll

namespace VirtualKernel

open Lib

/-! ### Kinds of events -/

/-- The program of the host for controller `id`, without ports and requests. -/
def UsbEvent.ofHost (id : ℕ) : UsbEvent → Bool
  | .command i _ => i = id
  | .status i _ => i = id
  | .interruptEnable i _ => i = id
  | .pciCommand i _ => i = id
  | .interruptToken i _ => i = id
  | .interruptStatus i _ => i = id
  | .interruptQh i _ => i = id
  | .controlQh i _ => i = id
  | .frames i _ => i = id
  | .controlData i _ => i = id
  | .completed i _ => i = id
  | .taken i _ _ => i = id
  | _ => false

/-- Requests, streams and marks of the mouse driver. -/
def UsbEvent.loud : UsbEvent → Bool
  | .controlTd .. => true
  | .started .. => true
  | .ended .. => true
  | .probe .. => true
  | .probed .. => true
  | .booted .. => true
  | .scan .. => true
  | .forgot .. => true
  | .changed .. => true
  | _ => false

/-- What a probe of a port may write. -/
def UsbEvent.ofProbe (id port : ℕ) : UsbEvent → Bool
  | .controlTd i _ _ _ _ _ => i = id
  | .port i p _ => i = id ∧ p = port
  | e => e.ofHost id

/-- The host writes to its own registers, which nobody else listens to. -/
theorem ofHost_quiet {id : ℕ} {e : UsbEvent} (h : e.ofHost id = true) : e.loud = false := by
  cases e with
  | controlTd => cases h
  | started => cases h
  | ended => cases h
  | probe => cases h
  | probed => cases h
  | booted => cases h
  | scan => cases h
  | forgot => cases h
  | changed => cases h
  | _ => rfl

/-- What the host does for a controller may be part of a probe there. -/
theorem ofHost_probe {id : ℕ} (port : ℕ) {e : UsbEvent} (h : e.ofHost id = true) :
    e.ofProbe id port = true := by
  cases e with
  | controlTd => cases h
  | port => cases h
  | _ => exact h

/-! ### Quiet programs -/

/-- Nothing that probing is about has changed, only events with `P` have been
added, and time has gone on. -/
structure Hushed (P : UsbEvent → Prop) (s t : Usb) : Prop where
  adds : Adds Usb.log P s t
  hotplug : t.hotplug = s.hotplug
  mousePort : t.mousePort = s.mousePort
  stream : ∀ id, t.stream id = s.stream id
  ioBase : ∀ id, (t.info id).ioBase = (s.info id).ioBase
  later : s.time ≤ t.time

variable {P Q : UsbEvent → Prop} {α : Type} {m : UsbM α} {id port : ℕ}

/-- Histories are only added to. -/
instance : IsPreorder Usb (Hushed P) where
  refl _ := ⟨adds_of_eq rfl, rfl, rfl, fun _ => rfl, fun _ => rfl, Nat.le_refl _⟩
  trans _ _ _ h h' := ⟨h.adds.trans h'.adds, h'.hotplug.trans h.hotplug,
    h'.mousePort.trans h.mousePort, fun id => (h'.stream id).trans (h.stream id),
    fun id => (h'.ioBase id).trans (h.ioBase id), h.later.trans h'.later⟩

/-- Reading is not an event. -/
theorem hushed_usbIn (r : UsbReg) : Within (Hushed P) (usbIn r) :=
  within_modifyGet fun _ => ⟨adds_of_eq rfl, rfl, rfl, fun _ => rfl, fun _ => rfl, Nat.le_succ _⟩

/-- Every event is allowed that `P` allows. -/
theorem hushed_usbOut {events : List UsbEvent} (h : ∀ e ∈ events, P e) :
    Within (Hushed P) (usbOut events) :=
  within_modify fun _ => ⟨⟨events, rfl, h⟩, rfl, rfl, fun _ => rfl, fun _ => rfl, Nat.le_refl _⟩

theorem hushed_outPort {value : ℕ} (h : P (.port id port value)) :
    Within (Hushed P) (outPort id port value) :=
  hushed_usbOut fun e he => by
    rw [List.mem_singleton.mp he]
    exact h

/-- Of what is known of a controller only its I/O base matters. -/
theorem hushed_modifyInfo {f : UhciInfo → UhciInfo} (hf : ∀ i, (f i).ioBase = i.ioBase) :
    Within (Hushed P) (modifyInfo id f) := by
  refine within_modify fun s => ⟨adds_of_eq rfl, rfl, rfl, fun _ => rfl, fun i => ?_, Nat.le_refl _⟩
  by_cases hi : i = id
  · simp only [hi, Function.update_self, hf]
  · simp only [Function.update_of_ne hi]

theorem hushed_setPortStatus (value : ℕ) : Within (Hushed P) (setPortStatus id port value) :=
  hushed_modifyInfo fun _ => rfl

theorem hushed_setStatus (status : ℕ) : Within (Hushed P) (setStatus id status) :=
  hushed_modifyInfo fun _ => rfl

theorem hushed_modifyController {f : UhciController → UhciController}
    (hf : ∀ c, ((f c).frames, (f c).active, (f c).port) = (c.frames, c.active, c.port)) :
    Within (Hushed P) (modifyController id f) := by
  refine within_modify fun s => ⟨adds_of_eq rfl, rfl, rfl, fun i => ?_, fun _ => rfl, Nat.le_refl _⟩
  by_cases hi : i = id
  · simp only [Usb.stream, hi, Function.update_self, hf]
  · simp only [Usb.stream, Function.update_of_ne hi]

theorem hushed_reportCallback (event : UsbReport) : Within (Hushed P) (reportCallback id event) :=
  within_modify fun _ => ⟨adds_of_eq rfl, rfl, rfl, fun _ => rfl, fun _ => rfl, Nat.le_refl _⟩

section Host

variable (hP : ∀ e : UsbEvent, e.ofHost id = true → P e)

include hP

theorem hushed_host {events : List UsbEvent} (h : ∀ e ∈ events, e.ofHost id = true) :
    Within (Hushed P) (usbOut events) := hushed_usbOut fun e he => hP e (h e he)

/-- The processor reads what the controller has left in the descriptor. -/
theorem hushed_readTd : Within (Hushed P) (readTd id) := by
  refine within_modifyGet fun s => ⟨⟨_, rfl, fun e he => ?_⟩, rfl, rfl, fun _ => rfl, fun _ => rfl,
    Nat.le_succ _⟩
  have hseen : ∀ (c : Prop) [Decidable c] (word : ℕ),
      e ∈ (if c then [UsbEvent.completed id word] else []) → P e := by
    intro c _ word he
    split_ifs at he
    · rw [List.mem_singleton.mp he]
      exact hP _ (decide_eq_true rfl)
    · exact absurd he List.not_mem_nil
  exact hseen _ _ he

theorem hushed_writeTd (word : ℕ) : Within (Hushed P) (writeTd id word) := by
  refine within_modify fun s => ⟨⟨_, rfl, fun e he => ?_⟩, rfl, rfl, fun _ => rfl, fun _ => rfl,
    Nat.le_refl _⟩
  rw [List.mem_singleton.mp he]
  exact hP _ (decide_eq_true rfl)

/-- A controller is stopped by an event of the host. -/
theorem hushed_uhciStop : Within (Hushed P) (uhciStop id) :=
  within_bind (hushed_host hP (by simp [UsbEvent.ofHost])) fun _ =>
    within_bind (hushed_usbIn _) fun _ => within_ite
      (fun _ => within_bind (hushed_host hP (by simp [UsbEvent.ofHost])) fun _ => within_none)
      fun _ => within_pure _

theorem hushed_armInterrupt : Within (Hushed P) (armInterrupt id) :=
  within_bind within_get fun _ => within_bind (hushed_host hP (by simp [UsbEvent.ofHost])) fun _ =>
    within_bind (hushed_writeTd hP _) fun _ => hushed_host hP (by simp [UsbEvent.ofHost])

theorem hushed_pciDisableInterrupt : Within (Hushed P) (pciDisableInterrupt id) :=
  within_bind (hushed_usbIn _) fun _ => hushed_host hP (by simp [UsbEvent.ofHost])

theorem hushed_queueReport (report : UhciReport) : Within (Hushed P) (queueReport id report) :=
  within_bind within_get fun _ => within_bind (hushed_host hP (by simp [UsbEvent.ofHost])) fun _ =>
    within_ite (fun _ => hushed_modifyController fun _ => rfl)
      fun _ => hushed_modifyInfo fun _ => rfl

/-- A report is queued or handed over at once. -/
theorem hushed_serviceReport (length : ℕ) (fromIrq : Bool) :
    Within (Hushed P) (serviceReport id length fromIrq) := by
  refine within_bind (within_modify fun s => ?_) fun _ => ?_
  · split_ifs <;> exact ⟨adds_of_eq rfl, rfl, rfl, fun _ => rfl, fun _ => rfl, Nat.le_refl _⟩
  refine within_bind (hushed_modifyInfo fun _ => rfl) fun _ => within_bind within_get fun _ => ?_
  refine within_bind (hushed_reportCallback _) fun _ => ?_
  refine within_bind (hushed_queueReport hP _) fun _ => ?_
  exact within_bind (hushed_modifyController fun _ => rfl) fun _ => hushed_armInterrupt hP

/-- A poll stops the controller on its way, and starts it again. -/
theorem hushed_pollPause : Within (Hushed P) (pollPause id) :=
  within_bind within_get fun _ => within_ite (fun _ => within_pure _) fun _ =>
    within_bind (hushed_readTd hP) fun _ => within_ite
      (fun _ => within_bind (hushed_host hP (by simp [UsbEvent.ofHost])) fun _ =>
        within_bind (hushed_uhciStop hP) fun _ => within_pure _)
      fun _ => within_pure _

theorem hushed_pollResume (paused : Bool) : Within (Hushed P) (pollResume id paused) := by
  refine within_bind within_get fun _ => hushed_host hP fun e he => ?_
  split_ifs at he
  · simp only [List.mem_cons, List.not_mem_nil, or_false] at he
    rcases he with rfl | rfl <;> exact decide_eq_true rfl
  · exact absurd he List.not_mem_nil

theorem hushed_pollRecover : Within (Hushed P) (pollRecover id) := by
  refine within_bind within_get fun _ => within_ite (fun _ => ?_) fun _ => within_pure _
  refine within_bind (hushed_host hP (by simp [UsbEvent.ofHost])) fun _ => ?_
  refine within_bind (hushed_uhciStop hP) fun _ => ?_
  refine within_bind (hushed_host hP (by simp [UsbEvent.ofHost])) fun _ => ?_
  refine within_bind (hushed_writeTd hP _) fun _ => ?_
  refine within_bind (hushed_modifyController fun _ => rfl) fun _ => ?_
  refine within_bind (hushed_host hP (by simp [UsbEvent.ofHost])) fun _ => ?_
  exact within_bind (hushed_setStatus _) fun _ => hushed_host hP (by simp [UsbEvent.ofHost])

end Host

/-- The routines that write to a port are quiet where `P` allows every write to it. -/
theorem hushed_usbUhciDisablePort (hport : ∀ value, P (.port id port value)) :
    Within (Hushed P) (usbUhciDisablePort id port) :=
  within_bind within_get fun _ => within_ite (fun _ => within_pure _) fun _ =>
    within_bind (hushed_usbIn _) fun _ => within_bind (hushed_outPort (hport _)) fun _ =>
      within_bind (hushed_usbIn _) fun _ => hushed_setPortStatus _

theorem hushed_usbUhciResetPort (hport : ∀ value, P (.port id port value)) :
    Within (Hushed P) (usbUhciResetPort id port) := by
  refine within_bind within_get fun _ => within_ite (fun _ => within_pure _) fun _ => ?_
  refine within_ite (fun _ => within_pure _) fun _ => within_bind (hushed_usbIn _) fun _ => ?_
  refine within_ite (fun _ => within_pure _) fun _ => ?_
  refine within_bind (hushed_outPort (hport _)) fun _ => within_bind (hushed_usbIn _) fun _ => ?_
  refine within_bind (hushed_outPort (hport _)) fun _ => within_bind (hushed_usbIn _) fun _ => ?_
  refine within_bind (hushed_outPort (hport _)) fun _ => within_bind (hushed_usbIn _) fun _ => ?_
  exact within_bind (hushed_setPortStatus _) fun _ => within_pure _

/-- A poll writes back the changes that the port reports. -/
theorem hushed_pollPort (hport : ∀ value, P (.port id port value)) :
    Within (Hushed P) (pollPort id port) := by
  refine within_bind (hushed_usbIn _) fun _ => within_bind (hushed_setPortStatus _) fun _ => ?_
  refine within_bind (within_modify fun s => ?_) fun _ => within_ite (fun _ => within_pure _) ?_
  · dsimp only
    split_ifs <;> exact ⟨adds_of_eq rfl, rfl, rfl, fun _ => rfl, fun _ => rfl, Nat.le_refl _⟩
  · exact fun _ => hushed_outPort (hport _)

/-! ### Requests -/

section Request

variable (hP : ∀ e : UsbEvent, e.ofHost id = true → P e)
  (htd : ∀ pid address low toggle length, P (.controlTd id pid address low toggle length))

include hP htd

theorem hushed_controlPacket (pid address low toggle length : ℕ) :
    Within (Hushed P) (controlPacket id pid address low toggle length) := by
  refine within_bind (hushed_uhciStop hP) fun _ => within_bind (hushed_usbOut fun e he => ?_) fun _ =>
    within_bind (hushed_usbIn _) fun _ => within_bind (hushed_uhciStop hP) fun _ =>
    within_bind (hushed_usbIn _) fun _ => within_ite (fun _ => ?_) fun _ => ?_
  · rcases List.mem_cons.mp he with rfl | he
    · exact htd _ _ _ _ _
    · refine hP e ?_
      simp only [List.mem_cons, List.not_mem_nil, or_false] at he
      rcases he with rfl | rfl <;> exact decide_eq_true rfl
  · exact within_bind (hushed_setStatus _) fun _ => within_bind (hushed_pciDisableInterrupt hP) fun _ =>
      within_bind (hushed_host hP (by simp [UsbEvent.ofHost])) fun _ => within_pure _
  · exact within_bind (hushed_host hP (by simp [UsbEvent.ofHost])) fun _ => within_pure _

/-- The induction is on the packets that are left. -/
theorem hushed_controlData (address low packet length : ℕ) (isIn : Bool) (fuel : ℕ) :
    ∀ (received toggle : ℕ) (data : ℕ → ℕ), Within (Hushed P)
      (controlData id address low packet length isIn fuel received toggle data) := by
  induction fuel with
  | zero => exact fun _ _ _ => within_pure _
  | succ fuel ih =>
    intro received toggle data
    rw [controlData]
    refine within_ite (fun _ => within_pure _) fun _ =>
      within_bind (hushed_host hP fun e he => ?_) fun _ => ?_
    · split_ifs at he
      · exact absurd he List.not_mem_nil
      · rw [List.mem_singleton.mp he]
        exact decide_eq_true rfl
    refine within_bind (hushed_controlPacket hP htd _ _ _ _ _) fun _ => ?_
    refine within_ite (fun _ => within_pure _) fun _ => within_bind within_get fun _ => ?_
    exact within_ite (fun _ => within_pure _) fun _ => ih _ _ _

theorem hushed_controlStages (address low packet : ℕ) (setup data : ℕ → ℕ) :
    Within (Hushed P) (controlStages id address low packet setup data) := by
  refine within_bind (hushed_controlPacket hP htd _ _ _ _ _) fun _ =>
    within_ite (fun _ => within_pure _) fun _ => ?_
  refine within_bind (hushed_controlData hP htd _ _ _ _ _ _ _ _ _) fun r => ?_
  rcases r with ⟨_ | received, data⟩
  · exact within_pure _
  · exact within_bind (hushed_controlPacket hP htd _ _ _ _ _) fun _ =>
      within_ite (fun _ => within_pure _) fun _ => within_pure _

/-- A request adds an event with its address to those of its packets. -/
theorem hushed_usbRequest (address low packet type operation value index length : ℕ)
    (data : ℕ → ℕ) : Within (Hushed P)
      (usbRequest id address low packet type operation value index length data) := by
  refine within_bind within_get fun _ => within_ite (fun _ => within_pure _) fun _ => ?_
  refine within_bind (hushed_host hP (by simp [UsbEvent.ofHost])) fun _ => ?_
  refine within_bind (hushed_controlStages hP htd _ _ _ _ _) fun _ => within_bind within_get fun _ => ?_
  refine within_bind (hushed_host hP fun e he => ?_) fun _ => within_pure _
  split_ifs at he
  · simp only [List.mem_cons, List.not_mem_nil, or_false] at he
    rcases he with rfl | rfl <;> exact decide_eq_true rfl
  · exact absurd he List.not_mem_nil

end Request

/-! ### Polls and interrupts -/

/-- Steps of polls and interrupts: quiet ones and ends of streams. -/
structure PollRule (T : Usb → Usb → Prop) : Prop where
  quiet : ∀ s t, Hushed (fun e => e.loud = false) s t → T s t
  ended : ∀ id, Within T (endStream id)

section PollRule

variable {T : Usb → Usb → Prop} [IsPreorder Usb T]

omit [IsPreorder Usb T] in
/-- What the host does quietly keeps the rule. -/
theorem PollRule.host (R : PollRule T) (h : Within (Hushed fun e => e.loud = false) m) : Within T m :=
  h.mono R.quiet

/-- A stream ends, or goes on. -/
theorem PollRule.serviceStream (R : PollRule T) (usbsts : ℕ) (fromIrq : Bool) :
    Within T (serviceStream id usbsts fromIrq) := by
  have hqh : Within T (usbOut [.interruptQh id false]) :=
    R.host (hushed_host (fun e (h : e.ofHost id = true) => ofHost_quiet h)
      (by simp [UsbEvent.ofHost]))
  have hend : ∀ status, Within T
      (do setStatus id status; usbOut [.interruptQh id false]; endStream id; return true) :=
    fun status => within_bind (R.host (hushed_setStatus status)) fun _ => within_bind hqh fun _ =>
      within_bind (R.ended id) fun _ => within_pure _
  refine within_bind within_get fun c => within_bind (R.host (hushed_usbIn _)) fun _ => ?_
  refine within_bind (R.host (hushed_setPortStatus _)) fun _ => ?_
  refine within_bind (R.host (hushed_readTd fun _ => ofHost_quiet)) fun _ => ?_
  refine within_bind (within_modify fun s => ?_) fun _ => within_ite (fun _ => hend _) fun _ => ?_
  · exact R.quiet _ _ ⟨adds_of_eq rfl, rfl, rfl, fun _ => rfl, fun _ => rfl, Nat.le_refl _⟩
  refine within_ite (fun _ => within_pure _) fun _ => within_ite (fun _ => hend _) fun _ => ?_
  refine within_bind hqh fun _ => within_bind within_get fun _ => within_ite (fun _ => ?_) fun _ => ?_
  · exact within_bind (R.ended id) fun _ => within_pure _
  · exact within_bind (R.host (hushed_serviceReport (fun _ => ofHost_quiet) _ _)) fun _ =>
      within_pure _

/-- Controllers that are not ready are passed over. -/
theorem PollRule.serviceController (R : PollRule T) (fromIrq : Bool) :
    Within T (serviceController id fromIrq) := by
  refine within_bind within_get fun _ => within_ite (fun _ => within_pure _) fun _ => ?_
  refine within_bind (R.host (hushed_usbIn _)) fun _ => within_bind (R.host ?_) fun _ => ?_
  · refine hushed_modifyInfo fun _ => ?_
    split_ifs <;> rfl
  refine within_bind (R.host (hushed_host (fun e (h : e.ofHost id = true) => ofHost_quiet h)
    fun e he => ?_)) fun _ => ?_
  · split_ifs at he
    · exact absurd he List.not_mem_nil
    · rw [List.mem_singleton.mp he]
      exact decide_eq_true rfl
  refine within_ite (fun _ => ?_) fun _ => within_ite (fun _ => within_pure _) fun _ =>
    R.serviceStream _ _
  refine within_bind (R.host (hushed_host (fun e (h : e.ofHost id = true) => ofHost_quiet h)
    (by simp [UsbEvent.ofHost]))) fun _ => ?_
  refine within_bind (R.host (hushed_pciDisableInterrupt fun _ => ofHost_quiet)) fun _ => ?_
  exact within_bind (R.host (hushed_setStatus _)) fun _ => within_bind (R.ended id) fun _ =>
    within_pure _

/-- Recovery, ports and stream of one controller. -/
theorem PollRule.pollController (R : PollRule T) : Within T (pollController id) := by
  refine within_bind within_get fun _ => within_ite (fun _ => within_pure _) fun _ => ?_
  refine within_bind (R.host (hushed_pollPause fun _ => ofHost_quiet)) fun _ => ?_
  refine within_bind (R.serviceController false) fun _ => within_bind within_get fun _ => ?_
  refine within_ite (fun _ => within_pure _) fun _ => ?_
  refine within_bind (R.host (hushed_pollResume (fun _ => ofHost_quiet) _)) fun _ => ?_
  refine within_bind (R.host (hushed_pollRecover fun _ => ofHost_quiet)) fun _ => ?_
  refine within_bind (R.host (hushed_pollPort fun _ => rfl)) fun _ => ?_
  refine within_bind (R.host (hushed_pollPort fun _ => rfl)) fun _ => ?_
  exact within_bind within_get fun _ => within_pure _

/-- **The rule for polls.** -/
theorem PollRule.poll (R : PollRule T) : Within T usbHostPoll := by
  have hcontrollers : ∀ n, Within T (pollControllers n) := by
    intro n
    induction n with
    | zero => exact within_pure _
    | succ n ih => exact within_bind ih fun _ => within_bind R.pollController fun _ => within_pure _
  refine within_bind within_get fun _ => within_ite (fun _ => within_pure _) fun _ => ?_
  refine within_bind (within_modify fun s => ?_) fun _ => hcontrollers _
  exact R.quiet _ _ ⟨adds_of_eq rfl, rfl, rfl, fun _ => rfl, fun _ => rfl, Nat.le_refl _⟩

/-- **The rule for interrupts.** -/
theorem PollRule.interrupt (R : PollRule T) (gsi : ℕ) : Within T (usbHostInterrupt gsi) := by
  have hmodify : ∀ f : Usb → Usb, (∀ s, Hushed (fun e => e.loud = false) s (f s)) →
      Within T (modify f : UsbM PUnit) := fun f hf => within_modify fun s => R.quiet _ _ (hf s)
  have hcontrollers : ∀ n, Within T (interruptControllers gsi n) := by
    intro n
    induction n with
    | zero => exact within_pure _
    | succ n ih =>
      refine within_bind ih fun _ => within_bind within_get fun _ => within_ite (fun _ => ?_) ?_
      · exact within_bind (R.serviceController true) fun _ => within_pure _
      · exact fun _ => within_pure _
  refine within_bind (hcontrollers _) fun _ => within_ite (fun _ => hmodify _ fun _ => ?_) fun _ => ?_
  · exact ⟨adds_of_eq rfl, rfl, rfl, fun _ => rfl, fun _ => rfl, Nat.le_refl _⟩
  refine within_bind within_get fun _ => within_bind (hmodify _ fun _ => ?_) fun _ => ?_
  · exact ⟨adds_of_eq rfl, rfl, rfl, fun _ => rfl, fun _ => rfl, Nat.le_refl _⟩
  refine within_ite (fun _ => within_pure _) fun _ => within_bind (R.host (hushed_usbIn _)) fun _ => ?_
  refine within_bind (R.host (hushed_usbOut fun e he => ?_)) fun _ => hmodify _ fun _ => ?_
  · rw [List.mem_singleton.mp he]
    rfl
  · exact ⟨adds_of_eq rfl, rfl, rfl, fun _ => rfl, fun _ => rfl, Nat.le_refl _⟩

end PollRule

/-! ### Probes -/

/-- A stage of a probe on the way. -/
def Staged (f : UsbMousePort → UsbMousePort) : Prop :=
  ∀ i, i.status ≠ usbMouseNotProbed ∧ i.status ≠ usbMouseStreaming →
    (f i).status ≠ usbMouseNotProbed ∧ (f i).status ≠ usbMouseStreaming

/-- `J` holds along a probe, `J'` after it has started a stream, and `Q` at its
end. -/
structure ProbeRule (id port : ℕ) (J J' : Usb → Prop) (Q : Bool → Usb → Prop) : Prop where
  host : ∀ s t, Hushed (fun e => e.ofProbe id port = true) s t → J s → J t
  record : ∀ s, J s → ∀ f, Staged f → Ensures (setMousePort id port f) s fun _ t => J t
  failed : ∀ s, J s → Ensures (usbUhciDisablePort id port) s fun _ t => Q false t
  start : ∀ s, J s → ∀ address endpoint low packet ms,
    Ensures (usbUhciStartInterrupt id port address endpoint low packet ms) s fun r t =>
      (r = 0 → J t) ∧ (r ≠ 0 → J' t)
  streaming : ∀ s, J' s → Ensures (setStage id port usbMouseStreaming) s fun _ t => Q true t

section ProbeRule

variable {J J' : Usb → Prop} {Q : Bool → Usb → Prop} {s : Usb}

/-- What the probe does through the host keeps its assertion. -/
theorem ProbeRule.keeps (R : ProbeRule id port J J' Q)
    (h : Within (Hushed fun e => e.ofProbe id port = true) m) (hs : J s) :
    Ensures m s fun _ t => J t := (h.ensures s).mono fun _ t ht => R.host s t ht hs

/-- So does a change of the status on the way, before the stream. -/
theorem ProbeRule.stage (R : ProbeRule id port J J' Q) (c : ℕ)
    (hc : c ≠ usbMouseNotProbed ∧ c ≠ usbMouseStreaming) (hs : J s) {f : UsbMousePort → UsbMousePort}
    (hf : ∀ i, (f i).status = c) : Ensures (setMousePort id port f) s fun _ t => J t :=
  R.record s hs f fun i _ => by
    rw [hf i]
    exact hc

/-- Requests are allowed while the port is being probed. -/
theorem ProbeRule.request (R : ProbeRule id port J J' Q) (hs : J s)
    (address low packet type operation value index length : ℕ) (data : ℕ → ℕ) :
    Ensures (usbRequest id address low packet type operation value index length data) s
      fun _ t => J t :=
  R.keeps (hushed_usbRequest (fun _ => ofHost_probe port) (fun _ _ _ _ _ => decide_eq_true rfl)
    _ _ _ _ _ _ _ _ _) hs

/-- Every failure disables the port. -/
theorem ProbeRule.probeFailed (R : ProbeRule id port J J' Q) (hs : J s) :
    Ensures (probeFailed id port) s Q :=
  ensures_bind (R.failed s hs) fun _ _ h => ensures_pure h

theorem ProbeRule.probeStart (R : ProbeRule id port J J' Q) (hs : J s) (address low packet : ℕ)
    (interface : UsbMouseInterface) :
    Ensures (probeStart id port address low packet interface) s Q := by
  refine ensures_bind (R.stage usbMouseControlFailed (by decide) hs fun _ => rfl) fun _ _ hs => ?_
  refine ensures_bind (R.request hs _ _ _ _ _ _ _ _ _) fun _ _ hs => ?_
  refine ensures_ite (fun _ => R.probeFailed hs) fun _ => ?_
  refine ensures_bind (R.request hs _ _ _ _ _ _ _ _ _) fun _ _ hs => ?_
  refine ensures_ite (fun _ => R.probeFailed hs) fun _ => ?_
  refine ensures_bind (R.request hs _ _ _ _ _ _ _ _ _) fun _ _ hs => ?_
  refine ensures_bind (R.stage usbMouseStartFailed (by decide) hs fun _ => rfl) fun _ _ hs => ?_
  refine ensures_bind (R.start _ hs _ _ _ _ _) fun r _ hstart => ?_
  refine ensures_ite (fun h => R.probeFailed (hstart.1 h)) fun h => ?_
  exact ensures_bind (R.streaming _ (hstart.2 h)) fun _ _ h => ensures_pure h

theorem ProbeRule.buffer (R : ProbeRule id port J J' Q) (hs : J s) (scratch : ℕ → ℕ) :
    Ensures (modify fun s : Usb => { s with configurationBuffer := scratch } : UsbM PUnit) s
      fun _ t => J t :=
  R.keeps (within_modify fun _ => ⟨adds_of_eq rfl, rfl, rfl, fun _ => rfl, fun _ => rfl, Nat.le_refl _⟩) hs

/-- The induction is on the configurations that are left. -/
theorem ProbeRule.probeConfigurations (R : ProbeRule id port J J' Q) (address low packet remaining : ℕ) :
    ∀ (config : ℕ) {s : Usb}, J s →
      Ensures (probeConfigurations id port address low packet remaining config) s Q := by
  induction remaining with
  | zero =>
    exact fun _ _ hs => ensures_bind (R.stage usbMouseNotSupported (by decide) hs fun _ => rfl)
      fun _ _ hs => R.probeFailed hs
  | succ remaining ih =>
    intro config s hs
    refine ensures_bind (R.stage usbMouseControlFailed (by decide) hs fun _ => rfl) fun _ _ hs => ?_
    refine ensures_get_bind ?_
    refine ensures_bind (R.request hs _ _ _ _ _ _ _ _ _) fun r _ hs => ?_
    refine ensures_bind (R.buffer hs _) fun _ _ hs => ?_
    refine ensures_ite (fun _ => R.probeFailed hs) fun _ => ?_
    refine ensures_bind (R.stage usbMouseBadDescriptor (by decide) hs fun _ => rfl) fun _ _ hs => ?_
    refine ensures_ite (fun _ => R.probeFailed hs) fun _ => ?_
    refine ensures_ite (fun _ => ih _ hs) fun _ => ?_
    refine ensures_bind (R.stage usbMouseControlFailed (by decide) hs fun _ => rfl) fun _ _ hs => ?_
    refine ensures_bind (R.request hs _ _ _ _ _ _ _ _ _) fun r' _ hs => ?_
    refine ensures_bind (R.buffer hs _) fun _ _ hs => ?_
    refine ensures_ite (fun _ => R.probeFailed hs) fun _ => ?_
    refine ensures_bind (R.stage usbMouseBadDescriptor (by decide) hs fun _ => rfl) fun _ _ hs => ?_
    split
    · exact R.probeFailed hs
    · exact ih _ hs
    · exact R.probeStart hs _ _ _ _

/-- The device has left address 0 when its configurations are read. -/
theorem ProbeRule.probeAddress (R : ProbeRule id port J J' Q) (hs : J s) (low packet : ℕ)
    (device : ℕ → ℕ) : Ensures (probeAddress id port low packet device) s Q := by
  refine ensures_bind (R.stage usbMouseControlFailed (by decide) hs fun _ => rfl) fun _ _ hs => ?_
  refine ensures_bind (R.request hs _ _ _ _ _ _ _ _ _) fun _ _ hs => ?_
  refine ensures_ite (fun _ => R.probeFailed hs) fun _ => ?_
  refine ensures_bind (R.record _ hs _ (fun _ h => h)) fun _ _ hs => ?_
  refine ensures_bind (R.request hs _ _ _ _ _ _ _ _ _) fun r _ hs => ?_
  refine ensures_ite (fun _ => R.probeFailed hs) fun _ => ?_
  refine ensures_bind (R.stage usbMouseBadDescriptor (by decide) hs fun _ => rfl) fun _ _ hs => ?_
  refine ensures_ite (fun _ => R.probeFailed hs) fun _ => ?_
  refine ensures_bind (R.stage usbMouseNotSupported (by decide) hs fun _ => rfl) fun _ _ hs => ?_
  exact ensures_ite (fun _ => R.probeFailed hs) fun _ => R.probeConfigurations _ _ _ _ _ hs

/-- **The rule for probes**, from the reset of the record on. -/
theorem ProbeRule.probe (R : ProbeRule id port J J' Q)
    (hreset : Ensures (setMousePort id port fun _ => ⟨usbMouseAbsent, 0, 0, 0, 0, ⟨0, 0, 0, 0, 0⟩, 0⟩)
      s fun _ t => J t) : Ensures (probeReset id port) s Q := by
  refine ensures_bind hreset fun _ _ hs => ?_
  refine ensures_bind (R.keeps (hushed_usbUhciResetPort fun _ => ?_) hs) fun speed _ hs => ?_
  · exact decide_eq_true ⟨rfl, rfl⟩
  refine ensures_ite (fun _ => R.probeFailed hs) fun _ => ?_
  refine ensures_bind (R.stage usbMouseControlFailed (by decide) hs fun _ => rfl) fun _ _ hs => ?_
  refine ensures_bind (R.request hs _ _ _ _ _ _ _ _ _) fun r _ hs => ?_
  refine ensures_ite (fun _ => R.probeFailed hs) fun _ => ?_
  refine ensures_bind (R.stage usbMouseBadDescriptor (by decide) hs fun _ => rfl) fun _ _ hs => ?_
  exact ensures_ite (fun _ => R.probeFailed hs) fun _ => R.probeAddress hs _ _ _

end ProbeRule

end VirtualKernel
