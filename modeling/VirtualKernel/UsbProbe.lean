/-
Probes of the mouse ports.

The programs of the host work on one controller and leave the streams and the
records alone (`Usb.frame`); the requests of a probe also leave the readings of
the ports alone (`Usb.full`).  `usbMouseProbePort_spec`: a probe starts a stream
on its port and says so in the record of the port, or changes nothing but this
record, which then does not say STREAMING.
-/
import VirtualKernel.UsbMouse

namespace VirtualKernel

open Lib

/-! ### Frames -/

/-- The state of the other controllers. -/
def Usb.away (id : ℕ) (s : Usb) (x : { x : ℕ // x ≠ id }) :
    UhciInfo × UhciController × (ℕ → UsbMousePort) × (ℕ → Hotplug) × (ℕ → ℕ) × ℕ :=
  (s.info x, s.controllers x, s.mousePort x, s.hotplug x, s.portGeneration x, s.td x)

/-- What a controller says about its stream. -/
def Usb.stream (id : ℕ) (s : Usb) : Bool × Bool × ℕ :=
  ((s.controllers id).frames, (s.controllers id).active, (s.controllers id).port)

/-- What the programs of the host on controller `id` leave alone. -/
def Usb.frame (id : ℕ) (s : Usb) :=
  (s.hw, (s.initialized, s.ticksPerMs), s.away id, s.stream id, s.mousePort id, s.hotplug id)

/-- The same with the last readings of its ports. -/
def Usb.full (id : ℕ) (s : Usb) := (s.frame id, (s.info id).portStatus)

section Frame

variable {id port : ℕ}

theorem Lib.Keeps.toFrame {α : Type} {m : UsbM α} (h : Keeps (Usb.full id) m) :
    Keeps (Usb.frame id) m := h.comp Prod.fst

theorem keeps_usbIn (r : UsbReg) : Keeps (Usb.full id) (usbIn r) :=
  keeps_modifyGet fun _ => rfl

theorem away_td (s : Usb) (word : ℕ) :
    Usb.away id { s with td := Function.update s.td id word } = Usb.away id s := by
  funext x
  simp only [Usb.away, Function.update_of_ne x.2]

theorem keeps_readTd : Keeps (Usb.full id) (readTd id) := by
  refine keeps_modifyGet fun s => ?_
  exact Prod.ext (Prod.ext rfl (Prod.ext rfl (Prod.ext (away_td s _) rfl))) rfl

theorem keeps_writeTd (word : ℕ) : Keeps (Usb.full id) (writeTd id word) := by
  refine keeps_modify fun s => ?_
  exact Prod.ext (Prod.ext rfl (Prod.ext rfl (Prod.ext (away_td s _) rfl))) rfl

theorem keeps_usbOut (events : List UsbEvent) : Keeps (Usb.full id) (usbOut events) :=
  keeps_modify fun _ => rfl

theorem keeps_outPort (value : ℕ) : Keeps (Usb.full id) (outPort id port value) := keeps_usbOut _

theorem keeps_modifyInfo (f : UhciInfo → UhciInfo) : Keeps (Usb.frame id) (modifyInfo id f) := by
  refine keeps_modify fun s => ?_
  have haway : Usb.away id { s with info := Function.update s.info id (f (s.info id)) } =
      Usb.away id s := by
    funext x
    simp only [Usb.away, Function.update_of_ne x.2]
  rw [Usb.frame, haway]
  rfl

theorem keeps_setPortStatus (value : ℕ) : Keeps (Usb.frame id) (setPortStatus id port value) :=
  keeps_modifyInfo _

theorem keeps_setStatus (status : ℕ) : Keeps (Usb.full id) (setStatus id status) := by
  have hports : Keeps (fun s : Usb => (s.info id).portStatus) (setStatus id status) :=
    keeps_modify fun s => by simp only [Function.update_self]
  exact fun s a t h => Prod.ext (keeps_modifyInfo _ s a t h) (hports s a t h)

theorem keeps_reportCallback (event : UsbReport) : Keeps (Usb.full id) (reportCallback id event) :=
  keeps_modify fun _ => rfl

/-- A change of a controller that does not touch its stream. -/
theorem keeps_modifyController {f : UhciController → UhciController}
    (hf : ∀ c, ((f c).frames, (f c).active, (f c).port) = (c.frames, c.active, c.port)) :
    Keeps (Usb.full id) (modifyController id f) := by
  refine keeps_modify fun s => ?_
  have haway : Usb.away id
      { s with controllers := Function.update s.controllers id (f (s.controllers id)) } =
      Usb.away id s := by
    funext x
    simp only [Usb.away, Function.update_of_ne x.2]
  have hstream : Usb.stream id
      { s with controllers := Function.update s.controllers id (f (s.controllers id)) } =
      Usb.stream id s := by
    simp only [Usb.stream, Function.update_self]
    exact hf _
  rw [Usb.full, Usb.frame, haway, hstream]
  rfl

theorem keeps_kpanic {α : Type} : Keeps (Usb.full id) (kpanic : UsbM α) :=
  fun s a t h => absurd h (by simp [kpanic, StateT.run])

theorem keeps_uhciStop : Keeps (Usb.full id) (uhciStop id) :=
  keeps_bind (keeps_usbOut _) fun _ => keeps_bind (keeps_usbIn _) fun _ =>
    keeps_ite (keeps_bind (keeps_usbOut _) fun _ => keeps_kpanic) (keeps_pure _)

theorem keeps_armInterrupt : Keeps (Usb.full id) (armInterrupt id) :=
  keeps_bind keeps_get fun _ => keeps_bind (keeps_usbOut _) fun _ =>
    keeps_bind (keeps_writeTd _) fun _ => keeps_usbOut _

theorem keeps_pciDisableInterrupt : Keeps (Usb.full id) (pciDisableInterrupt id) :=
  keeps_bind (keeps_usbIn _) fun _ => keeps_usbOut _

theorem keeps_controlPacket (pid address low toggle length : ℕ) :
    Keeps (Usb.full id) (controlPacket id pid address low toggle length) := by
  refine keeps_bind keeps_uhciStop fun _ => keeps_bind (keeps_usbOut _) fun _ => ?_
  refine keeps_bind (keeps_usbIn _) fun _ => keeps_bind keeps_uhciStop fun _ => ?_
  refine keeps_bind (keeps_usbIn _) fun _ => keeps_ite ?_ ?_
  · exact keeps_bind (keeps_setStatus _) fun _ => keeps_bind keeps_pciDisableInterrupt fun _ =>
      keeps_bind (keeps_usbOut _) fun _ => keeps_pure _
  · exact keeps_bind (keeps_usbOut _) fun _ => keeps_pure _

theorem keeps_controlData (address low packet length : ℕ) (isIn : Bool) :
    ∀ (fuel received toggle : ℕ) (data : ℕ → ℕ), Keeps (Usb.full id)
      (controlData id address low packet length isIn fuel received toggle data)
  | 0, _, _, _ => keeps_pure _
  | fuel + 1, received, toggle, data => by
    rw [controlData]
    refine keeps_ite (keeps_pure _) (keeps_bind (keeps_usbOut _) fun _ => ?_)
    refine keeps_bind (keeps_controlPacket _ _ _ _ _) fun actual => ?_
    refine keeps_ite (keeps_pure _) (keeps_bind keeps_get fun s => ?_)
    exact keeps_ite (keeps_pure _) (keeps_controlData address low packet length isIn fuel _ _ _)

theorem keeps_controlStages (address low packet : ℕ) (setup data : ℕ → ℕ) :
    Keeps (Usb.full id) (controlStages id address low packet setup data) := by
  refine keeps_bind (keeps_controlPacket _ _ _ _ _) fun r => keeps_ite (keeps_pure _) ?_
  refine keeps_bind (keeps_controlData _ _ _ _ _ _ _ _ _) fun r => ?_
  rcases r with ⟨_ | received, data⟩
  · exact keeps_pure _
  · exact keeps_bind (keeps_controlPacket _ _ _ _ _) fun _ => keeps_ite (keeps_pure _) (keeps_pure _)

theorem keeps_usbUhciControl (address low packet : ℕ) (setup data : ℕ → ℕ) :
    Keeps (Usb.full id) (usbUhciControl id address low packet setup data) := by
  refine keeps_bind keeps_get fun s => keeps_ite (keeps_pure _) ?_
  refine keeps_bind (keeps_usbOut _) fun _ => ?_
  refine keeps_bind (keeps_controlStages _ _ _ _ _) fun result => keeps_bind keeps_get fun _ => ?_
  exact keeps_bind (keeps_usbOut _) fun _ => keeps_pure _

theorem keeps_usbRequest (address low packet type operation value index length : ℕ)
    (data : ℕ → ℕ) :
    Keeps (Usb.full id) (usbRequest id address low packet type operation value index length data) :=
  keeps_usbUhciControl _ _ _ _ _

theorem keeps_usbUhciDisablePort : Keeps (Usb.frame id) (usbUhciDisablePort id port) :=
  keeps_bind keeps_get fun _ => keeps_ite (keeps_pure _) (keeps_bind (keeps_usbIn _).toFrame fun _ =>
    keeps_bind (keeps_outPort _).toFrame fun _ => keeps_bind (keeps_usbIn _).toFrame fun _ =>
      keeps_setPortStatus _)

end Frame

/-! ### Probes -/

/-- What a probe of a port leaves alone even when it succeeds. -/
def Usb.around (id port : ℕ) (s : Usb) :=
  (s.hw, (s.initialized, s.ticksPerMs), s.away id, (s.controllers id).frames,
    fun x : { x : ℕ // x ≠ port } => s.mousePort id x, s.hotplug id)

/-- A probe that has not started a stream; `on` says that the port has been
seen connected and enabled. -/
structure Probing (id port : ℕ) (s : Usb) (on : Bool) (t : Usb) : Prop where
  around : t.around id port = s.around id port
  stream : t.stream id = s.stream id
  record : (t.mousePort id port).status ≠ usbMouseStreaming
  port_on : on = true → (t.info id).portStatus port &&& 5 = 5
  beside : ∀ p ≠ port, (t.info id).portStatus p = (s.info id).portStatus p

/-- A probe that has started a stream. -/
structure Started (id port : ℕ) (s t : Usb) : Prop where
  around : t.around id port = s.around id port
  active : (t.controllers id).active = true
  port_eq : (t.controllers id).port = port
  ready : (t.info id).status = uhciReady
  record : (t.mousePort id port).status = usbMouseStreaming
  port_on : (t.info id).portStatus port &&& 5 = 5
  beside : ∀ p ≠ port, (t.info id).portStatus p = (s.info id).portStatus p

/-- The outcome of a probe. -/
def Probed (id port : ℕ) (s : Usb) (ok : Bool) (t : Usb) : Prop :=
  (ok = true → Started id port s t) ∧ (ok = false → Probing id port s false t)

section Probe

variable {id port : ℕ} {s u : Usb} {on : Bool}

theorem around_of_frame {t : Usb} (h : t.frame id = u.frame id) :
    t.around id port = u.around id port ∧ t.stream id = u.stream id ∧
      t.mousePort id = u.mousePort id ∧ t.hotplug id = u.hotplug id := by
  simp only [Usb.frame, Prod.mk.injEq] at h
  obtain ⟨h1, h2, h3, h4, h5, h6⟩ := h
  have hframes : (t.controllers id).frames = (u.controllers id).frames := congrArg Prod.fst h4
  refine ⟨?_, h4, h5, h6⟩
  simp only [Usb.around, h1, h2, h3, hframes, h5, h6]

/-- The last readings of the other ports. -/
def Usb.portsBeside (id port : ℕ) (s : Usb) (x : { x : ℕ // x ≠ port }) : ℕ :=
  (s.info id).portStatus x

theorem portsBeside_setPortStatus (value : ℕ) :
    Keeps (Usb.portsBeside id port) (setPortStatus id port value) := by
  refine keeps_modify fun u => ?_
  funext x
  simp only [Usb.portsBeside, Function.update_self, Function.update_of_ne x.2]

theorem portsBeside_usbUhciDisablePort :
    Keeps (Usb.portsBeside id port) (usbUhciDisablePort id port) :=
  keeps_bind keeps_get fun _ => keeps_ite (keeps_pure _) (keeps_bind (keeps_modifyGet fun _ => rfl)
    fun _ => keeps_bind (keeps_modify fun _ => rfl) fun _ =>
      keeps_bind (keeps_modifyGet fun _ => rfl) fun _ => portsBeside_setPortStatus _)

/-- Where only the reading of its port changes, a probe has still not started a
stream. -/
theorem Probing.frame {α : Type} {m : UsbM α} (P : Probing id port s on u)
    (hm : Keeps (Usb.frame id) m) (hbeside : Keeps (Usb.portsBeside id port) m) :
    Ensures m u fun _ t => Probing id port s false t := by
  refine ((hm.ensures u).and (hbeside.ensures u)).mono ?_
  rintro a t ⟨hframe, hports⟩
  obtain ⟨haround, hstream, hrecords, -⟩ := around_of_frame hframe
  refine ⟨haround.trans P.around, hstream.trans P.stream, ?_, fun h => absurd h Bool.false_ne_true,
    fun p hp => (congrFun hports ⟨p, hp⟩).trans (P.beside p hp)⟩
  rw [hrecords]
  exact P.record

/-- The programs of the host keep a probe going. -/
theorem Probing.keeps {α : Type} {m : UsbM α} (P : Probing id port s on u)
    (hm : Keeps (Usb.full id) m) : Ensures m u fun _ t => Probing id port s on t := by
  have hbeside : Keeps (Usb.portsBeside id port) m := hm.comp fun v (x : { x : ℕ // x ≠ port }) => v.2 x
  refine ((P.frame hm.toFrame hbeside).and (hm.ensures u)).mono ?_
  rintro a t ⟨P', hfull⟩
  have hports : (t.info id).portStatus = (u.info id).portStatus := congrArg Prod.snd hfull
  exact ⟨P'.around, P'.stream, P'.record, by rw [hports]; exact P.port_on, P'.beside⟩

theorem around_setMousePort (f : UsbMousePort → UsbMousePort) :
    Keeps (Usb.around id port) (setMousePort id port f) := by
  refine keeps_modify fun u => ?_
  dsimp only
  rw [Usb.around, Usb.around]
  refine Prod.ext rfl (Prod.ext rfl (Prod.ext ?_ (Prod.ext rfl (Prod.ext ?_ rfl))))
  · funext x
    simp only [Usb.away, Function.update_of_ne x.2]
  · funext x
    simp only [Function.update_self, Function.update_of_ne x.2]

theorem setMousePort_record (f : UsbMousePort → UsbMousePort) (u : Usb) :
    Ensures (setMousePort id port f) u fun _ t =>
      t.mousePort id port = f (u.mousePort id port) ∧ t.controllers = u.controllers ∧
        t.info = u.info := by
  refine ensures_modify ⟨?_, rfl, rfl⟩
  simp only [Function.update_self]

theorem Probing.set (P : Probing id port s on u) {f : UsbMousePort → UsbMousePort}
    (hf : (f (u.mousePort id port)).status ≠ usbMouseStreaming) :
    Ensures (setMousePort id port f) u fun _ t => Probing id port s on t := by
  refine (((around_setMousePort f).ensures u).and (setMousePort_record f u)).mono ?_
  rintro - t ⟨haround, hrecord, hcontrollers, hinfo⟩
  refine ⟨haround.trans P.around, ?_, by rw [hrecord]; exact hf, by rw [hinfo]; exact P.port_on,
    by rw [hinfo]; exact P.beside⟩
  rw [← P.stream, Usb.stream, hcontrollers]
  rfl

theorem Probing.stage (P : Probing id port s on u) {status : ℕ} (hs : status ≠ usbMouseStreaming) :
    Ensures (setStage id port status) u fun _ t => Probing id port s on t := P.set hs

theorem Probing.failed (P : Probing id port s on u) :
    Ensures (probeFailed id port) u (Probed id port s) :=
  ensures_bind (P.frame keeps_usbUhciDisablePort portsBeside_usbUhciDisablePort) fun _ _ P =>
    ensures_pure ⟨fun h => absurd h Bool.false_ne_true, fun _ => P⟩

/-- Keep the buffer of the configurations. -/
theorem Probing.buffer (P : Probing id port s on u) (scratch : ℕ → ℕ) :
    Ensures (modify fun s : Usb => { s with configurationBuffer := scratch } : UsbM PUnit) u
      fun _ t => Probing id port s on t :=
  P.keeps (keeps_modify fun _ => rfl)

theorem around_modifyController {f : UhciController → UhciController}
    (hf : ∀ c, (f c).frames = c.frames) : Keeps (Usb.around id port) (modifyController id f) := by
  refine keeps_modify fun u => ?_
  have haway : Usb.away id
      { u with controllers := Function.update u.controllers id (f (u.controllers id)) } =
      Usb.away id u := by
    funext x
    simp only [Usb.away, Function.update_of_ne x.2]
  rw [Usb.around, haway]
  simp only [Usb.around, Function.update_self, hf]

/-- `usb_uhci_start_interrupt` fails, or starts the stream on this port. -/
theorem usbUhciStartInterrupt_spec (P : Probing id port s true u) (address endpoint low packet ms : ℕ) :
    Ensures (usbUhciStartInterrupt id port address endpoint low packet ms) u fun r t =>
      (r = 0 → Probing id port s true t) ∧
        (r ≠ 0 → t.around id port = s.around id port ∧ (t.controllers id).active = true ∧
          (t.controllers id).port = port ∧ (t.info id).status = uhciReady ∧
          (t.info id).portStatus port &&& 5 = 5 ∧
          ∀ p ≠ port, (t.info id).portStatus p = (s.info id).portStatus p) := by
  refine ensures_get_bind (ensures_ite (fun _ => ensures_pure ⟨fun _ => P, fun h => absurd rfl h⟩) ?_)
  intro hpass
  have hready : (u.info id).status = uhciReady := by
    by_contra hne
    exact hpass (by simp [hne])
  refine ensures_modifyGet_bind ?_
  set u₁ : Usb := { u with time := u.time + 1 } with hu₁
  have P₁ : Probing id port s true u₁ := ⟨P.around, P.stream, P.record, P.port_on, P.beside⟩
  dsimp only
  refine ensures_ite (fun _ => ensures_pure ⟨fun _ => P₁, fun h => absurd rfl h⟩) fun _ => ?_
  have hstop : Ensures (uhciStop id) u₁ fun _ t => Probing id port s true t ∧ t.info = u₁.info := by
    refine (P₁.keeps keeps_uhciStop).and ?_
    refine ensures_modifyGet_bind (ensures_ite (fun _ => ensures_none) fun _ => ?_)
    exact ensures_pure rfl
  refine ensures_bind hstop ?_
  rintro - u₂ ⟨P₂, hinfo⟩
  refine ensures_modify_bind (ensures_bind (Q := fun _ t =>
    t.around id port = s.around id port ∧ (t.controllers id).active = true ∧
      (t.controllers id).port = port ∧ t.info = u₁.info) ?_ ?_)
  · refine fun a t hr => ⟨?_, ?_⟩
    · refine (Keeps.ensures (around_modifyController ?_) _ a t hr).trans P₂.around
      exact fun _ => rfl
    · refine ensures_modify (Q := fun _ t => (t.controllers id).active = true ∧
        (t.controllers id).port = port ∧ t.info = u₁.info) ⟨?_, ?_, hinfo⟩ a t hr
      · simp only [Function.update_self]
      · simp only [Function.update_self]
  · rintro - u₃ ⟨haround, hactive, hport, hinfo⟩
    -- the schedule does not touch what the probe is about
    have harm : Keeps Usb.info (armInterrupt id) :=
      keeps_bind keeps_get fun _ => keeps_bind (keeps_modify fun _ => rfl) fun _ =>
        keeps_bind (keeps_modify fun _ => rfl) fun _ => keeps_modify fun _ => rfl
    refine ensures_modify_bind (ensures_modify_bind (ensures_modify_bind ?_))
    refine ensures_bind ((keeps_armInterrupt.toFrame.ensures _).and (harm.ensures _)) ?_
    rintro - u₄ ⟨hframe₄, hinfo₄⟩
    refine ensures_modify_bind (ensures_pure ⟨fun h => absurd h Nat.one_ne_zero, fun _ => ?_⟩)
    obtain ⟨haround₄, hstream₄, -, -⟩ := around_of_frame hframe₄
    simp only [Usb.stream, Prod.mk.injEq] at hstream₄
    refine ⟨haround₄.trans haround, hstream₄.2.1.trans hactive, hstream₄.2.2.trans hport, ?_, ?_, ?_⟩
    · show (u₄.info id).status = uhciReady
      rw [hinfo₄]
      exact (congrArg (fun i => (i id).status) hinfo).trans hready
    · show (u₄.info id).portStatus port &&& 5 = 5
      rw [hinfo₄]
      exact (congrArg (fun i => (i id).portStatus port &&& 5) hinfo).trans (P₁.port_on rfl)
    · intro p hp
      show (u₄.info id).portStatus p = _
      rw [hinfo₄]
      exact (congrArg (fun i => (i id).portStatus p) hinfo).trans (P₁.beside p hp)

theorem probeStart_spec (P : Probing id port s true u) (address low packet : ℕ)
    (interface : UsbMouseInterface) :
    Ensures (probeStart id port address low packet interface) u (Probed id port s) := by
  refine ensures_bind (P.set (show usbMouseControlFailed ≠ _ by decide)) fun _ _ P => ?_
  refine ensures_bind (P.keeps (keeps_usbRequest _ _ _ _ _ _ _ _ _)) fun _ _ P => ?_
  refine ensures_ite (fun _ => P.failed) fun _ => ?_
  refine ensures_bind (P.keeps (keeps_usbRequest _ _ _ _ _ _ _ _ _)) fun _ _ P => ?_
  refine ensures_ite (fun _ => P.failed) fun _ => ?_
  refine ensures_bind (P.keeps (keeps_usbRequest _ _ _ _ _ _ _ _ _)) fun _ _ P => ?_
  refine ensures_bind (P.set (show usbMouseStartFailed ≠ _ by decide)) fun _ _ P => ?_
  refine ensures_bind (usbUhciStartInterrupt_spec P _ _ _ _ _) ?_
  rintro r t ⟨hfail, hstart⟩
  refine ensures_ite (fun hr => (hfail hr).failed) fun hr => ?_
  obtain ⟨haround, hactive, hport, hready, hon, hbeside⟩ := hstart hr
  refine ensures_bind
    (((around_setMousePort _).ensures t).and (setMousePort_record _ t)) ?_
  rintro - t' ⟨haround', hrecord, hcontrollers, hinfo⟩
  refine ensures_pure ⟨fun _ => ?_, fun h => absurd h.symm Bool.false_ne_true⟩
  refine ⟨haround'.trans haround, ?_, ?_, ?_, ?_, ?_, ?_⟩
  · rw [hcontrollers]; exact hactive
  · rw [hcontrollers]; exact hport
  · rw [hinfo]; exact hready
  · rw [hrecord]
  · rw [hinfo]; exact hon
  · rw [hinfo]; exact hbeside

theorem probeConfigurations_spec (address low packet : ℕ) : ∀ (remaining config : ℕ) {u : Usb},
    Probing id port s true u →
    Ensures (probeConfigurations id port address low packet remaining config) u (Probed id port s)
  | 0, config, u, P => by
    rw [probeConfigurations]
    exact ensures_bind (P.stage (by decide)) fun _ _ P => P.failed
  | remaining + 1, config, u, P => by
    rw [probeConfigurations]
    refine ensures_bind (P.stage (by decide)) fun _ _ P => ensures_get_bind ?_
    refine ensures_bind (P.keeps (keeps_usbRequest _ _ _ _ _ _ _ _ _)) fun r _ P => ?_
    refine ensures_bind (P.buffer _) fun _ _ P => ?_
    refine ensures_ite (fun _ => P.failed) fun _ => ?_
    refine ensures_bind (P.stage (by decide)) fun _ _ P => ?_
    refine ensures_ite (fun _ => P.failed) fun _ => ?_
    refine ensures_ite (fun _ => probeConfigurations_spec address low packet remaining _ P) ?_
    intro _
    refine ensures_bind (P.stage (by decide)) fun _ _ P => ?_
    refine ensures_bind (P.keeps (keeps_usbRequest _ _ _ _ _ _ _ _ _)) fun r' _ P => ?_
    refine ensures_bind (P.buffer _) fun _ _ P => ?_
    refine ensures_ite (fun _ => P.failed) fun _ => ?_
    refine ensures_bind (P.stage (by decide)) fun _ _ P => ?_
    split
    · exact P.failed
    · exact probeConfigurations_spec address low packet remaining _ P
    · exact probeStart_spec P _ _ _ _

theorem probeAddress_spec (P : Probing id port s true u) (low packet : ℕ) (device : ℕ → ℕ) :
    Ensures (probeAddress id port low packet device) u (Probed id port s) := by
  refine ensures_bind (P.stage (by decide)) fun _ _ P => ?_
  refine ensures_bind (P.keeps (keeps_usbRequest _ _ _ _ _ _ _ _ _)) fun _ _ P => ?_
  refine ensures_ite (fun _ => P.failed) fun _ => ?_
  refine ensures_bind (P.set P.record) fun _ _ P => ?_
  refine ensures_bind (P.keeps (keeps_usbRequest _ _ _ _ _ _ _ _ _)) fun r _ P => ?_
  refine ensures_ite (fun _ => P.failed) fun _ => ?_
  refine ensures_bind (P.stage (by decide)) fun _ _ P => ?_
  refine ensures_ite (fun _ => P.failed) fun _ => ?_
  refine ensures_bind (P.set (show usbMouseNotSupported ≠ _ by decide)) fun _ _ P => ?_
  refine ensures_ite (fun _ => P.failed) fun _ => ?_
  exact probeConfigurations_spec _ _ _ _ _ P

/-- `usb_uhci_reset_port` finds the port connected and enabled, or fails. -/
theorem usbUhciResetPort_spec (P : Probing id port s false u) :
    Ensures (usbUhciResetPort id port) u fun speed t =>
      Probing id port s false t ∧ (speed ≠ 0 → Probing id port s true t) := by
  have hfail : ∀ {v : Usb}, Probing id port s false v → Ensures (pure 0 : UsbM ℕ) v fun speed t =>
      Probing id port s false t ∧ (speed ≠ 0 → Probing id port s true t) :=
    fun P => ensures_pure ⟨P, fun h => absurd rfl h⟩
  refine ensures_get_bind (ensures_ite (fun _ => hfail P) fun _ => ensures_ite (fun _ => hfail P) ?_)
  intro _
  refine ensures_bind (P.keeps (keeps_usbIn _)) fun _ _ P => ensures_ite (fun _ => hfail P) fun _ => ?_
  refine ensures_bind (P.keeps (keeps_outPort _)) fun _ _ P => ?_
  refine ensures_bind (P.keeps (keeps_usbIn _)) fun _ _ P => ?_
  refine ensures_bind (P.keeps (keeps_outPort _)) fun _ _ P => ?_
  refine ensures_bind (P.keeps (keeps_usbIn _)) fun _ _ P => ?_
  refine ensures_bind (P.keeps (keeps_outPort _)) fun _ _ P => ?_
  refine ensures_bind (P.keeps (keeps_usbIn _)) fun value v P => ?_
  have hset : Ensures (setPortStatus id port value) v fun _ t =>
      (t.info id).portStatus port = value := by
    refine ensures_modify ?_
    simp only [Function.update_self]
  refine ensures_bind
    ((P.frame (keeps_setPortStatus value) (portsBeside_setPortStatus value)).and hset) ?_
  rintro - t ⟨P, hvalue⟩
  refine ensures_pure ⟨P, fun hspeed => ⟨P.around, P.stream, P.record, fun _ => ?_, P.beside⟩⟩
  rw [hvalue]
  by_contra hne
  exact hspeed (if_neg hne)

/-- A probe from the reset of its port on. -/
theorem probeReset_spec (s : Usb) : Ensures (probeReset id port) s (Probed id port s) := by
  have hfirst : Ensures (setMousePort id port
      fun _ => ⟨usbMouseAbsent, 0, 0, 0, 0, ⟨0, 0, 0, 0, 0⟩, 0⟩) s
      fun _ t => Probing id port s false t := by
    refine (((around_setMousePort _).ensures s).and (setMousePort_record _ s)).mono ?_
    rintro - t ⟨haround, hrecord, hcontrollers, hinfo⟩
    refine ⟨haround, ?_, by rw [hrecord]; decide, fun h => absurd h Bool.false_ne_true,
      fun p _ => by rw [hinfo]⟩
    rw [Usb.stream, hcontrollers]
    rfl
  refine ensures_bind hfirst fun _ _ P => ?_
  refine ensures_bind (usbUhciResetPort_spec P) ?_
  rintro speed v ⟨P, hon⟩
  refine ensures_ite (fun _ => P.failed) fun hspeed => ?_
  refine ensures_bind ((hon hspeed).set (show usbMouseControlFailed ≠ _ by decide)) fun _ _ P => ?_
  refine ensures_bind (P.keeps (keeps_usbRequest _ _ _ _ _ _ _ _ _)) fun r _ P => ?_
  refine ensures_ite (fun _ => P.failed) fun _ => ?_
  refine ensures_bind (P.stage (by decide)) fun _ _ P => ?_
  refine ensures_ite (fun _ => P.failed) fun _ => ?_
  exact probeAddress_spec P _ _ _

/-- **`usb_mouse_probe_port`** starts a stream on its port and says so in the
record, or leaves the stream alone and a record that does not say so. -/
theorem usbMouseProbePort_spec (hid : id < uhciControllerCount) (hport : port ≤ 1) (s : Usb) :
    Ensures (usbMouseProbePort id port) s (Probed id port s) := by
  refine ensures_ite (fun h => absurd h (by omega)) fun _ => ensures_modify_bind ?_
  refine ensures_bind (probeReset_spec _) fun ok t h => ensures_modify_bind (ensures_pure ?_)
  refine ⟨fun hok => ?_, fun hok => ?_⟩
  · have S := h.1 hok
    exact ⟨S.around, S.active, S.port_eq, S.ready, S.record, S.port_on, S.beside⟩
  · have P := h.2 hok
    exact ⟨P.around, P.stream, P.record, P.port_on, P.beside⟩

end Probe

end VirtualKernel
