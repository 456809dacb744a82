/-
The life of a stream.

A controller with a stream is ready, and the mouse driver has the bit of a
controller set exactly while it has a stream (`HostOk`).  Services, polls and the
other calls of the host keep this, so it holds in every run
(`stream_lifecycle`); a controller with a stream refuses requests.
-/
import VirtualKernel.UsbService

namespace VirtualKernel

open Lib

/-! ### The bit of a controller -/

/-- The mouse driver after these calls of `mouse_receive`. -/
def mouseAfter (reported : List (ℕ × UsbReport)) : MouseDriver :=
  reported.foldl (fun d r => mouseReceive d r.1 r.2) mouseDriverInitialize

/-- The bit of a controller in the mouse driver's mask of connected mice. -/
def connectedBit (id : ℕ) (reported : List (ℕ × UsbReport)) : Bool :=
  (mouseAfter reported).shared.connected.testBit id

/-- The calls for controller `id` are in order: a stream is reported as connected
only while its bit is clear, and its data only while the bit is set. -/
def Orderly (id : ℕ) (reported : List (ℕ × UsbReport)) : Prop :=
  ∀ before event after, reported = before ++ (id, event) :: after →
    match event with
    | .connected => connectedBit id before = false
    | .data _ _ => connectedBit id before = true
    | .disconnected => True

section Bit

variable {id c : ℕ} {l : List (ℕ × UsbReport)}

theorem mouseAfter_concat (r : ℕ × UsbReport) :
    mouseAfter (l ++ [r]) = mouseReceive (mouseAfter l) r.1 r.2 := by
  rw [mouseAfter, List.foldl_append]
  rfl

theorem mouseQueueReport_connected (s : MouseShared) (bytes : ℕ → UInt8) (length : ℕ) :
    (mouseQueueReport s c bytes length).connected = s.connected := by
  rw [mouseQueueReport]
  dsimp only
  split_ifs <;> rfl

/-- What one call does to the bit. -/
theorem connectedBit_concat (hid : id < uhciControllerCount) (hc : c < uhciControllerCount)
    (event : UsbReport) : connectedBit id (l ++ [(c, event)]) =
      match event with
      | .connected => connectedBit id l || decide (id = c)
      | .data _ _ => connectedBit id l
      | .disconnected => connectedBit id l && decide (id ≠ c) := by
  have hcount : ¬mouseControllerCount ≤ c := Nat.not_le.mpr hc
  rw [connectedBit, mouseAfter_concat]
  unfold mouseReceive
  rw [if_neg hcount]
  cases event with
  | connected =>
    simp only [Nat.testBit_or, Nat.shiftLeft_eq, Nat.one_mul, Nat.testBit_two_pow, connectedBit]
    rw [decide_eq_decide.mpr (eq_comm : c = id ↔ id = c)]
  | data bytes length =>
    simp only [mouseQueueReport_connected, connectedBit]
  | disconnected =>
    simp only [Nat.testBit_and, connectedBit]
    have hmask : ∀ i < 4, ∀ k < 4, (2 ^ 32 - 1 - 1 <<< k).testBit i = decide (i ≠ k) := by decide
    rw [hmask id hid c hc]

/-- The calls for one controller leave the bits of the others alone. -/
theorem connectedBit_concat_of_ne (hid : id < uhciControllerCount) (hc : c < uhciControllerCount)
    (hne : id ≠ c) (event : UsbReport) : connectedBit id (l ++ [(c, event)]) = connectedBit id l := by
  rw [connectedBit_concat hid hc]
  cases event <;> simp [hne]

theorem Orderly.concat (h : Orderly id l) {event : UsbReport}
    (hevent : c = id → match event with
      | .connected => connectedBit id l = false
      | .data _ _ => connectedBit id l = true
      | .disconnected => True) : Orderly id (l ++ [(c, event)]) := by
  intro before e after heq
  rcases List.eq_nil_or_concat' after with rfl | ⟨after, last, rfl⟩
  · obtain ⟨rfl, hlast⟩ := List.append_inj' heq rfl
    obtain ⟨rfl, rfl⟩ := Prod.mk.inj (List.cons.inj hlast).1
    exact hevent rfl
  · rw [← List.cons_append, ← List.append_assoc] at heq
    exact h before e after (List.append_inj' heq rfl).1

/-- Between two calls that report a stream as connected there is one that reports
it as disconnected. -/
theorem Orderly.separated (h : Orderly id l) (hid : id < uhciControllerCount)
    (hall : ∀ r ∈ l, r.1 < uhciControllerCount) {before between after : List (ℕ × UsbReport)}
    (heq : l = before ++ (id, .connected) :: (between ++ (id, .connected) :: after)) :
    (id, UsbReport.disconnected) ∈ between := by
  by_contra hnone
  -- without such a call the bit stays set
  have hset : ∀ more : List (ℕ × UsbReport), (∀ r ∈ more, r.1 < uhciControllerCount) →
      (id, UsbReport.disconnected) ∉ more →
      connectedBit id (before ++ [(id, .connected)] ++ more) = true := by
    intro more
    induction more using List.reverseRecOn with
    | nil =>
      intro _ _
      rw [List.append_nil, connectedBit_concat hid hid]
      simp
    | append_singleton more r ih =>
      intro hmore hnot
      have hbit := ih (fun r hr => hmore r (by simp [hr])) fun hr => hnot (by simp [hr])
      obtain ⟨c, event⟩ := r
      have hc : c < uhciControllerCount := hmore (c, event) (by simp)
      rw [← List.append_assoc, connectedBit_concat hid hc]
      cases event with
      | connected => exact Bool.or_eq_true_iff.mpr (Or.inl hbit)
      | data bytes length => exact hbit
      | disconnected =>
        have hne : id ≠ c := fun h => hnot (by simp [h])
        exact Bool.and_eq_true_iff.mpr ⟨hbit, decide_eq_true hne⟩
  have hbetween := hset between (fun r hr => hall r (by simp [heq, hr])) hnone
  have hclear := h (before ++ (id, .connected) :: between) .connected after (by simp [heq])
  rw [List.append_cons] at hclear
  exact absurd (hbetween.symm.trans hclear) (by decide)

end Bit

/-! ### The invariant -/

/-- What holds of a controller between the calls of the host. -/
structure StreamOk (id : ℕ) (s : Usb) : Prop where
  built : (s.info id).status = uhciReady → (s.controllers id).frames = true
  ready : StreamReady id s
  bit : connectedBit id s.reported = (s.controllers id).active
  orderly : Orderly id s.reported

/-- What holds of the host between its calls; without the time base no controller
has been set up. -/
structure HostOk (s : Usb) : Prop where
  streams : ∀ id < uhciControllerCount, StreamOk id s
  idle : s.ticksPerMs = 0 → ∀ id < uhciControllerCount, (s.controllers id).frames = false
  reporters : ∀ r ∈ s.reported, r.1 < uhciControllerCount

section Invariant

variable {id : ℕ} {s t : Usb}

/-- The other controllers, when controller `id` has made at most one call. -/
theorem StreamOk.beside {c : ℕ} (ok : StreamOk c s) (hc : c < uhciControllerCount)
    (hid : id < uhciControllerCount) (hne : c ≠ id) (haway : t.away id = s.away id)
    (hreported : t.reported = s.reported ∨ ∃ e, t.reported = s.reported ++ [(id, e)]) :
    StreamOk c t := by
  have hx := congrFun haway ⟨c, hne⟩
  simp only [Usb.away, Prod.mk.injEq] at hx
  obtain ⟨hinfo, hcontrollers, -⟩ := hx
  refine ⟨by rw [hinfo, hcontrollers]; exact ok.built, ?_, ?_, ?_⟩
  · rw [StreamReady, hinfo, hcontrollers]
    exact ok.ready
  · rw [hcontrollers, ← ok.bit]
    rcases hreported with h | ⟨e, h⟩
    · rw [h]
    · rw [h, connectedBit_concat_of_ne hc hid hne]
  · rcases hreported with h | ⟨e, h⟩
    · rw [h]
      exact ok.orderly
    · rw [h]
      exact ok.orderly.concat fun h => absurd h.symm hne

/-- A step of one controller keeps the invariant of the host. -/
theorem HostOk.step (ok : HostOk s) (hid : id < uhciControllerCount)
    (haway : t.away id = s.away id) (hticks : t.ticksPerMs = s.ticksPerMs)
    (hframes : (t.controllers id).frames = (s.controllers id).frames)
    (hreported : t.reported = s.reported ∨ ∃ e, t.reported = s.reported ++ [(id, e)])
    (hown : StreamOk id t) : HostOk t := by
  refine ⟨fun c hc => ?_, fun h c hc => ?_, fun r hr => ?_⟩
  · by_cases hne : c = id
    · rw [hne]
      exact hown
    · exact (ok.streams c hc).beside hc hid hne haway hreported
  · rw [hticks] at h
    by_cases hne : c = id
    · rw [hne, hframes]
      exact ok.idle h id hid
    · have hx := congrFun haway ⟨c, hne⟩
      simp only [Usb.away, Prod.mk.injEq] at hx
      rw [hx.2.1]
      exact ok.idle h c hc
  · rcases hreported with h | ⟨e, h⟩
    · rw [h] at hr
      exact ok.reporters r hr
    · rw [h, List.mem_append, List.mem_singleton] at hr
      rcases hr with hr | rfl
      · exact ok.reporters r hr
      · exact hid

/-- **A service keeps the invariant.** -/
theorem serviceController_hostOk (fromIrq : Bool) (hid : id < uhciControllerCount) (ok : HostOk s) :
    Ensures (serviceController id fromIrq) s fun _ t => HostOk t ∧ Serviced id s t ∧
      t.calm id = s.calm id := by
  have own := ok.streams id hid
  refine ((serviceController_spec fromIrq own.ready).and
    ((calm_serviceController fromIrq).ensures s)).mono ?_
  rintro - t ⟨S, hcalm⟩
  refine ⟨?_, S, hcalm⟩
  simp only [Usb.calm, Prod.mk.injEq] at hcalm
  obtain ⟨-, ⟨-, hticks⟩, haway, hframes, -, -, -⟩ := hcalm
  cases S with
  | quiet _ hcontrollers hreported hstatus =>
    refine ok.step hid haway hticks hframes (Or.inl hreported) ⟨?_, ?_, ?_, ?_⟩
    · rw [hstatus, hframes]
      exact own.built
    · rw [StreamReady, hcontrollers, hstatus]
      exact own.ready
    · rw [hreported, hcontrollers]
      exact own.bit
    · rw [hreported]
      exact own.orderly
  | ended _ hcontrollers hreported hstatus =>
    have hoff : (t.controllers id).active = false := by
      rw [hcontrollers, Function.update_self]
    refine ok.step hid haway hticks hframes (Or.inr ⟨_, hreported⟩) ⟨?_, ?_, ?_, ?_⟩
    · exact fun h => absurd h hstatus
    · exact fun h => absurd (hoff.symm.trans h) Bool.false_ne_true
    · rw [hreported, connectedBit_concat hid hid, hoff]
      simp
    · rw [hreported]
      exact own.orderly.concat fun _ => trivial
  | report C hcontrollers hreported hstatus =>
    have hon : (t.controllers id).active = true := by
      rw [hcontrollers, Function.update_self, ← C.active, UhciController.accept]
      split_ifs <;> rfl
    have hbuilt : (t.controllers id).frames = true := hframes.trans (own.ready C.active).1
    refine ok.step hid haway hticks hframes (Or.inr ⟨_, hreported⟩) ⟨?_, ?_, ?_, ?_⟩
    · exact fun _ => hbuilt
    · exact fun _ => ⟨hbuilt, hstatus⟩
    · rw [hreported, connectedBit_concat hid hid, hon, ← C.active]
      exact own.bit
    · rw [hreported]
      exact own.orderly.concat fun _ => own.bit.trans C.active

/-! Calls that are not about a stream. -/

theorem HostOk.of_eq (ok : HostOk s) (hinfo : t.info = s.info)
    (hcontrollers : t.controllers = s.controllers) (hreported : t.reported = s.reported)
    (hticks : t.ticksPerMs = s.ticksPerMs) : HostOk t := by
  refine ⟨fun id hid => ⟨?_, ?_, ?_, ?_⟩, ?_, ?_⟩
  · rw [hinfo, hcontrollers]
    exact (ok.streams id hid).built
  · rw [StreamReady, hinfo, hcontrollers]
    exact (ok.streams id hid).ready
  · rw [hreported, hcontrollers]
    exact (ok.streams id hid).bit
  · rw [hreported]
    exact (ok.streams id hid).orderly
  · rw [hticks, hcontrollers]
    exact ok.idle
  · rw [hreported]
    exact ok.reporters

/-- Programs on one controller that keep its status, or do not care for it. -/
theorem HostOk.of_frame (ok : HostOk s) (hid : id < uhciControllerCount)
    (hframe : t.frame id = s.frame id) (hreported : t.reported = s.reported)
    (hstatus : (t.info id).status = (s.info id).status ∨ (s.controllers id).active = false ∧
      ((t.info id).status = uhciReady → (s.controllers id).frames = true)) : HostOk t := by
  simp only [Usb.frame, Usb.stream, Prod.mk.injEq] at hframe
  obtain ⟨-, ⟨-, hticks⟩, haway, ⟨hframes, hactive, -⟩, -⟩ := hframe
  have own := ok.streams id hid
  refine ok.step hid haway hticks hframes (Or.inl hreported) ⟨?_, ?_, ?_, ?_⟩
  · rw [hframes]
    rcases hstatus with h | h
    · rw [h]
      exact own.built
    · exact h.2
  · rw [StreamReady, hframes, hactive]
    rcases hstatus with h | h
    · rw [h]
      exact own.ready
    · exact fun h' => absurd (h.1.symm.trans h') Bool.false_ne_true
  · rw [hreported, hactive]
    exact own.bit
  · rw [hreported]
    exact own.orderly

/-- Requests on a controller without a stream. -/
theorem HostOk.of_flow (ok : HostOk s) (hid : id < uhciControllerCount)
    (hoff : (s.controllers id).active = false)
    (hbuilt : (t.info id).status = uhciReady → (s.controllers id).frames = true)
    (hframe : t.frame id = s.frame id) (hflow : t.flow = s.flow) : HostOk t :=
  ok.of_frame hid hframe (congrArg (fun v => v.1) hflow) (Or.inr ⟨hoff, hbuilt⟩)

/-- A request that a controller with a stream refuses, or one that has a ready
controller without a stream to itself. -/
theorem usbUhciControl_hostOk (address low packet : ℕ) (setup data : ℕ → ℕ) (ok : HostOk s) :
    Ensures (usbUhciControl id address low packet setup data) s fun _ t => HostOk t := by
  by_cases hpass : id < uhciControllerCount ∧ (s.info id).status = uhciReady ∧
      (s.controllers id).active = false
  · obtain ⟨hid, hready, hoff⟩ := hpass
    refine (((keeps_usbUhciControl address low packet setup data).toFrame.ensures s).and
      ((flow_usbUhciControl address low packet setup data).ensures s)).mono ?_
    rintro - t ⟨hframe, hflow⟩
    exact ok.of_flow hid hoff (fun _ => (ok.streams id hid).built hready) hframe hflow
  · refine ensures_get_bind (ensures_ite (fun _ => ensures_pure ok) fun hnot => absurd ?_ hpass)
    simp only [not_or, Nat.not_le, not_not, ne_eq, Bool.not_eq_true] at hnot
    exact ⟨hnot.1, hnot.2.2.2.1, hnot.2.2.2.2.2.2.2⟩

theorem usbUhciResetPort_hostOk (port : ℕ) (ok : HostOk s) :
    Ensures (usbUhciResetPort id port) s fun _ t => HostOk t := by
  by_cases hpass : id < uhciControllerCount ∧ (s.info id).status = uhciReady ∧
      (s.controllers id).active = false
  · obtain ⟨hid, hready, hoff⟩ := hpass
    have hframe : Keeps (Usb.frame id) (usbUhciResetPort id port) := by
      refine keeps_bind keeps_get fun _ => keeps_ite (keeps_pure _) (keeps_ite (keeps_pure _) ?_)
      refine keeps_bind (keeps_usbIn _).toFrame fun _ => keeps_ite (keeps_pure _) ?_
      iterate 3
        refine keeps_bind (keeps_outPort _).toFrame fun _ =>
          keeps_bind (keeps_usbIn _).toFrame fun _ => ?_
      exact keeps_bind (keeps_setPortStatus _) fun _ => keeps_pure _
    refine ((hframe.ensures s).and ((flow_usbUhciResetPort).ensures s)).mono ?_
    rintro - t ⟨hframe, hflow⟩
    exact ok.of_flow hid hoff (fun _ => (ok.streams id hid).built hready) hframe hflow
  · refine ensures_get_bind (ensures_ite (fun _ => ensures_pure ok) fun hnot => ?_)
    refine ensures_ite (fun _ => ensures_pure ok) fun hoff => absurd ?_ hpass
    simp only [not_or, Nat.not_le, not_not, ne_eq] at hnot
    exact ⟨hnot.1, hnot.2.2, Bool.not_eq_true _ ▸ hoff⟩

theorem usbUhciDisablePort_hostOk (port : ℕ) (ok : HostOk s) :
    Ensures (usbUhciDisablePort id port) s fun _ t => HostOk t := by
  by_cases hpass : id < uhciControllerCount ∧ (s.controllers id).active = false
  · obtain ⟨hid, hoff⟩ := hpass
    have hstatus : Keeps (fun s : Usb => (s.info id).status) (usbUhciDisablePort id port) := by
      refine keeps_bind keeps_get fun _ => keeps_ite (keeps_pure _) ?_
      refine keeps_bind (keeps_modifyGet fun _ => rfl) fun _ => keeps_bind (keeps_modify fun _ => rfl) ?_
      refine fun _ => keeps_bind (keeps_modifyGet fun _ => rfl) fun _ => keeps_modify fun s => ?_
      simp only [Function.update_self]
    refine ((keeps_usbUhciDisablePort.ensures s).and ((flow_usbUhciDisablePort.ensures s).and
      (hstatus.ensures s))).mono ?_
    rintro - t ⟨hframe, hflow, hstatus⟩
    exact ok.of_flow hid hoff (fun h => (ok.streams id hid).built (hstatus.symm.trans h)) hframe hflow
  · refine ensures_get_bind (ensures_ite (fun _ => ensures_pure ok) fun hnot => absurd ?_ hpass)
    simp only [not_or, Nat.not_le, Bool.not_eq_true] at hnot
    exact ⟨hnot.1, hnot.2.2.2⟩

theorem usbUhciStartInterrupt_hostOk (port address endpoint low packet ms : ℕ) (ok : HostOk s) :
    Ensures (usbUhciStartInterrupt id port address endpoint low packet ms) s fun _ t => HostOk t := by
  refine (usbUhciStartInterrupt_started address endpoint low packet ms s).mono ?_
  rintro r t ⟨haway, hticks, hinfo, hfail, hstart⟩
  by_cases hr : r = 0
  · obtain ⟨hcontrollers, hflow⟩ := hfail hr
    exact ok.of_eq hinfo hcontrollers (congrArg (fun v => v.1) hflow) hticks
  obtain ⟨hid, hready, hoff, -, hcontrollers, hreported, -, -⟩ := hstart hr
  have own := ok.streams id hid
  have hframes : (t.controllers id).frames = (s.controllers id).frames := by
    rw [hcontrollers, Function.update_self]
  have hon : (t.controllers id).active = true := by
    rw [hcontrollers, Function.update_self]
  refine ok.step hid haway hticks hframes (Or.inr ⟨_, hreported⟩) ⟨?_, ?_, ?_, ?_⟩
  · exact fun _ => hframes.trans (own.built hready)
  · exact fun _ => ⟨hframes.trans (own.built hready), by rw [hinfo]; exact hready⟩
  · rw [hreported, connectedBit_concat hid hid, hon]
    simp
  · rw [hreported]
    exact own.orderly.concat fun _ => own.bit.trans hoff

theorem usbUhciReadReport_hostOk (ok : HostOk s) :
    Ensures (usbUhciReadReport id) s fun _ t => HostOk t := by
  refine ensures_get_bind (ensures_ite (fun _ => ensures_pure ok) fun hpass => ?_)
  have hid : id < uhciControllerCount := by
    by_contra h
    exact hpass (Or.inl (Nat.not_lt.mp h))
  have own := ok.streams id hid
  refine ensures_modify_bind (ensures_modify_bind (ensures_pure ?_))
  refine ok.step hid ?_ rfl ?_ (Or.inl rfl) ⟨?_, ?_, ?_, ?_⟩
  · funext x
    simp only [Usb.away, Function.update_of_ne x.2]
  all_goals simp only [StreamReady, Function.update_self]
  · exact own.built
  · exact own.ready
  · exact own.bit
  · exact own.orderly

/-! Polls and interrupts. -/

/-- **A poll of one controller** keeps the invariant and gives its bit. -/
theorem pollController_hostOk (hid : id < uhciControllerCount) (ok : HostOk s) :
    Ensures (pollController id) s fun a t => HostOk t ∧ t.away id = s.away id ∧
      a = (t.controllers id).active := by
  have own := ok.streams id hid
  refine (Ensures.and (Ensures.and (pollController_alive own.ready)
    (calm_pollController.ensures s))
    (show Ensures (pollController id) s fun _ t => HostOk t from ?_)).mono ?_
  · refine ensures_get_bind (ensures_ite (fun _ => ensures_pure ok) fun hbuilt => ?_)
    refine ensures_bind (pollPause_spec s) ?_
    rintro paused s₁ ⟨hinfo₁, hcontrollers₁, hreported₁, hframe₁, -⟩
    have hticks₁ : s₁.ticksPerMs = s.ticksPerMs := congrArg (fun v => v.2.1.2) hframe₁
    refine ensures_bind (serviceController_hostOk false hid
      (ok.of_eq hinfo₁ hcontrollers₁ hreported₁ hticks₁)) ?_
    rintro - s₂ ⟨ok₂, -, hcalm₂⟩
    refine ensures_get_bind (ensures_ite (fun _ => ensures_pure ok₂) fun _ => ?_)
    have hframes₂ : (s₂.controllers id).frames = true := by
      have h₂ : (s₂.controllers id).frames = (s₁.controllers id).frames :=
        congrArg (fun v => v.2.2.2.1) hcalm₂
      rw [h₂, hcontrollers₁]
      by_contra h
      exact hbuilt (Or.inl (Bool.not_eq_true _ ▸ h))
    have hresume : Keeps Usb.info (pollResume id paused) :=
      keeps_bind keeps_get fun _ => keeps_modify fun _ => rfl
    refine ensures_bind (((frame_pollResume paused).toFrame.ensures s₂).and
      (((flow_pollResume paused).ensures s₂).and (hresume.ensures s₂))) ?_
    rintro - s₃ ⟨hframe₃, hflow₃, hinfo₃⟩
    have ok₃ : HostOk s₃ := ok₂.of_frame hid hframe₃ (congrArg (fun v => v.1) hflow₃)
      (Or.inl (by rw [hinfo₃]))
    refine ensures_bind (pollRecover_spec s₃) ?_
    rintro - s₄ ⟨hreported₄, -, hframe₄, hready₄, -⟩
    -- a controller that needs recovery has no stream
    have ok₄ : HostOk s₄ := by
      by_cases hready : (s₃.info id).status = uhciReady
      · rw [hready₄ hready]
        exact ok₃
      · refine ok₃.of_frame hid hframe₄ hreported₄ (Or.inr ⟨?_, fun _ => ?_⟩)
        · by_contra h
          exact hready ((ok₃.streams id hid).ready (Bool.not_eq_false _ ▸ h)).2
        · have h₃ : (s₃.controllers id).frames = (s₂.controllers id).frames :=
            congrArg (fun v => v.2.2.2.1.1) hframe₃
          exact h₃.trans hframes₂
    refine ensures_bind (((frame_pollPort 0).ensures s₄).and
      ((flow_pollPort.ensures s₄).and (pollPort_spec 0 s₄))) ?_
    rintro - s₅ ⟨hframe₅, hflow₅, -, hstatus₅, -⟩
    have ok₅ := ok₄.of_frame hid hframe₅ (congrArg (fun v => v.1) hflow₅) (Or.inl hstatus₅)
    refine ensures_bind (((frame_pollPort 1).ensures s₅).and
      ((flow_pollPort.ensures s₅).and (pollPort_spec 1 s₅))) ?_
    rintro - s₆ ⟨hframe₆, hflow₆, -, hstatus₆, -⟩
    exact ensures_get_bind (ensures_pure (ok₅.of_frame hid hframe₆ (congrArg (fun v => v.1) hflow₆)
      (Or.inl hstatus₆)))
  · rintro a t ⟨⟨⟨hbit, -⟩, hcalm⟩, ok'⟩
    exact ⟨ok', congrArg (fun v => v.2.2.1) hcalm, hbit⟩

theorem pollControllers_hostOk (ok : HostOk s) : ∀ n ≤ uhciControllerCount,
    Ensures (pollControllers n) s fun active t =>
      HostOk t ∧ ∀ id < n, active id = (t.controllers id).active
  | 0, _ => ensures_pure ⟨ok, fun _ h => absurd h (Nat.not_lt_zero _)⟩
  | n + 1, hn => by
    refine ensures_bind (pollControllers_hostOk ok n (by omega)) ?_
    rintro active u ⟨ok, hbits⟩
    refine ensures_bind (pollController_hostOk (by omega) ok) ?_
    rintro a t ⟨ok', haway, hbit⟩
    refine ensures_pure ⟨ok', fun id hid => ?_⟩
    by_cases hne : id = n
    · rw [hne, Function.update_self]
      exact hbit
    · have hx := congrFun haway ⟨id, hne⟩
      simp only [Usb.away, Prod.mk.injEq] at hx
      rw [Function.update_of_ne hne, hx.2.1]
      exact hbits id (by omega)

/-- **`usb_host_poll`** gives the controllers with a stream. -/
theorem usbHostPoll_hostOk (ok : HostOk s) : Ensures usbHostPoll s fun active t =>
    HostOk t ∧ ∀ id < uhciControllerCount, active id = (t.controllers id).active := by
  refine ensures_get_bind (ensures_ite (fun h => ensures_pure ⟨ok, fun id hid => ?_⟩) fun _ => ?_)
  · by_contra hactive
    have hframes := ((ok.streams id hid).ready (by simpa using hactive)).1
    exact absurd ((ok.idle h id hid).symm.trans hframes) Bool.false_ne_true
  · refine ensures_modify_bind (pollControllers_hostOk ?_ _ (Nat.le_refl _))
    exact ok.of_eq rfl rfl rfl rfl

theorem interruptControllers_hostOk (gsi : ℕ) (ok : HostOk s) : ∀ n ≤ uhciControllerCount,
    Ensures (interruptControllers gsi n) s fun _ t => HostOk t
  | 0, _ => ensures_pure ok
  | n + 1, hn => by
    refine ensures_bind (interruptControllers_hostOk gsi ok n (by omega)) fun claimed u ok => ?_
    refine ensures_get_bind (ensures_ite (fun _ => ?_) fun _ => ensures_pure ok)
    refine ensures_bind (serviceController_hostOk true (by omega) ok) ?_
    rintro - t ⟨ok, -⟩
    exact ensures_pure ok

theorem usbHostInterrupt_hostOk (gsi : ℕ) (ok : HostOk s) :
    Ensures (usbHostInterrupt gsi) s fun _ t => HostOk t := by
  refine ensures_bind (interruptControllers_hostOk gsi ok _ (Nat.le_refl _)) fun claimed u ok => ?_
  have hkeeps : Keeps (fun s : Usb => (s.info, s.controllers, s.reported, s.ticksPerMs))
      (maskRoute gsi) :=
    keeps_bind (keeps_modifyGet fun _ => rfl) fun _ => keeps_bind (keeps_modify fun _ => rfl) fun _ =>
      keeps_modify fun _ => rfl
  refine ensures_ite (fun _ => ensures_modify (ok.of_eq rfl rfl rfl rfl)) fun _ => ?_
  refine ensures_get_bind (ensures_modify_bind (ensures_ite (fun _ => ensures_pure ?_) fun _ => ?_))
  · exact ok.of_eq rfl rfl rfl rfl
  · refine (hkeeps.ensures _).mono fun _ t heq => ?_
    simp only [Prod.mk.injEq] at heq
    exact ok.of_eq heq.1 heq.2.1 heq.2.2.1 heq.2.2.2

end Invariant

/-! ### Runs -/

/-- A call of the host. -/
inductive HostCall
  | control (id address low packet : ℕ) (setup data : ℕ → ℕ)
  | reset (id port : ℕ)
  | disable (id port : ℕ)
  | start (id port address endpoint low packet ms : ℕ)
  | interrupt (gsi : ℕ)
  | poll
  | read (id : ℕ)

/-- The program of a call. -/
def HostCall.program : HostCall → UsbM Unit
  | .control id address low packet setup data => do
    let _ ← usbUhciControl id address low packet setup data
  | .reset id port => do
    let _ ← usbUhciResetPort id port
  | .disable id port => usbUhciDisablePort id port
  | .start id port address endpoint low packet ms => do
    let _ ← usbUhciStartInterrupt id port address endpoint low packet ms
  | .interrupt gsi => usbHostInterrupt gsi
  | .poll => do
    let _ ← usbHostPoll
  | .read id => do
    let _ ← usbUhciReadReport id

/-- The state that `usb_host_initialize` leaves, with `mouse_receive` installed: no
streams, a ready controller has its schedule, and without the time base there
are no ready controllers. -/
structure HostBooted (s : Usb) : Prop where
  inactive : ∀ id < uhciControllerCount, (s.controllers id).active = false
  built : ∀ id < uhciControllerCount, (s.info id).status = uhciReady →
    (s.controllers id).frames = true
  idle : s.ticksPerMs = 0 → ∀ id < uhciControllerCount, (s.controllers id).frames = false
  counts : ∀ id < uhciControllerCount, (s.info id).reports = 0 ∧ (s.info id).dropped = 0
  reported : s.reported = []
  log : s.log = []

/-- The states between the calls of a run. -/
inductive HostRun : Usb → Prop
  | boot {s : Usb} : HostBooted s → HostRun s
  | call {s t : Usb} (c : HostCall) : HostRun s → c.program.run s = some ((), t) → HostRun t

section Run

variable {s t : Usb}

theorem HostBooted.ok (h : HostBooted s) : HostOk s := by
  refine ⟨fun id hid => ⟨h.built id hid, fun hactive => ?_, ?_, ?_⟩, h.idle, ?_⟩
  · exact absurd ((h.inactive id hid).symm.trans hactive) Bool.false_ne_true
  · rw [h.reported, h.inactive id hid]
    exact Nat.zero_testBit id
  · intro before event after heq
    rw [h.reported] at heq
    exact absurd heq.symm (by simp)
  · rw [h.reported]
    exact fun r hr => absurd hr List.not_mem_nil

/-- **Every call keeps the invariant.** -/
theorem HostCall.hostOk (c : HostCall) (ok : HostOk s) :
    Ensures c.program s fun _ t => HostOk t := by
  cases c with
  | control id address low packet setup data =>
    exact ensures_bind (usbUhciControl_hostOk address low packet setup data ok) fun _ _ ok =>
      ensures_pure ok
  | reset id port => exact ensures_bind (usbUhciResetPort_hostOk port ok) fun _ _ ok => ensures_pure ok
  | disable id port => exact usbUhciDisablePort_hostOk port ok
  | start id port address endpoint low packet ms =>
    exact ensures_bind (usbUhciStartInterrupt_hostOk port address endpoint low packet ms ok)
      fun _ _ ok => ensures_pure ok
  | interrupt gsi => exact usbHostInterrupt_hostOk gsi ok
  | poll => exact ensures_bind (usbHostPoll_hostOk ok) fun _ _ h => ensures_pure h.1
  | read id => exact ensures_bind (usbUhciReadReport_hostOk ok) fun _ _ ok => ensures_pure ok

theorem HostRun.ok (h : HostRun s) : HostOk s := by
  induction h with
  | boot hboot => exact hboot.ok
  | call c _ hrun ih => exact c.hostOk ih _ _ hrun

/-- A controller with a stream refuses requests: it reads and writes nothing. -/
theorem refused_of_active {id : ℕ} (hactive : (s.controllers id).active = true) :
    (∀ address low packet setup data,
      (usbUhciControl id address low packet setup data).run s = some ((-1, data), s)) ∧
    (∀ port, (usbUhciResetPort id port).run s = some (0, s)) ∧
    ∀ port address endpoint low packet ms,
      (usbUhciStartInterrupt id port address endpoint low packet ms).run s = some (0, s) := by
  refine ⟨fun address low packet setup data => ?_, fun port => ?_,
    fun port address endpoint low packet ms => ?_⟩
  · refine run_bind_eq_some.mpr ⟨s, s, rfl, ?_⟩
    dsimp only
    rw [if_pos (by simp [hactive])]
    rfl
  · refine run_bind_eq_some.mpr ⟨s, s, rfl, ?_⟩
    rw [if_pos hactive, ite_self]
    rfl
  · refine run_bind_eq_some.mpr ⟨s, s, rfl, ?_⟩
    rw [if_pos (by simp [hactive])]
    rfl

/-- **The life of a stream**, in every run of calls to the host. -/
theorem stream_lifecycle (h : HostRun s) :
    (∀ id < uhciControllerCount,
      ((s.controllers id).active = true → (s.info id).status = uhciReady) ∧
      (mouseAfter s.reported).shared.connected.testBit id = (s.controllers id).active ∧
      (∀ before bytes length after, s.reported = before ++ (id, .data bytes length) :: after →
        (mouseAfter before).shared.connected.testBit id = true) ∧
      (∀ before between after,
        s.reported = before ++ (id, .connected) :: (between ++ (id, .connected) :: after) →
        (id, UsbReport.disconnected) ∈ between) ∧
      ((s.controllers id).active = true →
        (∀ address low packet setup data,
          (usbUhciControl id address low packet setup data).run s = some ((-1, data), s)) ∧
        (∀ port, (usbUhciResetPort id port).run s = some (0, s)) ∧
        ∀ port address endpoint low packet ms,
          (usbUhciStartInterrupt id port address endpoint low packet ms).run s = some (0, s))) ∧
    ∀ active t, usbHostPoll.run s = some (active, t) → ∀ id < uhciControllerCount,
      active id = (mouseAfter t.reported).shared.connected.testBit id := by
  refine ⟨fun id hid => ?_, fun active t hrun id hid => ?_⟩
  · have own := h.ok.streams id hid
    refine ⟨fun hactive => (own.ready hactive).2, own.bit, ?_, ?_, refused_of_active⟩
    · exact fun before bytes length after heq => own.orderly before _ after heq
    · exact fun before between after heq => own.orderly.separated hid h.ok.reporters heq
  · obtain ⟨ok, hbits⟩ := usbHostPoll_hostOk h.ok active t hrun
    rw [hbits id hid]
    exact (ok.streams id hid).bit.symm

end Run

/-- A ready controller with a device on its ports that never sends a report. -/
def readyHost : Usb where
  hw := fun _ r => match r with
    | .port _ _ => 5
    | .halted _ => 1
    | .interruptTd _ => uhciActive
    | _ => 0
  time := 0
  routeMask := 1
  unclaimedInterrupts := 0
  unclaimedStreak := fun _ => 0
  td := fun _ => 0
  log := []
  ticksPerMs := 1
  hotplugTime := 0
  info := fun id => ⟨if id = 0 then 0xC000 else 0, 16, if id = 0 then uhciReady else uhciAbsent, 0, 0,
    fun _ => 0, 0, 0⟩
  controllers := fun id => ⟨id = 0, fun _ => ⟨0, fun _ => 0⟩, 0, 0, 0, 0, 0, 0, 0, false, 0⟩
  polls := 0
  pollCompletions := 0
  lastTd := fun _ => 0
  portGeneration := fun _ _ => 0
  reported := []
  initialized := false
  mouseCount := 0
  bootMouseCount := 0
  mousePort := fun _ _ => ⟨0, 0, 0, 0, 0, ⟨0, 0, 0, 0, 0⟩, 0⟩
  hotplug := fun _ _ => ⟨0, 0, 0⟩
  configurationBuffer := fun _ => 0

theorem readyHost_booted : HostBooted readyHost := by
  refine ⟨fun _ _ => rfl, fun id _ h => ?_, fun h => absurd h (by decide), fun _ _ => ⟨rfl, rfl⟩,
    rfl, rfl⟩
  show decide (id = 0) = true
  by_contra hne
  have hstatus : (if id = 0 then uhciReady else uhciAbsent) = uhciReady := h
  rw [if_neg fun h => hne (decide_eq_true h)] at hstatus
  exact absurd hstatus (by decide)

/-- A run that starts a stream on port 0 of controller 0. -/
theorem readyHost_started : ∃ s, HostRun s ∧ (s.controllers 0).active = true := by
  have hstart : (((HostCall.start 0 0 1 1 0 4 8).program.run readyHost).map fun r =>
      (r.2.controllers 0).active) = some true := by decide +kernel
  obtain ⟨⟨⟨⟩, s⟩, hrun, hactive⟩ := Option.map_eq_some_iff.mp hstart
  exact ⟨s, HostRun.call _ (HostRun.boot readyHost_booted) hrun, hactive⟩

/-- There the bit is set and the port cannot be reset. -/
theorem stream_lifecycle_readyHost : ∃ s, HostRun s ∧ (s.controllers 0).active = true ∧
    (mouseAfter s.reported).shared.connected.testBit 0 = true ∧
    (usbUhciResetPort 0 0).run s = some (0, s) := by
  obtain ⟨s, hrun, hactive⟩ := readyHost_started
  obtain ⟨-, hbit, -, -, hrefuse⟩ := (stream_lifecycle hrun).1 0 (by decide)
  exact ⟨s, hrun, hactive, hbit.trans hactive, (hrefuse hactive).2.1 0⟩

end VirtualKernel
