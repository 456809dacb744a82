/-
The records of the mouse ports tell the truth.

After a scan of the ports a record should say STREAMING exactly when its
controller has a stream and the stream is on that port.  The scan takes the
controllers with a stream from one mask, which it changes itself when a probe of
port 0 succeeds; a record of port 1 whose stream has ended is then not looked
at.  `TakenOver` says when this happens, in terms of the records before the call
and of what the hardware answers during it.  `hotplug_status` proves the property
for runs in which no stream is taken over, and `lingerAt` is a run in which one is.
-/
import VirtualKernel.UsbLog

namespace VirtualKernel

open Lib

/-! ### Scans -/

/-- The rest of the state when one record and its entry change. -/
def Usb.others (id port : ℕ) (s : Usb) :=
  (s.hw, s.initialized, s.info, s.controllers, s.portGeneration, s.td,
    fun x : { x : ℕ × ℕ // x ≠ (id, port) } => (s.mousePort x.1.1 x.1.2, s.hotplug x.1.1 x.1.2))

section Scan

variable {id port : ℕ} {s t : Usb} {a a' : Bool}

theorem update_pair {α : Type} (f : ℕ → ℕ → α) (v : α) (x : { x : ℕ × ℕ // x ≠ (id, port) }) :
    Function.update f id (Function.update (f id) port v) x.1.1 x.1.2 = f x.1.1 x.1.2 := by
  by_cases hid : x.1.1 = id
  · have hport : x.1.2 ≠ port := fun h => x.2 (Prod.ext hid h)
    rw [hid, Function.update_self, Function.update_of_ne hport]
  · rw [Function.update_of_ne hid]

theorem others_setMousePort (f : UsbMousePort → UsbMousePort) :
    Keeps (Usb.others id port) (setMousePort id port f) := by
  refine keeps_modify fun s => ?_
  simp only [Usb.others, update_pair]

theorem others_setHotplug (f : Hotplug → Hotplug) :
    Keeps (Usb.others id port) (setHotplug id port f) := by
  refine keeps_modify fun s => ?_
  simp only [Usb.others, update_pair]

theorem setHotplug_entry (f : Hotplug → Hotplug) (u : Usb) :
    Ensures (setHotplug id port f) u fun _ t =>
      t.hotplug id port = f (u.hotplug id port) ∧ t.mousePort = u.mousePort := by
  refine ensures_modify ⟨?_, rfl⟩
  simp only [Function.update_self]

/-- What equal `others` give for the controller and for the rest. -/
theorem others_eq (h : t.others id port = s.others id port) :
    t.hw = s.hw ∧ t.initialized = s.initialized ∧ t.info = s.info ∧
      t.controllers = s.controllers ∧ t.portGeneration = s.portGeneration ∧
      t.away id = s.away id ∧
      ∀ p ≠ port, t.mousePort id p = s.mousePort id p ∧ t.hotplug id p = s.hotplug id p := by
  simp only [Usb.others, Prod.mk.injEq] at h
  obtain ⟨h1, h2, h3, h4, h5, htd, h6⟩ := h
  have hpair : ∀ i p, (i, p) ≠ (id, port) →
      t.mousePort i p = s.mousePort i p ∧ t.hotplug i p = s.hotplug i p := fun i p hne =>
    Prod.mk.inj (congrFun h6 ⟨(i, p), hne⟩)
  refine ⟨h1, h2, h3, h4, h5, ?_, fun p hp => hpair id p fun h => hp (Prod.mk.inj h).2⟩
  funext x
  have hrow : ∀ p, t.mousePort x p = s.mousePort x p ∧ t.hotplug x p = s.hotplug x p :=
    fun p => hpair x p fun h => x.2 (Prod.mk.inj h).1
  simp only [Usb.away, h3, h4, h5, htd]
  rw [funext fun p => (hrow p).1, funext fun p => (hrow p).2]

theorem scanForget_spec (a : Bool) (s : Usb) : Ensures (scanForget id port a) s fun _ t =>
    t.others id port = s.others id port ∧
      (a = false → (t.mousePort id port).status ≠ usbMouseStreaming) ∧
      (a = true → t.mousePort = s.mousePort ∧ t.hotplug = s.hotplug) := by
  refine ensures_get_bind (ensures_ite (fun h => ?_) fun h => ?_)
  · refine ensures_modify_bind ?_
    refine ensures_bind (((others_setMousePort _).ensures _).and (setMousePort_record _ _)) ?_
    rintro - u ⟨hothers, hrecord, -⟩
    refine (((others_setHotplug _).ensures u).and (setHotplug_entry _ u)).mono ?_
    rintro - t ⟨hothers', -, hmouse⟩
    refine ⟨hothers'.trans hothers, fun _ => ?_, fun ha => absurd (h.2.symm.trans ha) (by decide)⟩
    rw [hmouse, hrecord]
    exact show usbMouseAbsent ≠ usbMouseStreaming by decide
  · exact ensures_pure ⟨rfl, fun ha hs => h ⟨hs, ha⟩, fun _ => ⟨rfl, rfl⟩⟩

theorem scanChanged_spec (generation connected : ℕ) (s : Usb) :
    Ensures (scanChanged id port generation connected) s fun _ t =>
      t.others id port = s.others id port ∧ (t.hotplug id port).connected = connected ∧
        (connected ≠ 0 → t.mousePort = s.mousePort) ∧
        (connected = 0 → (t.mousePort id port).status = usbMouseAbsent) := by
  refine ensures_modify_bind ?_
  refine ensures_bind (((others_setHotplug _).ensures _).and (setHotplug_entry _ _)) ?_
  rintro - u ⟨hothers, hentry, hmouse⟩
  have hconnected : (u.hotplug id port).connected = connected := by rw [hentry]
  refine ensures_ite (fun h0 => ?_) fun h0 => ensures_pure ⟨hothers, hconnected, fun _ => hmouse,
    fun h => absurd h h0⟩
  have hhotplug : Keeps Usb.hotplug (setStage id port usbMouseAbsent) := keeps_modify fun _ => rfl
  refine (((others_setMousePort _).ensures u).and ((setMousePort_record _ u).and
    (hhotplug.ensures u))).mono ?_
  rintro - t ⟨hothers', ⟨hrecord, -⟩, hentry'⟩
  refine ⟨hothers'.trans hothers, by rw [hentry']; exact hconnected, fun h => absurd h0 h, fun _ => ?_⟩
  rw [hrecord]

/-- The outcome of a scan of one port. -/
structure Scanned (id port : ℕ) (s : Usb) (a a' : Bool) (t : Usb) : Prop where
  hw : t.hw = s.hw
  initialized : t.initialized = s.initialized
  away : t.away id = s.away id
  frames : (t.controllers id).frames = (s.controllers id).frames
  beside : ∀ p ≠ port, t.mousePort id p = s.mousePort id p ∧ t.hotplug id p = s.hotplug id p
  bit : a' = (t.controllers id).active
  kept : a = true → a' = true ∧ t.controllers id = s.controllers id ∧ t.info id = s.info id
  record : a = true → (s.info id).portStatus port &&& 1 ≠ 0 →
    (t.mousePort id port).status = (s.mousePort id port).status
  unplugged : a = true → (s.info id).status = uhciReady → (s.info id).portStatus port &&& 1 = 0 →
    (s.hotplug id port).connected = 1 → (t.mousePort id port).status ≠ usbMouseStreaming
  fewer : a = true → (t.mousePort id port).status = usbMouseStreaming →
    (s.mousePort id port).status = usbMouseStreaming
  plugged : a = true → (s.hotplug id port).connected = 1 →
    (t.mousePort id port).status = usbMouseStreaming → (t.hotplug id port).connected = 1
  lost : a = false → a' = false → (t.controllers id).port = (s.controllers id).port ∧
    (t.mousePort id port).status ≠ usbMouseStreaming
  started : a = false → a' = true → (t.controllers id).port = port ∧
    (t.info id).status = uhciReady ∧ (t.mousePort id port).status = usbMouseStreaming ∧
    (t.hotplug id port).connected = 1
  tried : a = false → a' = true → (s.info id).status = uhciReady
  untouched : (s.info id).status ≠ uhciReady → t.info id = s.info id

/-- A scan that starts nothing. -/
theorem Scanned.of_others (hbit : a = (s.controllers id).active)
    (h : t.others id port = s.others id port)
    (hrecord : a = true → (s.info id).portStatus port &&& 1 ≠ 0 →
      (t.mousePort id port).status = (s.mousePort id port).status)
    (hunplugged : a = true → (s.info id).status = uhciReady →
      (s.info id).portStatus port &&& 1 = 0 → (s.hotplug id port).connected = 1 →
      (t.mousePort id port).status ≠ usbMouseStreaming)
    (hfewer : a = true → (t.mousePort id port).status = usbMouseStreaming →
      (s.mousePort id port).status = usbMouseStreaming)
    (hplugged : a = true → (s.hotplug id port).connected = 1 →
      (t.mousePort id port).status = usbMouseStreaming → (t.hotplug id port).connected = 1)
    (hlost : a = false → (t.mousePort id port).status ≠ usbMouseStreaming) :
    Scanned id port s a a t := by
  obtain ⟨hhw, hinit, hinfo, hcontrollers, -, haway, hbeside⟩ := others_eq h
  refine ⟨hhw, hinit, haway, by rw [hcontrollers], hbeside, by rw [hcontrollers]; exact hbit, ?_,
    hrecord, hunplugged, hfewer, hplugged, ?_, ?_, ?_, fun _ => by rw [hinfo]⟩
  · intro ha
    exact ⟨ha, by rw [hcontrollers], by rw [hinfo]⟩
  · intro ha _
    exact ⟨by rw [hcontrollers], hlost ha⟩
  · intro ha ha'
    exact absurd (ha.symm.trans ha') Bool.false_ne_true
  · intro ha ha'
    exact absurd (ha.symm.trans ha') Bool.false_ne_true

/-- **A scan of one port.** -/
theorem scanPort_spec (hid : id < uhciControllerCount) (hport : port ≤ 1)
    (hbit : a = (s.controllers id).active) :
    Ensures (scanPort id port a) s fun a' t => Scanned id port s a a' t := by
  refine ensures_bind (scanForget_spec a s) ?_
  rintro - u ⟨hothers, hforgot, hsame⟩
  obtain ⟨hhw, hinit, hinfo, hcontrollers, hgeneration, haway, hbeside⟩ := others_eq hothers
  refine ensures_get_bind ?_
  dsimp only
  rw [hinfo]
  refine ensures_ite (fun hnot => ensures_pure ?_) fun hready =>
    ensures_modify_bind (ensures_ite (fun hchanged => ?_) ?_)
  · refine Scanned.of_others hbit hothers ?_ (fun _ h => absurd h hnot) ?_ ?_ hforgot
    · exact fun ha _ => by rw [(hsame ha).1]
    · exact fun ha h => by rw [← (hsame ha).1]; exact h
    · exact fun ha h _ => by rw [(hsame ha).2]; exact h
  · refine ensures_bind (scanChanged_spec _ _ _) ?_
    rintro - t ⟨hothers', hconnected, hmouse, habsent⟩
    refine ensures_pure (Scanned.of_others hbit (hothers'.trans hothers) ?_ ?_ ?_ ?_ ?_)
    · intro ha hne
      rw [hmouse hne, (hsame ha).1]
    · intro ha _ h0 _
      rw [habsent h0]
      decide
    · intro ha hstreaming
      by_cases h0 : (s.info id).portStatus port &&& 1 = 0
      · rw [habsent h0] at hstreaming
        exact absurd hstreaming (by decide)
      · rw [← (hsame ha).1, ← hmouse h0]
        exact hstreaming
    · intro ha _ hstreaming
      by_cases h0 : (s.info id).portStatus port &&& 1 = 0
      · rw [habsent h0] at hstreaming
        exact absurd hstreaming (by decide)
      · rw [hconnected]
        have hlt : (s.info id).portStatus port &&& 1 ≤ 1 := Nat.and_le_right
        omega
    · intro ha
      by_cases h0 : (s.info id).portStatus port &&& 1 = 0
      · rw [habsent h0]
        decide
      · rw [hmouse h0]
        exact hforgot ha
  · intro hsteady
    rw [not_or, not_not, not_not] at hsteady
    refine ensures_ite (fun _ => ensures_pure ?_) fun hprobe => ?_
    · refine Scanned.of_others hbit hothers ?_ ?_ ?_ ?_ hforgot
      · exact fun ha _ => by rw [(hsame ha).1]
      · intro ha _ h0 h1
        rw [(hsame ha).2, h1, h0] at hsteady
        exact absurd hsteady.1 (by decide)
      · exact fun ha h => by rw [← (hsame ha).1]; exact h
      · exact fun ha h _ => by rw [(hsame ha).2]; exact h
    -- the port is connected, has not been tried, and there is no stream
    simp only [not_or, not_not, Bool.not_eq_true] at hprobe
    obtain ⟨hconnected, ha, -⟩ := hprobe
    have hone : (u.hotplug id port).connected = 1 := by
      have hle : (s.info id).portStatus port &&& 1 ≤ 1 := Nat.and_le_right
      rw [← hsteady.1]
      omega
    refine ensures_bind (((others_setHotplug _).ensures _).and (setHotplug_entry _ _)) ?_
    rintro - u₁ ⟨hothers₁, hentry₁, hmouse₁⟩
    refine ensures_bind (keeps_usbUhciDisablePort.ensures u₁) ?_
    intro _ u₂ hframe₂
    refine ensures_bind (keeps_usbUhciDisablePort.ensures u₂) ?_
    intro _ u₃ hframe₃
    have hframe : u₃.frame id = u₁.frame id := hframe₃.trans hframe₂
    obtain ⟨hhw₁, hinit₁, -, hcontrollers₁, -, haway₁, hbeside₁⟩ := others_eq hothers₁
    obtain ⟨-, hstream₃, hrecords₃, hhotplug₃⟩ := @around_of_frame id port _ _ hframe
    simp only [Usb.frame, Prod.mk.injEq] at hframe
    obtain ⟨hhw₃, hinit₃, haway₃, -, -, -⟩ := hframe
    refine (usbMouseProbePort_spec hid hport u₃).mono fun a' t hprobed => ?_
    have haround : t.around id port = u₃.around id port := by
      cases a' with
      | false => exact (hprobed.2 rfl).around
      | true => exact (hprobed.1 rfl).around
    simp only [Usb.around, Prod.mk.injEq] at haround
    obtain ⟨hhw₄, hinit₄, haway₄, hframes₄, hbeside₄, hhotplug₄⟩ := haround
    simp only [Usb.stream, Prod.mk.injEq] at hstream₃
    have hcs : u₁.controllers = s.controllers := hcontrollers₁.trans hcontrollers
    rw [hcs] at hstream₃
    have hentry : (t.hotplug id port).connected = 1 := by
      rw [hhotplug₄, hhotplug₃, hentry₁]
      exact hone
    refine ⟨?_, ?_, ?_, ?_, ?_, ?_, ?_, ?_, ?_, ?_, ?_, ?_, ?_, fun _ _ => not_not.mp hready,
      fun h => absurd h hready⟩
    · rw [hhw₄, hhw₃, hhw₁, hhw]
    · rw [hinit₄.1, hinit₃.1, hinit₁, hinit]
    · rw [haway₄, haway₃, haway₁]
      exact haway
    · rw [hframes₄, hstream₃.1]
    · intro p hp
      have hmouse : t.mousePort id p = u₃.mousePort id p := congrFun hbeside₄ ⟨p, hp⟩
      rw [hmouse, hrecords₃, hhotplug₄, hhotplug₃, (hbeside₁ p hp).1, (hbeside₁ p hp).2]
      exact hbeside p hp
    · cases a' with
      | false =>
        have hsame' := (hprobed.2 rfl).stream
        simp only [Usb.stream, Prod.mk.injEq] at hsame'
        rw [hsame'.2.1, hstream₃.2.1, ← hbit, ha]
      | true => rw [(hprobed.1 rfl).active]
    all_goals intro ha'
    · exact absurd (ha.symm.trans ha') Bool.false_ne_true
    · exact absurd (ha.symm.trans ha') Bool.false_ne_true
    · exact absurd (ha.symm.trans ha') Bool.false_ne_true
    · exact absurd (ha.symm.trans ha') Bool.false_ne_true
    · exact absurd (ha.symm.trans ha') Bool.false_ne_true
    · intro hfail
      have P := hprobed.2 hfail
      have hsame' := P.stream
      simp only [Usb.stream, Prod.mk.injEq] at hsame'
      exact ⟨by rw [hsame'.2.2, hstream₃.2.2], P.record⟩
    · intro hok
      have S := hprobed.1 hok
      exact ⟨S.port_eq, S.ready, S.record, hentry⟩

/-! Time goes on during a scan. -/

theorem advances_of_hushed {α : Type} {P : UsbEvent → Prop} {m : UsbM α}
    (h : Within (Hushed P) m) : Advances m := fun s => (h.ensures s).mono fun _ _ h => h.later

theorem advances_usbUhciDisablePort : Advances (usbUhciDisablePort id port) :=
  advances_of_hushed (P := fun _ => True) (hushed_usbUhciDisablePort fun _ => trivial)

theorem advances_usbUhciStartInterrupt (address endpoint low packet ms : ℕ) :
    Advances (usbUhciStartInterrupt id port address endpoint low packet ms) := by
  refine advances_bind advances_get fun s => advances_ite (advances_pure _) ?_
  refine advances_bind (advances_usbIn _) fun _ => advances_ite (advances_pure _) ?_
  refine advances_bind advances_uhciStop fun _ => advances_bind (advances_usbOut _) fun _ => ?_
  refine advances_bind (advances_modify fun _ => rfl) fun _ => advances_bind (advances_usbOut _) ?_
  refine fun _ => advances_bind (advances_modify fun _ => rfl) fun _ => ?_
  exact advances_bind (advances_usbOut _) fun _ => advances_bind advances_armInterrupt fun _ =>
    advances_bind (advances_usbOut _) fun _ => advances_pure _

theorem advances_usbMouseProbePort : Advances (usbMouseProbePort id port) := by
  refine advances_ite (advances_pure _) (advances_bind (advances_usbOut _) fun _ =>
    advances_bind (fun s => ?_) fun _ => advances_bind (advances_usbOut _) fun _ => advances_pure _)
  -- every step of a probe keeps a lower bound of the time
  have R : ProbeRule id port (fun t => s.time ≤ t.time) (fun t => s.time ≤ t.time)
      fun _ t => s.time ≤ t.time := by
    refine ⟨fun _ _ h hs => hs.trans h.later, fun v hs f _ => ensures_modify hs, fun v hs => ?_,
      fun v hs _ _ _ _ _ => ?_, fun v hs => ensures_modify hs⟩
    · exact (advances_usbUhciDisablePort v).mono fun _ _ h => hs.trans h
    · exact (advances_usbUhciStartInterrupt _ _ _ _ _ v).mono fun _ _ h =>
        ⟨fun _ => hs.trans h, fun _ => hs.trans h⟩
  exact R.probe (ensures_modify (Nat.le_refl _))

theorem advances_scanPort : Advances (scanPort id port a) := by
  refine advances_bind (advances_bind advances_get fun _ => advances_ite ?_ (advances_pure _)) ?_
  · exact advances_bind (advances_usbOut _) fun _ => advances_bind (advances_modify fun _ => rfl)
      fun _ => advances_modify fun _ => rfl
  refine fun _ => advances_bind advances_get fun s => advances_ite (advances_pure _) ?_
  refine advances_bind (advances_usbOut _) fun _ => advances_ite (advances_bind ?_ fun _ =>
    advances_pure _) (advances_ite (advances_pure _) ?_)
  · exact advances_bind (advances_usbOut _) fun _ => advances_bind (advances_modify fun _ => rfl)
      fun _ => advances_ite (advances_modify fun _ => rfl) (advances_pure _)
  · exact advances_bind (advances_modify fun _ => rfl) fun _ =>
      advances_bind advances_usbUhciDisablePort fun _ =>
      advances_bind advances_usbUhciDisablePort fun _ => advances_usbMouseProbePort

/-! A stream that a scan starts. -/

/-- The last reading of a port that is disabled. -/
theorem usbUhciDisablePort_reads (hid : id < uhciControllerCount) (hport : port ≤ 1) (u : Usb) :
    Ensures (usbUhciDisablePort id port) u fun _ t =>
      (u.info id).ioBase = 0 ∨ (u.controllers id).active = true ∨
        (t.info id).portStatus port = u.hw (t.time - 1) (.port id port) % 2 ^ 16 := by
  refine ensures_get_bind (ensures_ite (fun h => ensures_pure ?_) fun _ => ?_)
  · rcases h with h | h | h | h
    · exact absurd hid (Nat.not_lt.mpr h)
    · exact absurd hport (Nat.not_le.mpr h)
    · exact Or.inl h
    · exact Or.inr (Or.inl h)
  refine ensures_modifyGet_bind (ensures_modify_bind (ensures_modifyGet_bind (ensures_modify ?_)))
  refine Or.inr (Or.inr ?_)
  simp only [Function.update_self]
  rfl

/-- The scan of port 0 in `s` starts a stream, and `t` is the state behind it: the
port waits for a probe, the probe succeeds, and port 1 has been read just before. -/
structure Starts (id : ℕ) (s t : Usb) : Prop where
  ready : (s.info id).status = uhciReady
  connected : (s.info id).portStatus 0 &&& 1 = 1
  entry : s.hotplug id 0 = ⟨s.portGeneration id 0, 1, 0⟩
  probe : ∃ u, u.hw = s.hw ∧ s.time ≤ u.time ∧ (usbMouseProbePort id 0).run u = some (true, t) ∧
    ((s.info id).ioBase = 0 ∨
      (t.info id).portStatus 1 = s.hw (u.time - 1) (.port id 1) % 2 ^ 16)

theorem scanPort_starts (hid : id < uhciControllerCount) (hoff : (s.controllers id).active = false)
    (hrecord : (s.mousePort id 0).status ≠ usbMouseStreaming) :
    Ensures (scanPort id 0 false) s fun a' t => a' = true → Starts id s t := by
  have hfalse : ∀ u, Ensures (pure false : UsbM Bool) u fun a' t => a' = true → Starts id s t :=
    fun u => ensures_pure fun h => absurd h Bool.false_ne_true
  have hforget : Ensures (scanForget id 0 false) s fun _ t => t = s :=
    ensures_get_bind (ensures_ite (fun h => absurd h.1 hrecord) fun _ => ensures_pure rfl)
  refine ensures_bind hforget ?_
  rintro - u rfl
  refine ensures_get_bind (ensures_ite (fun _ => hfalse _) fun hready => ensures_modify_bind ?_)
  refine ensures_ite (fun _ => ensures_last fun _ _ => hfalse _) fun hsteady => ?_
  refine ensures_ite (fun _ => hfalse _) fun hwaits => ?_
  simp only [not_or, not_not] at hsteady hwaits
  have hone : (u.info id).portStatus 0 &&& 1 = 1 := by
    have hle : (u.info id).portStatus 0 &&& 1 ≤ 1 := Nat.and_le_right
    have hne := hwaits.1
    omega
  have hentry : u.hotplug id 0 = ⟨u.portGeneration id 0, 1, 0⟩ := by
    have h1 : (u.hotplug id 0).connected = 1 := hsteady.1.symm.trans hone
    have hparts : u.hotplug id 0 = ⟨(u.hotplug id 0).generation, (u.hotplug id 0).connected,
        (u.hotplug id 0).attempted⟩ := rfl
    rw [hparts, h1, hwaits.2.2, hsteady.2]
  -- the entry says tried, the two ports are disabled, then port 0 is probed
  refine ensures_modify_bind ?_
  refine ensures_bind ((keeps_usbUhciDisablePort.ensures _).and
    ((advances_usbUhciDisablePort _).and ((hushed_usbUhciDisablePort (P := fun _ => True)
      fun _ => trivial).ensures _))) ?_
  rintro - v ⟨hframe₁, htime₁, hhushed₁⟩
  refine ensures_bind ((keeps_usbUhciDisablePort.ensures v).and
    ((advances_usbUhciDisablePort v).and (usbUhciDisablePort_reads hid (Nat.le_refl 1) v))) ?_
  rintro - w ⟨hframe₂, htime₂, hread⟩
  intro a' t hrun ha'
  have S := (usbMouseProbePort_spec hid (Nat.zero_le 1) w a' t hrun).1 ha'
  rw [ha'] at hrun
  have hhw₁ : v.hw = u.hw := congrArg Prod.fst hframe₁
  have hhw₂ : w.hw = v.hw := congrArg Prod.fst hframe₂
  have hidle : (v.controllers id).active = false := by
    have h := congrArg (fun x => x.2.1) (hhushed₁.stream id)
    exact h.trans hoff
  refine ⟨not_not.mp hready, hone, hentry, w, hhw₂.trans hhw₁, htime₁.trans htime₂, hrun, ?_⟩
  rcases hread with h | h | h
  · exact Or.inl ((hhushed₁.ioBase id).symm.trans h)
  · exact absurd (h.symm.trans hidle) (by decide)
  · refine Or.inr ?_
    rw [S.beside 1 (by decide), h, hhw₁]

end Scan

/-! ### The invariant -/

/-- What holds of a controller between the calls: its stream has a record that
says so, and only the port of its last stream can have such a record. -/
structure UsbOk (id : ℕ) (s : Usb) : Prop where
  built : (s.info id).status = uhciReady → (s.controllers id).frames = true
  ready : StreamReady id s
  port_le : (s.controllers id).active = true → (s.controllers id).port ≤ 1
  shown : (s.controllers id).active = true →
    (s.mousePort id (s.controllers id).port).status = usbMouseStreaming
  only : ∀ p ≤ 1, (s.mousePort id p).status = usbMouseStreaming → (s.controllers id).port = p
  plugged : ∀ p ≤ 1, (s.mousePort id p).status = usbMouseStreaming →
    (s.hotplug id p).connected = 1

/-- **The records of a controller tell the truth.** -/
def HotplugTruth (id : ℕ) (s : Usb) : Prop :=
  ∀ p ≤ 1, (s.mousePort id p).status = usbMouseStreaming ↔
    (s.controllers id).active = true ∧ (s.controllers id).port = p

/-- The record of port 1 lingers: it speaks of a stream, and a scan in `s` that ends
before `stop` starts a stream on port 0 while port 1 still reads as connected. -/
def Lingers (id : ℕ) (s : Usb) (stop : ℕ) : Prop :=
  (s.mousePort id 1).status = usbMouseStreaming ∧
    ∃ t, t.time ≤ stop ∧ Starts id s t ∧ (t.info id).portStatus 1 &&& 1 ≠ 0

section Invariant

variable {id id' : ℕ} {s t : Usb} {a : Bool}

theorem away_eq (h : t.away id' = s.away id') (hne : id ≠ id') :
    t.info id = s.info id ∧ t.controllers id = s.controllers id ∧
      t.mousePort id = s.mousePort id ∧ t.hotplug id = s.hotplug id := by
  have hx := congrFun h ⟨id, hne⟩
  simp only [Usb.away, Prod.mk.injEq] at hx
  exact ⟨hx.1, hx.2.1, hx.2.2.1, hx.2.2.2.1⟩

/-- The invariant reads four parts of the state. -/
theorem UsbOk.of_eq (ok : UsbOk id s) (hinfo : t.info = s.info)
    (hcontrollers : t.controllers = s.controllers) (hmouse : t.mousePort = s.mousePort)
    (hhotplug : t.hotplug = s.hotplug) : UsbOk id t := by
  constructor
  · rw [hinfo, hcontrollers]; exact ok.built
  · rw [StreamReady, hinfo, hcontrollers]; exact ok.ready
  · rw [hcontrollers]; exact ok.port_le
  · rw [hcontrollers, hmouse]; exact ok.shown
  · rw [hcontrollers, hmouse]; exact ok.only
  · rw [hmouse, hhotplug]; exact ok.plugged

theorem UsbOk.of_away (ok : UsbOk id s) (h : t.away id' = s.away id') (hne : id ≠ id') :
    UsbOk id t := by
  obtain ⟨hinfo, hcontrollers, hmouse, hhotplug⟩ := away_eq h hne
  constructor
  · rw [hinfo, hcontrollers]; exact ok.built
  · rw [StreamReady, hinfo, hcontrollers]; exact ok.ready
  · rw [hcontrollers]; exact ok.port_le
  · rw [hcontrollers, hmouse]; exact ok.shown
  · rw [hcontrollers, hmouse]; exact ok.only
  · rw [hmouse, hhotplug]; exact ok.plugged

/-- Polls and interrupts can only end a stream. -/
theorem UsbOk.of_calm (ok : UsbOk id s) (hcalm : t.calm id = s.calm id)
    (hstill : (s.controllers id).frames = false → t.info id = s.info id)
    (halive : (t.controllers id).active = true →
      (s.controllers id).active = true ∧ (t.info id).status = uhciReady) : UsbOk id t := by
  simp only [Usb.calm, Prod.mk.injEq] at hcalm
  obtain ⟨-, -, -, hframes, hport, hmouse, hhotplug⟩ := hcalm
  constructor
  · intro hready
    rw [hframes]
    by_contra hoff
    rw [Bool.not_eq_true] at hoff
    rw [hstill hoff] at hready
    exact absurd (hoff.symm.trans (ok.built hready)) Bool.false_ne_true
  · intro hactive
    exact ⟨hframes.trans (ok.ready (halive hactive).1).1, (halive hactive).2⟩
  · intro hactive
    rw [hport]
    exact ok.port_le (halive hactive).1
  · intro hactive
    rw [hport, hmouse]
    exact ok.shown (halive hactive).1
  · rw [hport, hmouse]; exact ok.only
  · rw [hmouse, hhotplug]; exact ok.plugged

/-- **A scan of a controller** whose records were in order, whose stream has a
connected port, and where no record lingers. -/
theorem scanController_spec (hid : id < uhciControllerCount) (ok : UsbOk id s)
    (hbit : a = (s.controllers id).active)
    (hon : a = true → (s.info id).portStatus (s.controllers id).port &&& 1 ≠ 0) {stop : ℕ}
    (hlinger : a = false → ¬Lingers id s stop) :
    Ensures (scanController id a) s fun _ t =>
      (t.hw = s.hw ∧ s.time ≤ t.time ∧ t.away id = s.away id) ∧
        (t.time ≤ stop → UsbOk id t ∧ HotplugTruth id t) := by
  intro a₂ t hrun
  obtain ⟨a₁, u, h0, h1⟩ := run_bind_eq_some.mp hrun
  have S0 := scanPort_spec hid (Nat.zero_le 1) hbit a₁ u h0
  have S1 := scanPort_spec hid (Nat.le_refl 1) S0.bit a₂ t h1
  have hmouse0 : t.mousePort id 0 = u.mousePort id 0 := (S1.beside 0 (by decide)).1
  have hhotplug0 : t.hotplug id 0 = u.hotplug id 0 := (S1.beside 0 (by decide)).2
  have hmouse1 : u.mousePort id 1 = s.mousePort id 1 := (S0.beside 1 (by decide)).1
  have hhotplug1 : u.hotplug id 1 = s.hotplug id 1 := (S0.beside 1 (by decide)).2
  have hframes : (t.controllers id).frames = (s.controllers id).frames := S1.frames.trans S0.frames
  have htime0 : s.time ≤ u.time := advances_scanPort s a₁ u h0
  have htime1 : u.time ≤ t.time := advances_scanPort u a₂ t h1
  refine ⟨⟨S1.hw.trans S0.hw, htime0.trans htime1, S1.away.trans S0.away⟩, fun hstop => ?_⟩
  -- a controller that is not ready stays as it is
  have hbuilt : (s.info id).status = uhciReady ∨ t.info id = s.info id ∧ u.info id = s.info id := by
    by_cases h : (s.info id).status = uhciReady
    · exact Or.inl h
    · have hu := S0.untouched h
      exact Or.inr ⟨(S1.untouched (by rw [hu]; exact h)).trans hu, hu⟩
  suffices h : ((t.controllers id).active = true → (t.info id).status = uhciReady) ∧
      ((t.controllers id).active = true → (t.controllers id).port ≤ 1) ∧ HotplugTruth id t ∧
      ∀ p ≤ 1, (t.mousePort id p).status = usbMouseStreaming → (t.hotplug id p).connected = 1 by
    obtain ⟨hready, hle, htruth, hplugged⟩ := h
    have hbuilt' : (t.info id).status = uhciReady → (t.controllers id).frames = true := by
      intro h
      rw [hframes]
      rcases hbuilt with hs | ⟨ht, -⟩
      · exact ok.built hs
      · rw [ht] at h
        exact ok.built h
    refine ⟨⟨hbuilt', fun h => ⟨hbuilt' (hready h), hready h⟩, hle, fun hactive => ?_,
      fun p hp hs => ((htruth p hp).mp hs).2, hplugged⟩, htruth⟩
    exact (htruth _ (hle hactive)).mpr ⟨hactive, rfl⟩
  cases ha : a with
  | true =>
    obtain ⟨ha₁, hcu, hiu⟩ := S0.kept ha
    obtain ⟨ha₂, hct, hit⟩ := S1.kept ha₁
    have hactive : (s.controllers id).active = true := hbit.symm.trans ha
    have hc : t.controllers id = s.controllers id := hct.trans hcu
    have hshown := ok.shown hactive
    have hport := hon ha
    rw [hit, hiu, HotplugTruth, hc]
    refine ⟨fun _ => (ok.ready hactive).2, fun _ => ok.port_le hactive, ?_, ?_⟩
    · rcases Nat.le_one_iff_eq_zero_or_eq_one.mp (ok.port_le hactive) with hq | hq
      · -- the stream is on port 0
        rw [hq] at hshown hport
        have h1 : (t.mousePort id 1).status ≠ usbMouseStreaming := by
          intro h
          have h' := S1.fewer ha₁ h
          rw [hmouse1] at h'
          exact absurd (hq.symm.trans (ok.only 1 (Nat.le_refl 1) h')) (by decide)
        intro p hp
        rcases Nat.le_one_iff_eq_zero_or_eq_one.mp hp with rfl | rfl
        · rw [hmouse0, S0.record ha hport]
          exact ⟨fun _ => ⟨hactive, hq⟩, fun _ => hshown⟩
        · exact ⟨fun h => absurd h h1, fun h => absurd (hq.symm.trans h.2) (by decide)⟩
      · -- the stream is on port 1
        rw [hq] at hshown hport
        have h0 : (t.mousePort id 0).status ≠ usbMouseStreaming := by
          intro h
          rw [hmouse0] at h
          exact absurd (hq.symm.trans (ok.only 0 (Nat.zero_le 1) (S0.fewer ha h))) (by decide)
        intro p hp
        rcases Nat.le_one_iff_eq_zero_or_eq_one.mp hp with rfl | rfl
        · exact ⟨fun h => absurd h h0, fun h => absurd (hq.symm.trans h.2) (by decide)⟩
        · rw [S1.record ha₁ (by rw [hiu]; exact hport), hmouse1]
          exact ⟨fun _ => ⟨hactive, hq⟩, fun _ => hshown⟩
    · intro p hp
      rcases Nat.le_one_iff_eq_zero_or_eq_one.mp hp with rfl | rfl
      · rw [hmouse0, hhotplug0]
        exact fun h => S0.plugged ha (ok.plugged 0 hp (S0.fewer ha h)) h
      · intro h
        refine S1.plugged ha₁ ?_ h
        have h' := S1.fewer ha₁ h
        rw [hmouse1] at h'
        rw [hhotplug1]
        exact ok.plugged 1 hp h'
  | false =>
    cases ha₁ : a₁ with
    | true =>
      -- a stream has been started on port 0
      obtain ⟨hport, hready, hrecord, hentry⟩ := S0.started ha ha₁
      obtain ⟨ha₂, hct, hit⟩ := S1.kept ha₁
      have hactive : (u.controllers id).active = true := S0.bit.symm.trans ha₁
      have h1 : (t.mousePort id 1).status ≠ usbMouseStreaming := by
        intro h
        have hstale : (s.mousePort id 1).status = usbMouseStreaming := by
          rw [← hmouse1]
          exact S1.fewer ha₁ h
        have hentry1 : (u.hotplug id 1).connected = 1 := by
          rw [hhotplug1]
          exact ok.plugged 1 (Nat.le_refl 1) hstale
        refine S1.unplugged ha₁ hready ?_ hentry1 h
        by_contra hconnected
        -- port 1 is the port of the last stream, so port 0 has no record of one
        have hrecord0 : (s.mousePort id 0).status ≠ usbMouseStreaming := fun h' =>
          absurd ((ok.only 1 (Nat.le_refl 1) hstale).symm.trans (ok.only 0 (Nat.zero_le 1) h'))
            (by decide)
        rw [ha, ha₁] at h0
        have hstarts := scanPort_starts hid (hbit.symm.trans ha) hrecord0 true u h0 rfl
        exact hlinger ha ⟨hstale, u, htime1.trans hstop, hstarts, hconnected⟩
      rw [hit, HotplugTruth, hct]
      refine ⟨fun _ => hready, fun _ => by omega, fun p hp => ?_, fun p hp => ?_⟩
      · rcases Nat.le_one_iff_eq_zero_or_eq_one.mp hp with rfl | rfl
        · rw [hmouse0]
          exact ⟨fun _ => ⟨hactive, hport⟩, fun _ => hrecord⟩
        · exact ⟨fun h => absurd h h1, fun h => absurd (hport.symm.trans h.2) (by decide)⟩
      · rcases Nat.le_one_iff_eq_zero_or_eq_one.mp hp with rfl | rfl
        · rw [hhotplug0]
          exact fun _ => hentry
        · exact fun h => absurd h h1
    | false =>
      obtain ⟨hport, hgone⟩ := S0.lost ha ha₁
      rw [← hmouse0] at hgone
      cases ha₂ : a₂ with
      | true =>
        obtain ⟨hport', hready, hrecord, hentry⟩ := S1.started ha₁ ha₂
        have hactive : (t.controllers id).active = true := S1.bit.symm.trans ha₂
        refine ⟨fun _ => hready, fun _ => by omega, fun p hp => ?_, fun p hp => ?_⟩
        · rcases Nat.le_one_iff_eq_zero_or_eq_one.mp hp with rfl | rfl
          · exact ⟨fun h => absurd h hgone, fun h => absurd (hport'.symm.trans h.2) (by decide)⟩
          · exact ⟨fun _ => ⟨hactive, hport'⟩, fun _ => hrecord⟩
        · rcases Nat.le_one_iff_eq_zero_or_eq_one.mp hp with rfl | rfl
          · exact fun h => absurd h hgone
          · exact fun _ => hentry
      | false =>
        obtain ⟨-, hgone1⟩ := S1.lost ha₁ ha₂
        have hoff : ¬(t.controllers id).active = true := by
          rw [← S1.bit, ha₂]
          exact Bool.false_ne_true
        have hnone : ∀ p ≤ 1, (t.mousePort id p).status ≠ usbMouseStreaming := by
          intro p hp
          rcases Nat.le_one_iff_eq_zero_or_eq_one.mp hp with rfl | rfl
          · exact hgone
          · exact hgone1
        exact ⟨fun h => absurd h hoff, fun h => absurd h hoff,
          fun p hp => ⟨fun h => absurd h (hnone p hp), fun h => absurd h.1 hoff⟩,
          fun p hp h => absurd h (hnone p hp)⟩

/-! Polls of all controllers. -/

/-- What the state says of one controller. -/
def Usb.row (id : ℕ) (s : Usb) :
    UhciInfo × UhciController × (ℕ → UsbMousePort) × (ℕ → Hotplug) × (ℕ → ℕ) × ℕ :=
  (s.info id, s.controllers id, s.mousePort id, s.hotplug id, s.portGeneration id, s.td id)

theorem row_of_away (h : t.away id' = s.away id') (hne : id ≠ id') : t.row id = s.row id :=
  congrFun h ⟨id, hne⟩

theorem Polled.earlier {r : Usb} (P : Polled id s t) (hhw : s.hw = r.hw) (hrow : s.row id = r.row id)
    (htime : r.time ≤ s.time) : Polled id r t := by
  simp only [Usb.row, Prod.mk.injEq] at hrow
  obtain ⟨hinfo, hcontroller, -, -, hgeneration, htd⟩ := hrow
  refine ⟨by rw [← hinfo]; exact P.works, ?_, fun p hp => ?_, fun hactive => ?_⟩
  · obtain ⟨τ, h1, h2, h3⟩ := P.sound
    exact ⟨τ, htime.trans h1, h2, by rw [← hhw]; exact h3⟩
  · obtain ⟨τ, h1, h2, h3, h4⟩ := P.read p hp
    rw [Usb.noted, hgeneration, hhw] at h4
    exact ⟨τ, htime.trans h1, h2, by rw [← hhw]; exact h3, h4⟩
  · rw [← hcontroller] at hactive
    exact (P.ended hactive).imp_right fun h => h.earlier hhw hcontroller (Or.inl htd)
      fun time ht => ⟨htime.trans ht.1, ht.2⟩

theorem Polled.later {u : Usb} (P : Polled id s t) (hrow : u.row id = t.row id)
    (htime : t.time ≤ u.time) : Polled id s u := by
  simp only [Usb.row, Prod.mk.injEq] at hrow
  obtain ⟨hinfo, hcontroller, -, -, hgeneration, -⟩ := hrow
  refine ⟨P.works, ?_, fun p hp => ?_, fun hactive => ?_⟩
  · obtain ⟨τ, h1, h2, h3⟩ := P.sound
    exact ⟨τ, h1, Nat.lt_of_lt_of_le h2 htime, h3⟩
  · obtain ⟨τ, h1, h2, h3, h4⟩ := P.read p hp
    rw [hinfo, hgeneration]
    exact ⟨τ, h1, Nat.lt_of_lt_of_le h2 htime, h3, h4⟩
  · rw [hcontroller]
    exact (P.ended hactive).imp_right fun h => h.earlier rfl rfl (Or.inl rfl)
      fun time ht => ⟨ht.1, Nat.lt_of_lt_of_le ht.2 htime⟩

/-- A controller after a poll that began in `s`. -/
structure PollOk (id : ℕ) (s : Usb) (a : Bool) (t : Usb) : Prop where
  ok : UsbOk id t
  bit : a = (t.controllers id).active
  seen : a = true → SeenOn id (t.controllers id).port s.hw s.time t.time
  polled : (t.info id).status = uhciReady → Polled id s t
  records : t.mousePort id = s.mousePort id ∧ t.hotplug id = s.hotplug id ∧
    (t.info id).ioBase = (s.info id).ioBase

theorem PollOk.earlier {r : Usb} (P : PollOk id s a t) (hhw : s.hw = r.hw)
    (hrow : s.row id = r.row id) (htime : r.time ≤ s.time) : PollOk id r a t := by
  have hrow' := hrow
  simp only [Usb.row, Prod.mk.injEq] at hrow'
  refine ⟨P.ok, P.bit, fun ha => ?_, fun h => (P.polled h).earlier hhw hrow htime, ?_⟩
  · rw [← hhw]
    exact (P.seen ha).mono htime (Nat.le_refl _)
  · rw [← hrow'.1, ← hrow'.2.2.1, ← hrow'.2.2.2.1]
    exact P.records

theorem PollOk.later {u : Usb} (P : PollOk id s a t) (h : u.away id' = t.away id') (hne : id ≠ id')
    (htime : t.time ≤ u.time) : PollOk id s a u := by
  obtain ⟨hinfo, hcontrollers, hmouse, hhotplug⟩ := away_eq h hne
  refine ⟨P.ok.of_away h hne, by rw [hcontrollers]; exact P.bit, fun ha => ?_, fun hready => ?_, ?_⟩
  · rw [hcontrollers]
    exact (P.seen ha).mono (Nat.le_refl _) htime
  · exact (P.polled (hinfo ▸ hready)).later (row_of_away h hne) htime
  · rw [hinfo, hmouse, hhotplug]
    exact P.records

/-- When the ports do not change during the poll, the port of a stream is known
to be connected. -/
theorem PollOk.connected (P : PollOk id s a t) (ha : a = true)
    (hsteady : ∀ p τ τ', s.time ≤ τ → τ < t.time → s.time ≤ τ' → τ' < t.time →
      s.hw τ (.port id p) = s.hw τ' (.port id p)) :
    (t.info id).portStatus (t.controllers id).port &&& 1 ≠ 0 := by
  obtain ⟨τ, h1, h2, hon⟩ := P.seen ha
  have hactive : (t.controllers id).active = true := P.bit.symm.trans ha
  obtain ⟨τ', h1', h2', hread, -⟩ := (P.polled (P.ok.ready hactive).2).read _ (P.ok.port_le hactive)
  rw [hread, hsteady _ τ' τ h1' h2' h1 h2]
  intro h0
  have hand : (s.hw τ (.port id (t.controllers id).port) % 2 ^ 16 &&& 5) &&& 1 = 0 := by
    rw [Nat.and_right_comm, h0, Nat.zero_and]
  rw [hon] at hand
  exact absurd hand (by decide)

theorem pollController_ok (ok : UsbOk id s) : Ensures (pollController id) s fun a t =>
    PollOk id s a t ∧ t.hw = s.hw ∧ t.initialized = s.initialized ∧ s.time ≤ t.time ∧
      t.away id = s.away id := by
  have hstill : Ensures (pollController id) s fun _ t =>
      (s.controllers id).frames = false → t.info id = s.info id :=
    ensures_get_bind (ensures_ite (fun _ => ensures_pure fun _ => rfl) fun h =>
      fun _ _ _ hoff => absurd (Or.inl hoff) h)
  have hbase : Within (fun s t : Usb => (t.info id).ioBase = (s.info id).ioBase)
      (pollController id) := by
    have R : PollRule (fun s t : Usb => (t.info id).ioBase = (s.info id).ioBase) :=
      ⟨fun _ _ h => h.ioBase id, fun i => within_bind within_get fun _ =>
        within_bind (within_modify fun _ => rfl) fun _ =>
        within_bind (within_modify fun _ => rfl) fun _ => within_modify fun _ => rfl⟩
    exact R.pollController
  refine ((pollController_alive ok.ready).and ((calm_pollController.ensures s).and
    ((advances_pollController s).and (hstill.and (hbase.ensures s))))).mono ?_
  rintro a t ⟨⟨hbit, halive, hpolled⟩, hcalm, htime, hstill, hbase⟩
  have hcalm' := hcalm
  simp only [Usb.calm, Prod.mk.injEq] at hcalm'
  obtain ⟨hhw, ⟨hinit, -⟩, haway, hframes, hport, hmouse, hhotplug⟩ := hcalm'
  have ok' : UsbOk id t :=
    ok.of_calm hcalm hstill fun h => ⟨(halive h).before, (halive h).ready⟩
  refine ⟨⟨ok', hbit, fun ha => ?_, fun hready => ?_, hmouse, hhotplug, hbase⟩, hhw, hinit, htime, haway⟩
  · rw [hport]
    exact (halive (hbit.symm.trans ha)).seen
  · exact hpolled (hframes.symm.trans (ok'.built hready)) hready

theorem pollControllers_spec (hok : ∀ id < uhciControllerCount, UsbOk id s) :
    ∀ n ≤ uhciControllerCount, Ensures (pollControllers n) s fun active t =>
      (∀ id < n, PollOk id s (active id) t) ∧
      (∀ id, n ≤ id → id < uhciControllerCount → UsbOk id t ∧ t.row id = s.row id) ∧
      t.hw = s.hw ∧ t.initialized = s.initialized ∧ s.time ≤ t.time
  | 0, _ => ensures_pure ⟨fun _ h => absurd h (Nat.not_lt_zero _), fun id _ h => ⟨hok id h, rfl⟩, rfl,
      rfl, Nat.le_refl _⟩
  | n + 1, hn => by
    refine ensures_bind (pollControllers_spec hok n (by omega)) ?_
    rintro active u ⟨hpolled, hrest, hhw, hinit, htime⟩
    obtain ⟨hokn, hrown⟩ := hrest n (Nat.le_refl n) (by omega)
    refine ensures_bind (pollController_ok hokn) ?_
    rintro a t ⟨P, hhw', hinit', htime', haway⟩
    refine ensures_pure ⟨fun id hid => ?_, fun id h1 h2 => ?_, hhw'.trans hhw, hinit'.trans hinit,
      htime.trans htime'⟩
    · rcases Nat.lt_succ_iff_lt_or_eq.mp hid with h | rfl
      · rw [Function.update_of_ne (Nat.ne_of_lt h)]
        exact (hpolled id h).later haway (Nat.ne_of_lt h) htime'
      · rw [Function.update_self]
        exact P.earlier hhw hrown htime
    · obtain ⟨h, hrow⟩ := hrest id (by omega) h2
      have hne : id ≠ n := by omega
      exact ⟨h.of_away haway hne, (row_of_away haway hne).trans hrow⟩

/-- **`usb_host_poll`.** -/
theorem usbHostPoll_spec (hok : ∀ id < uhciControllerCount, UsbOk id s) :
    Ensures usbHostPoll s fun active t => (∀ id < uhciControllerCount, UsbOk id t) ∧
      (t.ticksPerMs = 0 ∨ ∀ id < uhciControllerCount, PollOk id s (active id) t) ∧
      t.hw = s.hw ∧ t.initialized = s.initialized ∧ s.time ≤ t.time := by
  refine ensures_get_bind (ensures_ite
    (fun h => ensures_pure ⟨hok, Or.inl h, rfl, rfl, Nat.le_refl _⟩) fun _ => ?_)
  refine ensures_modify_bind ?_
  have hok' : ∀ id < uhciControllerCount, UsbOk id { s with polls := (s.polls + 1) % 2 ^ 32 } :=
    fun id hid => ⟨(hok id hid).built, (hok id hid).ready, (hok id hid).port_le, (hok id hid).shown,
      (hok id hid).only, (hok id hid).plugged⟩
  refine (pollControllers_spec hok' _ (Nat.le_refl _)).mono ?_
  rintro active t ⟨hpolled, -, hhw, hinit, htime⟩
  exact ⟨fun id hid => (hpolled id hid).ok, Or.inr fun id hid => (hpolled id hid).earlier rfl rfl
    (Nat.le_refl _), hhw, hinit, htime⟩

theorem usbUhciHotplugDue_spec (s : Usb) : Ensures usbUhciHotplugDue s fun due t =>
    (due = true → s.ticksPerMs ≠ 0) ∧ t.hw = s.hw ∧ t.info = s.info ∧ t.controllers = s.controllers ∧
      t.mousePort = s.mousePort ∧ t.hotplug = s.hotplug ∧ (∀ id, t.row id = s.row id) ∧
      s.time ≤ t.time := by
  refine ensures_get_bind (ensures_ite (fun _ => ensures_pure ?_) fun h => ?_)
  · exact ⟨fun h => absurd h Bool.false_ne_true, rfl, rfl, rfl, rfl, rfl, fun _ => rfl, Nat.le_refl _⟩
  refine ensures_modifyGet_bind (ensures_get_bind (ensures_ite (fun _ => ensures_pure ?_) fun _ => ?_))
  · exact ⟨fun _ => h, rfl, rfl, rfl, rfl, rfl, fun _ => rfl, Nat.le_succ _⟩
  · exact ensures_modify_bind
      (ensures_pure ⟨fun _ => h, rfl, rfl, rfl, rfl, rfl, fun _ => rfl, Nat.le_succ _⟩)

/-! Scans of all controllers. -/

theorem scanControllers_spec {active : ℕ → Bool}
    (hok : ∀ id < uhciControllerCount, UsbOk id s)
    (hbit : ∀ id < uhciControllerCount, active id = (s.controllers id).active)
    (hon : ∀ id < uhciControllerCount, active id = true →
      (s.info id).portStatus (s.controllers id).port &&& 1 ≠ 0)
    {stop : ℕ} (hlinger : ∀ id < uhciControllerCount, ∀ t : Usb, t.hw = s.hw → s.time ≤ t.time →
      t.row id = s.row id → active id = false → ¬Lingers id t stop) :
    ∀ n ≤ uhciControllerCount, Ensures (scanControllers active n) s fun _ t =>
      (t.hw = s.hw ∧ s.time ≤ t.time) ∧
      (t.time ≤ stop → ∀ id < n, UsbOk id t ∧ HotplugTruth id t) ∧ ∀ id, n ≤ id → t.row id = s.row id
  | 0, _ => ensures_pure ⟨⟨rfl, Nat.le_refl _⟩, fun _ _ h => absurd h (Nat.not_lt_zero _),
      fun _ _ => rfl⟩
  | n + 1, hn => by
    intro a' t hrun
    obtain ⟨count, u, h1, h2⟩ := run_bind_eq_some.mp hrun
    obtain ⟨⟨hhw, htime⟩, hdone, hrest⟩ :=
      scanControllers_spec hok hbit hon hlinger n (by omega) count u h1
    have hlt : n < uhciControllerCount := by omega
    -- the controllers before this one have left its row as it was
    have hrow := hrest n (Nat.le_refl n)
    have hparts := hrow
    simp only [Usb.row, Prod.mk.injEq] at hparts
    obtain ⟨hinfo, hcontrollers, hmouse, hhotplug, -, -⟩ := hparts
    -- so it still stands as before the scan
    have ok : UsbOk n u := by
      have h := hok n hlt
      constructor
      · rw [hinfo, hcontrollers]; exact h.built
      · rw [StreamReady, hinfo, hcontrollers]; exact h.ready
      · rw [hcontrollers]; exact h.port_le
      · rw [hcontrollers, hmouse]; exact h.shown
      · rw [hcontrollers, hmouse]; exact h.only
      · rw [hmouse, hhotplug]; exact h.plugged
    have hscan := scanController_spec (a := active n) hlt ok (by rw [hcontrollers]; exact hbit n hlt)
      (by rw [hinfo, hcontrollers]; exact hon n hlt) (hlinger n hlt u hhw htime hrow)
    -- and its own scan touches no other row
    have hpost := ensures_bind hscan (f := fun a => (pure (count + a.toNat) : UsbM ℕ))
      (R := fun _ t => (t.hw = u.hw ∧ u.time ≤ t.time ∧ t.away n = u.away n) ∧
        (t.time ≤ stop → UsbOk n t ∧ HotplugTruth n t)) (fun _ _ h => ensures_pure h)
    obtain ⟨⟨hhw', htime', haway⟩, hlast⟩ := hpost a' t h2
    refine ⟨⟨hhw'.trans hhw, htime.trans htime'⟩, fun hstop id hid => ?_, fun id hid => ?_⟩
    · rcases Nat.lt_succ_iff_lt_or_eq.mp hid with h | rfl
      · obtain ⟨-, hc, hm, -⟩ := away_eq haway (Nat.ne_of_lt h)
        obtain ⟨ok', htruth⟩ := hdone (htime'.trans hstop) id h
        refine ⟨ok'.of_away haway (Nat.ne_of_lt h), ?_⟩
        rw [HotplugTruth, hc, hm]
        exact htruth
      · exact hlast hstop
    · exact (row_of_away haway (show id ≠ n by omega)).trans (hrest id (by omega))

/-! Boot and interrupts. -/

/-- A controller before `usb_mouse_initialize`: no stream, no record. -/
structure UsbFresh (id : ℕ) (s : Usb) : Prop where
  built : (s.info id).status = uhciReady → (s.controllers id).frames = true
  inactive : (s.controllers id).active = false
  record : ∀ p ≤ 1, (s.mousePort id p).status = usbMouseNotProbed

theorem UsbFresh.of_away (F : UsbFresh id s) (h : t.away id' = s.away id') (hne : id ≠ id') :
    UsbFresh id t := by
  obtain ⟨hinfo, hcontrollers, hmouse, -⟩ := away_eq h hne
  exact ⟨by rw [hinfo, hcontrollers]; exact F.built, by rw [hcontrollers]; exact F.inactive,
    by rw [hmouse]; exact F.record⟩

theorem initializePort_spec (hid : id < uhciControllerCount) {p : ℕ} (hp : p ≤ 1) (s : Usb) :
    Ensures (initializePort id p) s (Probed id p s) := by
  refine ensures_bind (usbMouseProbePort_spec hid hp s) fun ok t h => ?_
  refine ensures_ite (fun hok => ensures_modify_bind (ensures_pure ?_)) fun hok => ensures_pure ?_
  · have S := h.1 hok
    exact ⟨fun _ => ⟨S.around, S.active, S.port_eq, S.ready, S.record, S.port_on, S.beside⟩,
      fun h => absurd h.symm Bool.false_ne_true⟩
  · exact ⟨fun h => absurd h Bool.false_ne_true, fun _ => h.2 (Bool.not_eq_true _ ▸ hok)⟩

/-- The streams and records of a controller after the probes at boot. -/
structure BootPorts (id : ℕ) (s t : Usb) : Prop where
  hw : t.hw = s.hw
  away : t.away id = s.away id
  frames : (t.controllers id).frames = (s.controllers id).frames
  idle : (t.controllers id).active = false → ∀ p ≤ 1, (t.mousePort id p).status ≠ usbMouseStreaming
  busy : (t.controllers id).active = true → (t.controllers id).port ≤ 1 ∧
    (t.info id).status = uhciReady ∧
    (t.info id).portStatus (t.controllers id).port &&& 5 = 5 ∧
    ∀ p ≤ 1, (t.mousePort id p).status = usbMouseStreaming ↔ (t.controllers id).port = p

theorem initializePorts_spec (hid : id < uhciControllerCount)
    (hoff : (s.controllers id).active = false)
    (hrecord : ∀ p ≤ 1, (s.mousePort id p).status ≠ usbMouseStreaming) :
    Ensures (initializePorts id) s fun _ t => BootPorts id s t := by
  refine ensures_bind (initializePort_spec hid (Nat.zero_le 1) s) fun ok u h => ?_
  refine ensures_ite (fun hok => ensures_pure ?_) fun hok => ?_
  · -- a mouse on port 0: port 1 is not looked at
    have S := h.1 hok
    have haround := S.around
    simp only [Usb.around, Prod.mk.injEq] at haround
    obtain ⟨hhw, -, haway, hframes, hbeside, -⟩ := haround
    have h1 : u.mousePort id 1 = s.mousePort id 1 := congrFun hbeside ⟨1, by decide⟩
    refine ⟨hhw, haway, hframes, fun h => absurd (h.symm.trans S.active) Bool.false_ne_true, fun _ => ?_⟩
    rw [S.port_eq]
    refine ⟨Nat.zero_le 1, S.ready, S.port_on, fun p hp => ?_⟩
    rcases Nat.le_one_iff_eq_zero_or_eq_one.mp hp with rfl | rfl
    · exact ⟨fun _ => rfl, fun _ => S.record⟩
    · rw [h1]
      exact ⟨fun h => absurd h (hrecord 1 hp), fun h => absurd h (by decide)⟩
  -- none on port 0: its record does not say streaming, and neither does that of port 1
  have P := h.2 (Bool.not_eq_true _ ▸ hok)
  have haround := P.around
  have hstream := P.stream
  simp only [Usb.around, Prod.mk.injEq] at haround
  simp only [Usb.stream, Prod.mk.injEq] at hstream
  obtain ⟨hhw, -, haway, hframes, hbeside, -⟩ := haround
  have h1 : u.mousePort id 1 = s.mousePort id 1 := congrFun hbeside ⟨1, by decide⟩
  have hoff' : (u.controllers id).active = false := hstream.2.1.trans hoff
  have hnone : ∀ p ≤ 1, (u.mousePort id p).status ≠ usbMouseStreaming := by
    intro p hp
    rcases Nat.le_one_iff_eq_zero_or_eq_one.mp hp with rfl | rfl
    · exact P.record
    · rw [h1]
      exact hrecord 1 hp
  refine ensures_get_bind (ensures_ite (fun _ => ensures_pure ?_) fun _ => ?_)
  · exact ⟨hhw, haway, hframes, fun _ => hnone,
      fun h => absurd (hoff'.symm.trans h) Bool.false_ne_true⟩
  refine ensures_bind (initializePort_spec hid (Nat.le_refl 1) u) fun ok' t h' => ensures_pure ?_
  cases ok' with
  | true =>
    have S := h'.1 rfl
    have haround' := S.around
    simp only [Usb.around, Prod.mk.injEq] at haround'
    obtain ⟨hhw', -, haway', hframes', hbeside', -⟩ := haround'
    have h0 : t.mousePort id 0 = u.mousePort id 0 := congrFun hbeside' ⟨0, by decide⟩
    refine ⟨hhw'.trans hhw, haway'.trans haway, hframes'.trans hframes,
      fun h => absurd (h.symm.trans S.active) Bool.false_ne_true, fun _ => ?_⟩
    rw [S.port_eq]
    refine ⟨Nat.le_refl 1, S.ready, S.port_on, fun p hp => ?_⟩
    rcases Nat.le_one_iff_eq_zero_or_eq_one.mp hp with rfl | rfl
    · rw [h0]
      exact ⟨fun h => absurd h (hnone 0 hp), fun h => absurd h (by decide)⟩
    · exact ⟨fun _ => rfl, fun _ => S.record⟩
  | false =>
    have P' := h'.2 rfl
    have haround' := P'.around
    have hstream' := P'.stream
    simp only [Usb.around, Prod.mk.injEq] at haround'
    simp only [Usb.stream, Prod.mk.injEq] at hstream'
    obtain ⟨hhw', -, haway', hframes', hbeside', -⟩ := haround'
    have h0 : t.mousePort id 0 = u.mousePort id 0 := congrFun hbeside' ⟨0, by decide⟩
    refine ⟨hhw'.trans hhw, haway'.trans haway, hframes'.trans hframes, fun _ p hp => ?_, fun h => ?_⟩
    · rcases Nat.le_one_iff_eq_zero_or_eq_one.mp hp with rfl | rfl
      · rw [h0]
        exact hnone 0 hp
      · exact P'.record
    · exact absurd ((hstream'.2.1.trans hoff').symm.trans h) Bool.false_ne_true

theorem initializeHotplug_spec (p : ℕ) (s : Usb) : Ensures (initializeHotplug id p) s fun _ t =>
    t.others id p = s.others id p ∧ t.mousePort = s.mousePort ∧
      (t.hotplug id p).connected = (s.info id).portStatus p &&& 1 := by
  refine ensures_get_bind (ensures_modify_bind ?_)
  refine (((others_setHotplug _).ensures _).and (setHotplug_entry _ _)).mono ?_
  rintro - t ⟨hothers, hentry, hmouse⟩
  exact ⟨hothers, hmouse, by rw [hentry]⟩

theorem UsbFresh.ok (F : UsbFresh id s) : UsbOk id s := by
  have hnone : ∀ p ≤ 1, (s.mousePort id p).status ≠ usbMouseStreaming := by
    intro p hp
    rw [F.record p hp]
    decide
  have hoff : ¬(s.controllers id).active = true := by
    rw [F.inactive]
    exact Bool.false_ne_true
  exact ⟨F.built, fun h => absurd h hoff, fun h => absurd h hoff, fun h => absurd h hoff,
    fun p hp h => absurd h (hnone p hp), fun p hp h => absurd h (hnone p hp)⟩

/-- **A controller after boot.** -/
theorem initializeController_spec (hid : id < uhciControllerCount) (F : UsbFresh id s) :
    Ensures (initializeController id) s fun _ t =>
      UsbOk id t ∧ t.away id = s.away id ∧ t.hw = s.hw := by
  refine ensures_get_bind (ensures_ite (fun _ => ensures_pure ⟨F.ok, rfl, rfl⟩) fun hready => ?_)
  have hframes : (s.controllers id).frames = true := F.built (not_not.mp hready)
  refine ensures_bind (keeps_usbUhciDisablePort.ensures s) fun _ s₁ hframe₁ => ?_
  refine ensures_bind (keeps_usbUhciDisablePort.ensures s₁) fun _ s₂ hframe₂ => ?_
  have hframe : s₂.frame id = s.frame id := hframe₂.trans hframe₁
  obtain ⟨-, hstream, hmouse, -⟩ := @around_of_frame id 0 _ _ hframe
  have haway₂ : s₂.away id = s.away id := congrArg (fun v => v.2.2.1) hframe
  have hhw₂ : s₂.hw = s.hw := congrArg Prod.fst hframe
  simp only [Usb.stream, Prod.mk.injEq] at hstream
  -- disabling both ports has touched nothing of the driver
  refine ensures_bind (initializePorts_spec hid (hstream.2.1.trans F.inactive) (fun p hp => ?_)) ?_
  · rw [hmouse, F.record p hp]
    decide
  intro _ s₃ B
  -- the two hot-plug entries are set to what the registers show
  refine ensures_bind (initializeHotplug_spec 0 s₃) ?_
  rintro - s₄ ⟨hothers₄, hmouse₄, hentry₄⟩
  refine (initializeHotplug_spec 1 s₄).mono ?_
  rintro - t ⟨hothers₅, hmouse₅, hentry₅⟩
  obtain ⟨hhw₄, -, hinfo₄, hc₄, -, haway₄, -⟩ := others_eq hothers₄
  obtain ⟨hhw₅, -, hinfo₅, hc₅, -, haway₅, hbeside₅⟩ := others_eq hothers₅
  have hc : t.controllers = s₃.controllers := hc₅.trans hc₄
  have hi : t.info = s₃.info := hinfo₅.trans hinfo₄
  have hm : t.mousePort = s₃.mousePort := hmouse₅.trans hmouse₄
  have hentry : ∀ p ≤ 1, (t.hotplug id p).connected = (s₃.info id).portStatus p &&& 1 := by
    intro p hp
    rcases Nat.le_one_iff_eq_zero_or_eq_one.mp hp with rfl | rfl
    · rw [(hbeside₅ 0 (by decide)).2]
      exact hentry₄
    · rw [hentry₅, hinfo₄]
  refine ⟨?_, haway₅.trans (haway₄.trans (B.away.trans haway₂)),
    hhw₅.trans (hhw₄.trans (B.hw.trans hhw₂))⟩
  have hbuilt : (t.controllers id).frames = true := by
    rw [hc, B.frames, hstream.1]
    exact hframes
  cases hactive : (s₃.controllers id).active with
  | false =>
    have hnone := B.idle hactive
    have hoff : ¬(t.controllers id).active = true := by
      rw [hc, hactive]
      exact Bool.false_ne_true
    exact ⟨fun _ => hbuilt, fun h => absurd h hoff, fun h => absurd h hoff, fun h => absurd h hoff,
      fun p hp h => absurd (hm ▸ h) (hnone p hp), fun p hp h => absurd (hm ▸ h) (hnone p hp)⟩
  | true =>
    obtain ⟨hle, hready₃, hon, htruth⟩ := B.busy hactive
    refine ⟨fun _ => hbuilt, fun _ => ⟨hbuilt, by rw [hi]; exact hready₃⟩, ?_, ?_, ?_, ?_⟩
    · intro _
      rw [hc]
      exact hle
    · intro _
      rw [hc, hm]
      exact (htruth _ hle).mpr rfl
    · intro p hp h
      rw [hm] at h
      rw [hc]
      exact (htruth p hp).mp h
    · intro p hp h
      rw [hm] at h
      rw [hentry p hp, ← (htruth p hp).mp h]
      have hle' : (s₃.info id).portStatus (s₃.controllers id).port &&& 1 ≤ 1 := Nat.and_le_right
      have hne : (s₃.info id).portStatus (s₃.controllers id).port &&& 1 ≠ 0 := by
        intro h0
        have hand : ((s₃.info id).portStatus (s₃.controllers id).port &&& 5) &&& 1 = 0 := by
          rw [Nat.and_right_comm, h0, Nat.zero_and]
        rw [hon] at hand
        exact absurd hand (by decide)
      omega

theorem initializeControllers_spec (hfresh : ∀ id < uhciControllerCount, UsbFresh id s) :
    ∀ n ≤ uhciControllerCount, Ensures (initializeControllers n) s fun _ t =>
      (∀ id < n, UsbOk id t) ∧ (∀ id, n ≤ id → id < uhciControllerCount → UsbFresh id t) ∧
        t.hw = s.hw
  | 0, _ => ensures_pure ⟨fun _ h => absurd h (Nat.not_lt_zero _), fun id _ h => hfresh id h, rfl⟩
  | n + 1, hn => by
    refine ensures_bind (initializeControllers_spec hfresh n (by omega)) ?_
    rintro - u ⟨hdone, hrest, hhw⟩
    refine (initializeController_spec (by omega) (hrest n (Nat.le_refl n) (by omega))).mono ?_
    rintro - t ⟨ok, haway, hhw'⟩
    refine ⟨fun id hid => ?_, fun id h1 h2 => (hrest id (by omega) h2).of_away haway (by omega),
      hhw'.trans hhw⟩
    rcases Nat.lt_succ_iff_lt_or_eq.mp hid with h | rfl
    · exact (hdone id h).of_away haway (Nat.ne_of_lt h)
    · exact ok

theorem serviceController_ok (fromIrq : Bool) (ok : UsbOk id s) :
    Ensures (serviceController id fromIrq) s fun _ t => UsbOk id t ∧ t.away id = s.away id := by
  have hstill : Ensures (serviceController id fromIrq) s fun _ t =>
      (s.controllers id).frames = false → t.info id = s.info id :=
    ensures_get_bind (ensures_ite (fun _ => ensures_pure fun _ => rfl) fun h =>
      fun _ _ _ hoff => absurd (Or.inl hoff) h)
  refine ((serviceController_alive fromIrq ok.ready).and
    (((calm_serviceController fromIrq).ensures s).and hstill)).mono ?_
  rintro - t ⟨halive, hcalm, hstill⟩
  exact ⟨ok.of_calm hcalm hstill fun h => ⟨(halive h).1, (halive h).2.1⟩,
    congrArg (fun v => v.2.2.1) hcalm⟩

theorem interruptControllers_spec (gsi : ℕ) : ∀ n ≤ uhciControllerCount, ∀ {s : Usb},
    (∀ id < uhciControllerCount, UsbOk id s) → Ensures (interruptControllers gsi n) s fun _ t =>
      ∀ id < uhciControllerCount, UsbOk id t
  | 0, _, _, hok => ensures_pure hok
  | n + 1, hn, _, hok => by
    refine ensures_bind (interruptControllers_spec gsi n (by omega) hok) fun _ u hok => ?_
    refine ensures_get_bind (ensures_ite (fun _ => ?_) fun _ => ensures_pure hok)
    refine ensures_bind (serviceController_ok true (hok n (by omega))) ?_
    rintro - t ⟨ok, haway⟩
    refine ensures_pure fun id hid => ?_
    by_cases hne : id = n
    · rw [hne]
      exact ok
    · exact (hok id hid).of_away haway hne

end Invariant

/-! ### Runs -/

/-- The state that `usb_host_initialize` leaves: no streams and no records. -/
def UsbBooted (s : Usb) : Prop :=
  s.initialized = false ∧ ∀ id < uhciControllerCount, UsbFresh id s

/-- A time at which the hardware answers `usb_host_poll`, called in `s`. -/
def PollTime (s : Usb) (time : ℕ) : Prop :=
  ∃ active t, usbHostPoll.run s = some (active, t) ∧ s.time ≤ time ∧ time < t.time

/-- The port registers do not change while `usb_host_poll` runs. -/
def PollSteady (s : Usb) : Prop :=
  ∀ id p τ τ', PollTime s τ → PollTime s τ' → s.hw τ (.port id p) = s.hw τ' (.port id p)

/-- What happens before and during a service, called in `s` and over at `stop`, when
a mouse on port 0 takes over from the stream of port 1.  Before the call the record of
port 1 speaks of a stream, and port 0 is known to be connected and not tried.  In the
poll the controller reports no error, the stream has ended or is seen to end, and
port 0 is still the port that is waiting.  Then the device on port 0 answers a probe
as a mouse does, while port 1 read as connected just before. -/
structure TakenOver (id : ℕ) (s : Usb) (stop : ℕ) : Prop where
  record : (s.mousePort id 1).status = usbMouseStreaming
  waiting : (s.hotplug id 0).connected = 1 ∧ (s.hotplug id 0).attempted = 0
  works : (s.info id).status ≠ uhciControllerError
  sound : ∃ τ, PollTime s τ ∧ s.hw τ (.status id) % 2 ^ 16 &&& 0x18 = 0
  ended : (s.controllers id).active = true → StreamEnds id s (PollTime s)
  unchanged : ∃ τ, PollTime s τ ∧ s.hw τ (.port id 0) % 2 ^ 16 &&& 1 = 1 ∧
    (s.hotplug id 0).generation = s.noted id 0 (s.hw τ (.port id 0) % 2 ^ 16)
  probe : ∃ u v, u.hw = s.hw ∧ s.time ≤ u.time ∧ v.time ≤ stop ∧
    (usbMouseProbePort id 0).run u = some (true, v) ∧
    ((s.info id).ioBase = 0 ∨ s.hw (u.time - 1) (.port id 1) % 2 ^ 16 &&& 1 ≠ 0)

/-- No stream is taken over in a service from `s` that is over at `stop`. -/
def NotTakenOver (s : Usb) (stop : ℕ) : Prop := ∀ id < uhciControllerCount, ¬TakenOver id s stop

/-- The states between the calls of a run whose scans satisfy `C`, which speaks of
the state before the service and of the time at which it is over: the hardware may do
anything between two answers, but the ports do not change within a poll. -/
inductive UsbRun (C : Usb → ℕ → Prop) : Usb → Prop
  | boot {s t : Usb} {count : ℕ} : UsbBooted s →
      usbMouseInitialize.run s = some (count, t) → UsbRun C t
  | interrupt {s t : Usb} (gsi : ℕ) : UsbRun C s →
      (usbHostInterrupt gsi).run s = some ((), t) → UsbRun C t
  | service {s t : Usb} {scanned : Bool} : UsbRun C s → PollSteady s →
      usbMouseService.run s = some (scanned, t) → (scanned = true → C s t.time) → UsbRun C t

section Run

variable {s t : Usb}

theorem usbMouseInitialize_spec (h : UsbBooted s) : Ensures usbMouseInitialize s fun _ t =>
    (∀ id < uhciControllerCount, UsbOk id t) ∧ t.hw = s.hw := by
  refine ensures_get_bind (ensures_ite (fun h' => ?_) fun _ => ensures_modify_bind ?_)
  · exact absurd (h.1.symm.trans h') Bool.false_ne_true
  have hfresh : ∀ id < uhciControllerCount, UsbFresh id { s with initialized := true } :=
    fun id hid => ⟨(h.2 id hid).built, (h.2 id hid).inactive, (h.2 id hid).record⟩
  refine ensures_bind (initializeControllers_spec hfresh _ (Nat.le_refl _)) ?_
  rintro - u ⟨hok, -, hhw⟩
  refine ensures_modify_bind (ensures_get_bind (ensures_pure ⟨fun id hid => ?_, hhw⟩))
  exact ⟨(hok id hid).built, (hok id hid).ready, (hok id hid).port_le, (hok id hid).shown,
    (hok id hid).only, (hok id hid).plugged⟩

theorem usbHostInterrupt_spec (gsi : ℕ) (hok : ∀ id < uhciControllerCount, UsbOk id s) :
    Ensures (usbHostInterrupt gsi) s fun _ t => ∀ id < uhciControllerCount, UsbOk id t := by
  refine ensures_bind (interruptControllers_spec gsi _ (Nat.le_refl _) hok) fun claimed u hok => ?_
  have hkeeps : Keeps (fun s : Usb => (s.info, s.controllers, s.mousePort, s.hotplug))
      (maskRoute gsi) :=
    keeps_bind (keeps_modifyGet fun _ => rfl) fun _ => keeps_bind (keeps_modify fun _ => rfl) fun _ =>
      keeps_modify fun _ => rfl
  refine ensures_ite (fun _ => ensures_modify fun id hid => (hok id hid).of_eq rfl rfl rfl rfl) ?_
  refine fun _ => ensures_get_bind (ensures_modify_bind (ensures_ite (fun _ => ensures_pure ?_) ?_))
  · exact fun id hid => (hok id hid).of_eq rfl rfl rfl rfl
  · refine fun _ => (hkeeps.ensures _).mono fun _ t heq id hid => ?_
    simp only [Prod.mk.injEq] at heq
    exact (hok id hid).of_eq heq.1 heq.2.1 heq.2.2.1 heq.2.2.2

/-- A scan whose record lingers is one in which a stream has been taken over. -/
theorem TakenOver.of_lingers {id : ℕ} {active : ℕ → Bool} {u w : Usb} {stop : ℕ}
    (hpoll : usbHostPoll.run s = some (active, u)) (P : PollOk id s (active id) u)
    (hoff : active id = false) (hrow : w.row id = u.row id) (hhw : w.hw = s.hw)
    (htime : s.time ≤ w.time) (h : Lingers id w stop) : TakenOver id s stop := by
  have htimes : ∀ time, s.time ≤ time ∧ time < u.time → PollTime s time := fun time ht =>
    ⟨active, u, hpoll, ht⟩
  simp only [Usb.row, Prod.mk.injEq] at hrow
  obtain ⟨hinfo, -, hmouse, hhotplug, hgeneration, -⟩ := hrow
  obtain ⟨hrecord, t, hstop, hstarts, hconnected⟩ := h
  have hready : (u.info id).status = uhciReady := hinfo ▸ hstarts.ready
  have Q := P.polled hready
  have hentry : s.hotplug id 0 = ⟨u.portGeneration id 0, 1, 0⟩ := by
    rw [← P.records.2.1, ← hhotplug, hstarts.entry, hgeneration]
  refine ⟨?_, by rw [hentry]; exact ⟨rfl, rfl⟩, Q.works, ?_, fun hactive => ?_, ?_, ?_⟩
  · rw [← P.records.1, ← hmouse]
    exact hrecord
  · obtain ⟨τ, h1, h2, hsound⟩ := Q.sound
    exact ⟨τ, htimes τ ⟨h1, h2⟩, hsound⟩
  · refine ((Q.ended hactive).resolve_left ?_).earlier rfl rfl (Or.inl rfl) htimes
    rw [← P.bit, hoff]
    exact Bool.false_ne_true
  · obtain ⟨τ, h1, h2, hread, hnoted⟩ := Q.read 0 (Nat.zero_le 1)
    refine ⟨τ, htimes τ ⟨h1, h2⟩, ?_, by rw [hentry]; exact hnoted⟩
    rw [← hread, ← hinfo]
    exact hstarts.connected
  · obtain ⟨x, hx, hlater, hrun, hread⟩ := hstarts.probe
    refine ⟨x, t, hx.trans hhw, htime.trans hlater, hstop, hrun, ?_⟩
    rw [hhw] at hread
    refine hread.imp (fun h => ?_) fun h => by rw [← h]; exact hconnected
    rw [← P.records.2.2, ← hinfo]
    exact h

/-- **`usb_mouse_service`** keeps the invariant, and after a scan the records
tell the truth, unless a stream has been taken over. -/
theorem usbMouseService_spec (hok : ∀ id < uhciControllerCount, UsbOk id s)
    (hsteady : PollSteady s) : Ensures usbMouseService s fun scanned t =>
      (scanned = true → NotTakenOver s t.time) →
        t.hw = s.hw ∧ (∀ id < uhciControllerCount, UsbOk id t) ∧
          (scanned = true → ∀ id < uhciControllerCount, HotplugTruth id t) := by
  have hno : ∀ t : Usb, t.hw = s.hw → (∀ id < uhciControllerCount, UsbOk id t) →
      (false = true → NotTakenOver s t.time) →
        t.hw = s.hw ∧ (∀ id < uhciControllerCount, UsbOk id t) ∧
          (false = true → ∀ id < uhciControllerCount, HotplugTruth id t) :=
    fun t h0 h _ => ⟨h0, h, fun h' => absurd h' Bool.false_ne_true⟩
  refine ensures_get_bind (ensures_ite (fun _ => ensures_pure (hno _ rfl hok)) fun _ => ?_)
  intro scanned t hrun
  obtain ⟨active, u, hpoll, hrun⟩ := run_bind_eq_some.mp hrun
  obtain ⟨due, v, hdue, hrun⟩ := run_bind_eq_some.mp hrun
  obtain ⟨hok₁, hpolled, hhw, -, htime⟩ := usbHostPoll_spec hok active u hpoll
  obtain ⟨hticks, hhw', hinfo, hcontrollers, hmouse, hhotplug, hrow, htime'⟩ :=
    usbUhciHotplugDue_spec u due v hdue
  have hok₂ : ∀ id < uhciControllerCount, UsbOk id v := by
    intro id hid
    exact (hok₁ id hid).of_eq hinfo hcontrollers hmouse hhotplug
  cases due with
  | false =>
    obtain ⟨rfl, rfl⟩ := Prod.mk.inj (Option.some.inj hrun)
    exact hno _ (hhw'.trans hhw) hok₂
  | true =>
    obtain ⟨count, w, h1, h2⟩ := run_bind_eq_some.mp hrun
    have hmodify : scanned = true ∧ t = { w with mouseCount := count } :=
      ensures_modify_bind (s := w) (g := fun s : Usb => { s with mouseCount := count })
        (f := fun _ => (pure true : UsbM Bool)) (R := fun a t => a = true ∧
          t = { w with mouseCount := count }) (ensures_pure ⟨rfl, rfl⟩) scanned t h2
    obtain ⟨rfl, rfl⟩ := hmodify
    have hpolled' := hpolled.resolve_left (hticks rfl)
    intro hcareful
    -- a record that lingers in a scan of this service would be one of `TakenOver`
    have hlinger : ∀ id < uhciControllerCount, ∀ x : Usb, x.hw = v.hw → v.time ≤ x.time →
        x.row id = v.row id → active id = false → ¬Lingers id x w.time := by
      intro id hid x hxhw hxtime hxrow hoff h
      exact hcareful rfl id hid (.of_lingers hpoll (hpolled' id hid) hoff (hxrow.trans (hrow id))
        (hxhw.trans (hhw'.trans hhw)) ((htime.trans htime').trans hxtime) h)
    have hscan := scanControllers_spec hok₂
      (fun id hid => by rw [hcontrollers]; exact (hpolled' id hid).bit)
      (fun id hid ha => by
        rw [hinfo, hcontrollers]
        exact (hpolled' id hid).connected ha fun p τ τ' h1 h2 h1' h2' =>
          hsteady id p τ τ' ⟨active, u, hpoll, h1, h2⟩ ⟨active, u, hpoll, h1', h2'⟩)
      hlinger _ (Nat.le_refl _)
    obtain ⟨⟨hhw'', -⟩, hdone, -⟩ := hscan count w h1
    have hdone' := hdone (Nat.le_refl _)
    exact ⟨hhw''.trans (hhw'.trans hhw), fun id hid => (hdone' id hid).1.of_eq rfl rfl rfl rfl,
      fun _ id hid => (hdone' id hid).2⟩

theorem UsbRun.ok (h : UsbRun NotTakenOver s) : ∀ id < uhciControllerCount, UsbOk id s := by
  induction h with
  | boot hboot hrun => exact (usbMouseInitialize_spec hboot _ _ hrun).1
  | interrupt gsi _ hrun ih => exact usbHostInterrupt_spec gsi ih _ _ hrun
  | service _ hsteady hrun hcareful ih =>
    exact (usbMouseService_spec ih hsteady _ _ hrun hcareful).2.1

end Run

/-! ### A record that lingers -/

/-- The descriptors of a full-speed boot mouse. -/
def mouseDevice (i : ℕ) : ℕ := [18, 1, 0, 2, 0, 0, 0, 64, 0, 0, 0, 0, 0, 0, 0, 0, 0, 1].getD i 0

def mouseConfiguration (i : ℕ) : ℕ :=
  [9, 2, 25, 0, 1, 1, 0, 0xA0, 50, 9, 4, 0, 0, 1, 3, 1, 2, 0, 7, 5, 0x81, 3, 4, 0, 10].getD i 0

/-- The lengths of the packets of a probe, in their order. -/
def mousePackets : List ℕ := [8, 8, 0, 8, 0, 8, 18, 0, 8, 9, 0, 8, 25, 0, 8, 0, 8, 0, 8, 0]

/-- The time since the probe began: at boot at time 7, later at time 113. -/
def probeTime (t : ℕ) : ℕ := if t < 100 then t - 7 else t - 113

/-- A mouse on port 1, a second one on port 0 from time 93 on, and an error of
the stream at time 100. -/
def lingerHw (t : ℕ) : UsbReg → ℕ
  | .status _ => 0
  | .halted _ => 1
  | .interruptTd _ => if t < 100 then uhciActive else 0x400000
  | .port _ 0 => if t < 93 then 0 else if t < 99 then 3 else 5
  | .port _ _ => 5
  | .controlTd _ => (mousePackets.getD ((probeTime t - 5) / 4) 0 + 0x7FF) % 0x800
  | .controlData _ i => if probeTime t < 40 then mouseDevice i else mouseConfiguration i
  | .interruptData _ _ => 0
  | .pciCommand _ => 0
  | .redirection _ => 0
  | .tsc => t * 1000

/-- One controller is ready. -/
def lingerBoot : Usb where
  hw := lingerHw
  time := 0
  routeMask := 1
  unclaimedInterrupts := 0
  unclaimedStreak := fun _ => 0
  td := fun _ => 0
  log := []
  ticksPerMs := 1
  hotplugTime := 0
  info := fun id => ⟨if id = 0 then 0xC000 else 0, 16, if id = 0 then uhciReady else uhciAbsent, 0, 0,
    fun _ => 0, 0, 0⟩
  controllers := fun id => ⟨id = 0, fun _ => ⟨0, fun _ => 0⟩, 0, 0, 0, 0, 0, 0, 0, false, 0⟩
  polls := 0
  pollCompletions := 0
  lastTd := fun _ => 0
  portGeneration := fun _ _ => 0
  reported := []
  initialized := false
  mouseCount := 0
  bootMouseCount := 0
  mousePort := fun _ _ => ⟨0, 0, 0, 0, 0, ⟨0, 0, 0, 0, 0⟩, 0⟩
  hotplug := fun _ _ => ⟨0, 0, 0⟩
  configurationBuffer := fun _ => 0

theorem lingerBoot_booted : UsbBooted lingerBoot := by
  refine ⟨rfl, fun id _ => ⟨fun h => ?_, rfl, fun _ _ => rfl⟩⟩
  show decide (id = 0) = true
  by_contra hne
  have hid : ¬id = 0 := fun h => hne (decide_eq_true h)
  have hstatus : (if id = 0 then uhciReady else uhciAbsent) = uhciReady := h
  rw [if_neg hid] at hstatus
  exact absurd hstatus (by decide)

/-- `usb_mouse_initialize`, then services: the states between the calls. -/
def lingerAt : ℕ → Option Usb
  | 0 => (usbMouseInitialize.run lingerBoot).map Prod.snd
  | n + 1 => (lingerAt n).bind fun s => (usbMouseService.run s).map Prod.snd

/-- A poll of the run from time `a` to `b`, while nothing changes on the ports. -/
theorem lingerAt_steady {n a b : ℕ} {s : Usb} (h : lingerAt n = some s) (hhw : s.hw = lingerHw)
    (hwindow : (lingerAt n).bind (fun s => (usbHostPoll.run s).map fun r => (s.time, r.2.time)) =
      some (a, b))
    (hconst : ∀ id p τ, a ≤ τ → τ < b →
      lingerHw τ (.port id p) = lingerHw a (.port id p)) : PollSteady s := by
  have hwithin : ∀ τ, PollTime s τ → a ≤ τ ∧ τ < b := by
    rintro τ ⟨active, t, hrun, h1, h2⟩
    rw [h, Option.bind_some, hrun, Option.map_some] at hwindow
    obtain ⟨rfl, rfl⟩ := Prod.mk.inj (Option.some.inj hwindow)
    exact ⟨h1, h2⟩
  intro id p τ τ' h1 h2
  rw [hhw, hconst id p τ (hwithin τ h1).1 (hwithin τ h1).2,
    hconst id p τ' (hwithin τ' h2).1 (hwithin τ' h2).2]

/-- The state after boot, with a mouse on port 1. -/
theorem lingerAt_boot : ∃ s, lingerAt 0 = some s ∧ s.hw = lingerHw ∧ (∀ C, UsbRun C s) ∧
    PollSteady s ∧ ∀ stop, NotTakenOver s stop := by
  obtain ⟨s, hs⟩ := Option.isSome_iff_exists.mp
    (show (lingerAt 0).isSome = true by decide +kernel)
  obtain ⟨⟨count, t⟩, hrun, rfl⟩ := Option.map_eq_some_iff.mp hs
  have hhw : t.hw = lingerHw := (usbMouseInitialize_spec lingerBoot_booted count t hrun).2
  refine ⟨t, hs, hhw, fun C => UsbRun.boot lingerBoot_booted hrun,
    lingerAt_steady hs hhw (a := 93) (b := 99) (by decide +kernel) ?_, ?_⟩
  · intro id p τ h1 h2
    match p with
    | 0 =>
      show (if τ < 93 then 0 else if τ < 99 then 3 else 5) = 3
      rw [if_neg (by omega), if_pos h2]
    | p + 1 => rfl
  · -- port 0 is not yet known to be connected
    intro stop id hid htaken
    have hentry : ∀ id < 4, (lingerAt 0).map (fun s => (s.hotplug id 0).connected) = some 0 := by
      decide +kernel
    have h := hentry id hid
    rw [hs, Option.map_some] at h
    exact absurd ((Option.some.inj h).symm.trans htaken.waiting.1) (by decide)

end VirtualKernel
