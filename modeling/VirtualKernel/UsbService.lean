/-
Services of a stream.

`service_controller` does one of three things to a stream (`Serviced`): it leaves
it alone, it ends it, or it takes one completed report.  The programs that send
requests leave everything about the streams alone (`Usb.flow`), the poll looks at
the descriptor before it serves it (`Paused`), and `usb_uhci_start_interrupt`
starts a stream on a ready controller without one.
-/
import VirtualKernel.UsbPoll

namespace VirtualKernel

open Lib

/-! ### One service -/

/-- The readings of `service_controller`: USBSTS, the port of the stream and the
status word of its descriptor. -/
def Usb.readStatus (id : ℕ) (s : Usb) : ℕ := s.hw s.time (.status id) % 2 ^ 16

def Usb.readPort (id : ℕ) (s : Usb) : ℕ :=
  s.hw (s.time + 1) (.port id (s.controllers id).port) % 2 ^ 16

def Usb.readWord (id : ℕ) (s : Usb) : ℕ :=
  if s.td id &&& uhciActive = 0 then s.td id else s.hw (s.time + 2) (.interruptTd id) % 2 ^ 32

/-- The bytes that have arrived when a service takes a report. -/
def Usb.arrived (id : ℕ) (s : Usb) (i : ℕ) : ℕ := s.hw (s.time + 3) (.interruptData id i) % 2 ^ 8

/-- The length of the report. -/
def Usb.readLength (id : ℕ) (s : Usb) : ℕ :=
  (uhciCompletedLength (s.readWord id) (s.controllers id).packet).toNat

/-- A service of the stream sees an error-free completion: no host system error,
the port connected and enabled without a change, and a report in the buffer. -/
structure Completes (id : ℕ) (s : Usb) : Prop where
  active : (s.controllers id).active = true
  healthy : s.readStatus id &&& 0x18 = 0
  plugged : s.readPort id &&& 5 = 5 ∧ s.readPort id &&& 2 = 0
  complete : s.readWord id &&& uhciActive = 0
  length : 0 ≤ uhciCompletedLength (s.readWord id) (s.controllers id).packet

/-- The queue takes a report if it has room. -/
def UhciController.accept (c : UhciController) (report : UhciReport) : UhciController :=
  if sub32 c.producer c.consumer < uhciReportCount then
    { c with
      queue := Function.update c.queue (c.producer &&& (uhciReportCount - 1)) report
      producer := (c.producer + 1) % 2 ^ 32 }
  else c

/-- The report as `usb_uhci_read_report` gives it. -/
def Usb.report (id : ℕ) (s : Usb) : UhciReport :=
  ⟨s.readLength id, fun i => if i < s.readLength id then s.arrived id i else 0⟩

/-- The marks about the stream of controller `id`. -/
def UsbEvent.ofStream (id : ℕ) : UsbEvent → Bool
  | .started i _ => i = id
  | .completed i _ => i = id
  | .taken i _ _ => i = id
  | .returned i _ => i = id
  | _ => false

/-- What the log says about the stream of controller `id`. -/
def Usb.trail (s : Usb) (id : ℕ) : List UsbEvent := s.log.filter (·.ofStream id)

/-- The mark of a completion that a service sees first. -/
def Usb.fresh (id : ℕ) (s : Usb) : List UsbEvent :=
  if s.td id &&& uhciActive = 0 then [] else [.completed id (s.readWord id)]

/-- The mark of the report that a service takes. -/
def Usb.take (id : ℕ) (s : Usb) : UsbEvent :=
  let c := s.controllers id
  .taken id (decide (sub32 c.producer c.consumer < uhciReportCount)) (s.report id).bytes

/-- The events `m` are about controller `id` and come last. -/
def Marked (id : ℕ) (s : Usb) (m : List UsbEvent) (t : Usb) : Prop :=
  ∀ c, t.trail c = s.trail c ++ if c = id then m else []

/-- **What a service of controller `id` does to its stream.** -/
inductive Serviced (id : ℕ) (s t : Usb) : Prop
  | quiet : ¬Completes id s → t.controllers = s.controllers → t.reported = s.reported →
      (t.info id).status = (s.info id).status → (t.info id).reports = (s.info id).reports →
      (t.info id).dropped = (s.info id).dropped →
      ((s.controllers id).active = true → s.td id &&& uhciActive ≠ 0 ∧ t.td id &&& uhciActive ≠ 0) →
      Marked id s [] t → Serviced id s t
  | ended : ¬Completes id s →
      t.controllers = Function.update s.controllers id { s.controllers id with active := false } →
      t.reported = s.reported ++ [(id, .disconnected)] → (t.info id).status ≠ uhciReady →
      (t.info id).reports = (s.info id).reports → (t.info id).dropped = (s.info id).dropped →
      (∃ m, (m = [] ∨ m = s.fresh id) ∧ Marked id s m t) → Serviced id s t
  | report : Completes id s →
      t.controllers = Function.update s.controllers id
        { (s.controllers id).accept (s.report id) with toggle := (s.controllers id).toggle ^^^ 1 } →
      t.reported = s.reported ++
        [(id, .data (fun i => UInt8.ofNat (s.arrived id i)) (s.readLength id))] →
      (t.info id).status = uhciReady → (t.info id).reports = ((s.info id).reports + 1) % 2 ^ 32 →
      (t.info id).dropped = (if sub32 (s.controllers id).producer (s.controllers id).consumer <
        uhciReportCount then (s.info id).dropped else ((s.info id).dropped + 1) % 2 ^ 32) →
      t.td id &&& uhciActive ≠ 0 → Marked id s (s.fresh id ++ [s.take id]) t → Serviced id s t

section Service

variable {id : ℕ} {s : Usb}

theorem armedWord_active (low : ℕ) : armedWord low &&& uhciActive ≠ 0 := by
  intro h
  have hbit : (armedWord low &&& uhciActive).testBit 23 = false := by rw [h, Nat.zero_testBit]
  rw [Nat.testBit_and] at hbit
  simp only [armedWord, Nat.testBit_or] at hbit
  exact absurd hbit (by simp)

/-- Events that are not about a stream leave no trail. -/
theorem trail_append {t : Usb} {l : List UsbEvent} (hlog : t.log = s.log ++ l)
    (h : ∀ e ∈ l, ∀ c, e.ofStream c = false) (c : ℕ) : t.trail c = s.trail c := by
  have hnil : l.filter (·.ofStream c) = [] := by
    rw [List.filter_eq_nil_iff]
    intro e he
    rw [h e he c]
    exact Bool.false_ne_true
  rw [Usb.trail, hlog, List.filter_append, hnil, List.append_nil]
  rfl

theorem Marked.of_trail {t : Usb} (h : ∀ c, t.trail c = s.trail c) : Marked id s [] t := by
  intro c
  rw [ite_self, List.append_nil, h]

theorem Marked.trans {t u : Usb} {m m' : List UsbEvent} (h : Marked id s m t)
    (h' : Marked id t m' u) : Marked id s (m ++ m') u := by
  intro c
  rw [h' c, h c]
  split_ifs
  · rw [List.append_assoc]
  · rw [List.append_nil]

theorem marked_append {t : Usb} {m : List UsbEvent} (hlog : t.log = s.log ++ m)
    (h : ∀ e ∈ m, ∀ c, e.ofStream c = decide (c = id)) : Marked id s m t := by
  intro c
  rw [Usb.trail, hlog, List.filter_append]
  refine congrArg (s.trail c ++ ·) ?_
  split_ifs with hc
  · rw [List.filter_eq_self]
    intro e he
    rw [h e he, hc, decide_eq_true rfl]
  · rw [List.filter_eq_nil_iff]
    intro e he
    rw [h e he, decide_eq_false hc]
    exact Bool.false_ne_true

theorem endStream_spec (u : Usb) : Ensures (endStream id) u fun _ t =>
    t.controllers = Function.update u.controllers id { u.controllers id with active := false } ∧
      t.reported = u.reported ++ [(id, .disconnected)] ∧ t.info = u.info ∧
      ∀ c, t.trail c = u.trail c := by
  refine ensures_get_bind (ensures_modify_bind (ensures_modify_bind (ensures_modify ?_)))
  refine ⟨rfl, rfl, rfl, trail_append rfl fun e he c => ?_⟩
  split_ifs at he
  · rw [List.mem_singleton.mp he]
    rfl
  · exact absurd he (List.not_mem_nil)

theorem armInterrupt_spec (u : Usb) : Ensures (armInterrupt id) u fun _ t =>
    t.controllers = u.controllers ∧ t.reported = u.reported ∧ t.info = u.info ∧
      t.td id &&& uhciActive ≠ 0 ∧ ∀ c, t.trail c = u.trail c := by
  refine ensures_get_bind (ensures_modify_bind (ensures_modify_bind (ensures_modify ?_)))
  refine ⟨rfl, rfl, rfl, ?_, fun c => ?_⟩
  · simp only [Function.update_self]
    exact armedWord_active _
  · simp [Usb.trail, UsbEvent.ofStream]

theorem queueReport_spec (report : UhciReport) (u : Usb) :
    Ensures (queueReport id report) u fun _ t =>
      t.controllers = Function.update u.controllers id ((u.controllers id).accept report) ∧
      t.reported = u.reported ∧ (t.info id).status = (u.info id).status ∧
      (t.info id).reports = (u.info id).reports ∧
      (t.info id).dropped = (if sub32 (u.controllers id).producer (u.controllers id).consumer <
        uhciReportCount then (u.info id).dropped else ((u.info id).dropped + 1) % 2 ^ 32) ∧
      Marked id u [.taken id (decide (sub32 (u.controllers id).producer (u.controllers id).consumer <
        uhciReportCount)) report.bytes] t := by
  have hmark : ∀ (room : Bool) (bytes : List ℕ), ∀ e ∈ [UsbEvent.taken id room bytes],
      ∀ c, e.ofStream c = decide (c = id) := by
    intro room bytes e he c
    rw [List.mem_singleton.mp he]
    exact decide_eq_decide.mpr eq_comm
  refine ensures_get_bind (ensures_modify_bind ?_)
  refine ensures_ite (fun hroom => ensures_modify ?_) fun hfull => ensures_modify ?_
  · rw [UhciController.accept, if_pos hroom, if_pos hroom]
    exact ⟨rfl, rfl, rfl, rfl, rfl, marked_append rfl (hmark _ _)⟩
  · rw [UhciController.accept, if_neg hfull, if_neg hfull, Function.update_eq_self]
    refine ⟨rfl, rfl, ?_, ?_, ?_, marked_append rfl (hmark _ _)⟩
    all_goals simp only [Function.update_self]

/-- What taking a report does. -/
theorem serviceReport_spec (length : ℕ) (fromIrq : Bool) (v : Usb) :
    Ensures (serviceReport id length fromIrq) v fun _ t =>
      t.controllers = Function.update v.controllers id
        { (v.controllers id).accept
            ⟨length, fun i => if i < length then v.answer (.interruptData id i) else 0⟩ with
          toggle := (v.controllers id).toggle ^^^ 1 } ∧
      t.reported = v.reported ++
        [(id, .data (fun i => UInt8.ofNat (v.answer (.interruptData id i))) length)] ∧
      (t.info id).status = (v.info id).status ∧
      (t.info id).reports = ((v.info id).reports + 1) % 2 ^ 32 ∧
      (t.info id).dropped = (if sub32 (v.controllers id).producer (v.controllers id).consumer <
        uhciReportCount then (v.info id).dropped else ((v.info id).dropped + 1) % 2 ^ 32) ∧
      t.td id &&& uhciActive ≠ 0 ∧
      Marked id v [.taken id (decide (sub32 (v.controllers id).producer (v.controllers id).consumer <
        uhciReportCount)) (UhciReport.bytes ⟨length,
          fun i => if i < length then v.answer (.interruptData id i) else 0⟩)] t := by
  -- the counters
  have hcount : Keeps (fun s : Usb => (s.hw, s.time, s.controllers, s.reported, s.info, s.log))
      (modify fun s => if fromIrq then s else
        { s with pollCompletions := (s.pollCompletions + 1) % 2 ^ 32 }) :=
    keeps_modify fun s => by split_ifs <;> rfl
  refine ensures_bind (hcount.ensures v) fun _ v₁ h₁ => ?_
  simp only [Prod.mk.injEq] at h₁
  obtain ⟨hhw, htime, hcontrollers, hreported, hinfo, hlog⟩ := h₁
  refine ensures_modify_bind (ensures_get_bind (ensures_modify_bind ?_))
  have hanswer : ∀ i, v₁.answer (.interruptData id i) = v.answer (.interruptData id i) := by
    intro i
    rw [Usb.answer, Usb.answer, hhw, htime]
  -- the queue, the toggle and the descriptor
  refine ensures_bind (queueReport_spec _ _) ?_
  rintro - v₂ ⟨hcontrollers₂, hreported₂, hstatus₂, hreports₂, hdropped₂, hmarked₂⟩
  refine ensures_modify_bind ((armInterrupt_spec _).mono ?_)
  rintro - t ⟨hcontrollers₃, hreported₃, hinfo₃, harmed, htrail₃⟩
  have hqueue : v₂.controllers = Function.update v₁.controllers id ((v₁.controllers id).accept
      ⟨length, fun i => if i < length then v₁.answer (.interruptData id i) else 0⟩) := hcontrollers₂
  have hcall : v₂.reported = v₁.reported ++ [(id, .data
      (fun i => UInt8.ofNat (v₁.answer (.interruptData id i))) length)] := hreported₂
  have hmarked : Marked id v₁ [.taken id (decide (sub32 (v₁.controllers id).producer
      (v₁.controllers id).consumer < uhciReportCount)) (UhciReport.bytes ⟨length,
        fun i => if i < length then v₁.answer (.interruptData id i) else 0⟩)] v₂ := hmarked₂
  simp only [hanswer, hcontrollers] at hqueue hdropped₂ hmarked
  simp only [hanswer, hreported] at hcall
  simp only [Function.update_self, hinfo] at hstatus₂ hreports₂ hdropped₂
  refine ⟨?_, hreported₃.trans hcall, ?_, ?_, ?_, harmed, ?_⟩
  · have htoggle : ∀ r, ((v.controllers id).accept r).toggle = (v.controllers id).toggle := by
      intro r
      rw [UhciController.accept]
      split_ifs <;> rfl
    rw [hcontrollers₃]
    dsimp only
    rw [hqueue, Function.update_self, Function.update_idem, htoggle]
  · rw [hinfo₃]; exact hstatus₂
  · rw [hinfo₃]; exact hreports₂
  · rw [hinfo₃]; exact hdropped₂
  · intro c
    refine (htrail₃ c).trans ((hmarked c).trans ?_)
    rw [Usb.trail, hlog]
    rfl

/-- So far a service has only read: `v` is `n` readings after `s`, and `m` are the
marks of these readings. -/
structure Looked (id : ℕ) (s : Usb) (n : ℕ) (m : List UsbEvent) (v : Usb) : Prop where
  hw : v.hw = s.hw
  time : v.time = s.time + n
  controllers : v.controllers = s.controllers
  reported : v.reported = s.reported
  status : (v.info id).status = (s.info id).status
  reports : (v.info id).reports = (s.info id).reports
  dropped : (v.info id).dropped = (s.info id).dropped
  marked : Marked id s m v

/-- The end of the stream in a service that has only read. -/
theorem Looked.ended {n : ℕ} {v : Usb} {m : List UsbEvent} (L : Looked id s n m v)
    (hm : m = [] ∨ m = s.fresh id) (hnot : ¬Completes id s) {status : ℕ}
    (hstatus : status ≠ uhciReady) :
    Ensures (do setStatus id status; usbOut [.interruptQh id false]; endStream id; return true) v
      fun _ t => Serviced id s t := by
  refine ensures_modify_bind (ensures_modify_bind (ensures_bind (endStream_spec _) ?_))
  rintro - t ⟨hcontrollers, hreported, hinfo, htrail⟩
  refine ensures_pure (Serviced.ended hnot ?_ ?_ ?_ ?_ ?_ ⟨m, hm, fun c => ?_⟩)
  · rw [hcontrollers, ← L.controllers]
  · rw [hreported, ← L.reported]
  · rw [hinfo]
    simp only [Function.update_self]
    exact hstatus
  · rw [hinfo]
    simp only [Function.update_self]
    exact L.reports
  · rw [hinfo]
    simp only [Function.update_self]
    exact L.dropped
  · refine (htrail c).trans (Eq.trans ?_ (L.marked c))
    exact trail_append rfl (by simp [UsbEvent.ofStream]) c

/-- The part of a service behind the test for a stream. -/
theorem serviceStream_spec (usbsts : ℕ) (fromIrq : Bool) {v : Usb} (L : Looked id s 1 [] v)
    (htd : v.td = s.td) (hactive : (s.controllers id).active = true)
    (hready : (s.info id).status = uhciReady) (hhealthy : s.readStatus id &&& 0x18 = 0) :
    Ensures (serviceStream id usbsts fromIrq) v fun _ t => Serviced id s t := by
  refine ensures_get_bind (ensures_modifyGet_bind (ensures_modify_bind ?_))
  refine ensures_modifyGet_bind (ensures_modify_bind ?_)
  dsimp only
  have hport : v.answer (.port id (v.controllers id).port) = s.readPort id := by
    rw [Usb.answer, L.hw, L.time, L.controllers]
    rfl
  have hword : (if v.td id &&& uhciActive = 0 then v.td id
      else v.hw (v.time + 1) (.interruptTd id) % 2 ^ 32) = s.readWord id := by
    rw [htd, L.hw, L.time]
    rfl
  simp only [Usb.answer, UsbReg.width] at hport ⊢
  simp only [hport, hword]
  -- the state after the three readings
  generalize hw : Usb.mk _ _ _ _ _ _ _ _ _ _ _ _ _ _ _ _ _ _ _ _ _ _ = w
  have L₃ : Looked id s 3 (if s.readWord id &&& uhciActive = 0 then s.fresh id else []) w := by
    subst hw
    refine ⟨L.hw, ?_, L.controllers, L.reported, ?_, ?_, ?_, ?_⟩
    · simp only [L.time]
    · simp only [Function.update_self]
      exact L.status
    · simp only [Function.update_self]
      exact L.reports
    · simp only [Function.update_self]
      exact L.dropped
    · refine L.marked.trans (marked_append (m := if s.readWord id &&& uhciActive = 0 then
        s.fresh id else []) ?_ ?_)
      · rw [Usb.fresh, htd]
        refine congrArg (v.log ++ ·) ?_
        split_ifs <;> simp_all
      · intro e he c
        rw [Usb.fresh] at he
        split_ifs at he
        · exact absurd he List.not_mem_nil
        · rw [List.mem_singleton.mp he]
          exact decide_eq_decide.mpr eq_comm
        · exact absurd he List.not_mem_nil
  have hword' : w.td id = s.readWord id := by
    subst hw
    simp only [Function.update_self]
  have hmarks : (if s.readWord id &&& uhciActive = 0 then s.fresh id else []) = [] ∨
      (if s.readWord id &&& uhciActive = 0 then s.fresh id else []) = s.fresh id := by
    split_ifs
    · exact Or.inr rfl
    · exact Or.inl rfl
  rw [L.controllers]
  refine ensures_ite (fun hport => L₃.ended hmarks ?_ (by decide)) fun hplugged =>
    ensures_ite (fun hbusy => ?_) ?_
  · rintro C
    rcases hport with h | h
    · exact h C.plugged.1
    · exact h C.plugged.2
  · refine ensures_pure (Serviced.quiet (fun C => hbusy C.complete) L₃.controllers L₃.reported
      L₃.status L₃.reports L₃.dropped (fun _ => ⟨fun hold => ?_, ?_⟩) ?_)
    · rw [Usb.readWord, if_pos hold] at hbusy
      exact hbusy hold
    · rw [hword']
      exact hbusy
    · have hmarked := L₃.marked
      rw [if_neg hbusy] at hmarked
      exact hmarked
  intro hcomplete
  rw [not_or, not_not, not_not] at hplugged
  rw [not_not] at hcomplete
  refine ensures_ite (fun herror => L₃.ended hmarks ?_ (by decide)) fun hlength => ensures_modify_bind ?_
  · exact fun C => absurd C.length (Int.not_le.mpr herror)
  have hcompletes : Completes id s :=
    ⟨hactive, hhealthy, hplugged, hcomplete, Int.not_lt.mp hlength⟩
  refine ensures_get_bind (ensures_ite (fun hnot => ?_) fun _ => ?_)
  · exact absurd (L₃.status.trans hready) hnot
  refine ensures_bind (serviceReport_spec _ _ _) ?_
  rintro - t ⟨hcontrollers, hreported, hstatus, hreports, hdropped, harmed, hmarked⟩
  have hbytes : ∀ i, w.answer (.interruptData id i) = s.arrived id i := by
    intro i
    rw [Usb.answer, L₃.hw, L₃.time]
    rfl
  have hbytes' : ∀ (l : List UsbEvent) (i : ℕ),
      Usb.answer { w with log := l } (.interruptData id i) = s.arrived id i := fun _ => hbytes
  simp only [hbytes'] at hcontrollers hreported hmarked
  refine ensures_pure (Serviced.report hcompletes ?_ ?_ ?_ ?_ ?_ harmed ?_)
  · rw [hcontrollers, L₃.controllers]
    rfl
  · rw [hreported, L₃.reported]
    rfl
  · rw [hstatus]
    exact L₃.status.trans hready
  · rw [hreports, L₃.reports]
  · rw [hdropped, L₃.controllers, L₃.dropped]
  · have hbefore := L₃.marked
    rw [if_pos hcomplete] at hbefore
    refine hbefore.trans fun c => (hmarked c).trans ?_
    rw [Usb.take, L₃.controllers, trail_append (s := w) rfl (by simp [UsbEvent.ofStream]) c]
    rfl

/-- **One service.** -/
theorem serviceController_spec (fromIrq : Bool) (hs : StreamReady id s) :
    Ensures (serviceController id fromIrq) s fun _ t => Serviced id s t := by
  refine ensures_get_bind (ensures_ite (fun h => ensures_pure ?_) fun _ => ?_)
  · -- no schedule, or a controller error: then there is no stream
    have hoff : ¬(s.controllers id).active = true := by
      intro hactive
      rcases h with h | h
      · exact absurd (h.symm.trans (hs hactive).1) Bool.false_ne_true
      · exact absurd (h.symm.trans (hs hactive).2) (by decide)
    exact Serviced.quiet (fun C => hoff C.active) rfl rfl rfl rfl rfl (fun h => absurd h hoff)
      (Marked.of_trail fun _ => rfl)
  refine ensures_modifyGet_bind (ensures_bind (Q := fun _ w => Looked id s 1 [] w ∧ w.td = s.td)
    (ensures_modify ⟨⟨rfl, rfl, rfl, rfl, ?_, ?_, ?_, Marked.of_trail fun _ => rfl⟩, rfl⟩) ?_)
  iterate 3
    simp only [Function.update_self]
    split_ifs <;> rfl
  rintro - w₀ ⟨L₀, htd₀⟩
  refine ensures_bind (Q := fun _ w => Looked id s 1 [] w ∧ w.td = s.td)
    (ensures_modify ⟨⟨L₀.hw, L₀.time, L₀.controllers, L₀.reported, L₀.status, L₀.reports,
      L₀.dropped, fun c => (trail_append rfl ?_ c).trans (L₀.marked c)⟩, htd₀⟩) ?_
  · intro e he c
    split_ifs at he
    · exact absurd he List.not_mem_nil
    · rw [List.mem_singleton.mp he]
      rfl
  rintro - w ⟨L, htd⟩
  refine ensures_ite (fun herror => ensures_modify_bind ?_) fun hhealthy => ?_
  · have hkeeps : Keeps (fun s : Usb => (s.controllers, s.reported, s.info, s.trail))
        (pciDisableInterrupt id) := by
      refine keeps_bind (keeps_modifyGet fun _ => rfl) fun _ => keeps_modify fun v => ?_
      exact Prod.ext rfl (Prod.ext rfl (Prod.ext rfl (funext fun c =>
        trail_append rfl (by simp [UsbEvent.ofStream]) c)))
    refine ensures_bind (hkeeps.ensures _) fun _ w₁ h₁ => ensures_modify_bind ?_
    simp only [Prod.mk.injEq] at h₁
    obtain ⟨hcontrollers₁, hreported₁, hinfo₁, htrail₁⟩ := h₁
    refine ensures_bind (endStream_spec _) ?_
    rintro - t ⟨hcontrollers, hreported, hinfo, htrail⟩
    refine ensures_pure (Serviced.ended (fun C => herror C.healthy) ?_ ?_ ?_ ?_ ?_
      ⟨[], Or.inl rfl, fun c => ?_⟩)
    · rw [hcontrollers, ← L.controllers, ← hcontrollers₁]
    · rw [hreported, ← L.reported, ← hreported₁]
    · rw [hinfo]
      simp only [Function.update_self]
      decide
    · rw [hinfo]
      simp only [Function.update_self, hinfo₁]
      exact L.reports
    · rw [hinfo]
      simp only [Function.update_self, hinfo₁]
      exact L.dropped
    · refine (htrail c).trans ((congrFun htrail₁ c).trans (Eq.trans ?_ (L.marked c)))
      exact trail_append rfl (by simp [UsbEvent.ofStream]) c
  refine ensures_ite (fun hoff => ensures_pure ?_) fun hactive => ?_
  · have hoff' : ¬(s.controllers id).active = true := by
      rw [hoff]
      exact Bool.false_ne_true
    exact Serviced.quiet (fun C => hoff' C.active) L.controllers L.reported L.status L.reports
      L.dropped (fun h => absurd h hoff') L.marked
  rw [Bool.not_eq_false] at hactive
  exact serviceStream_spec _ _ L htd hactive (hs hactive).2 (not_not.mp hhealthy)

end Service

/-! ### The other programs of the host -/

/-- What the programs that do not serve a stream leave alone. -/
def Usb.flow (s : Usb) :=
  (s.reported, s.controllers, s.td, s.trail, fun id => ((s.info id).reports, (s.info id).dropped))

section Flow

variable {id port : ℕ} {s t : Usb}

theorem flow_usbIn (r : UsbReg) : Keeps Usb.flow (usbIn r) := keeps_modifyGet fun _ => rfl

/-- Writes to the hardware are not about a stream. -/
theorem flow_usbOut {events : List UsbEvent} (h : ∀ e ∈ events, ∀ c, e.ofStream c = false) :
    Keeps Usb.flow (usbOut events) := by
  refine keeps_modify fun s => ?_
  exact Prod.ext rfl (Prod.ext rfl (Prod.ext rfl (Prod.ext (funext (trail_append rfl h)) rfl)))

theorem flow_modifyInfo {f : UhciInfo → UhciInfo}
    (hf : ∀ i, ((f i).reports, (f i).dropped) = (i.reports, i.dropped)) :
    Keeps Usb.flow (modifyInfo id f) := by
  refine keeps_modify fun s => ?_
  refine Prod.ext rfl (Prod.ext rfl (Prod.ext rfl (Prod.ext rfl (funext fun c => ?_))))
  dsimp only [Usb.flow]
  by_cases hc : c = id
  · rw [hc, Function.update_self]
    exact hf _
  · rw [Function.update_of_ne hc]

theorem flow_setStatus (status : ℕ) : Keeps Usb.flow (setStatus id status) :=
  flow_modifyInfo fun _ => rfl

theorem flow_setPortStatus (value : ℕ) : Keeps Usb.flow (setPortStatus id port value) :=
  flow_modifyInfo fun _ => rfl

theorem flow_outPort (value : ℕ) : Keeps Usb.flow (outPort id port value) :=
  flow_usbOut (by simp [UsbEvent.ofStream])

theorem flow_uhciStop : Keeps Usb.flow (uhciStop id) := by
  refine keeps_bind (flow_usbOut (by simp [UsbEvent.ofStream])) fun _ => ?_
  refine keeps_bind (flow_usbIn _) fun _ => keeps_ite ?_ (keeps_pure _)
  exact keeps_bind (flow_usbOut (by simp [UsbEvent.ofStream])) fun _ s a t h =>
    absurd h (by simp [kpanic, StateT.run])

theorem flow_pciDisableInterrupt : Keeps Usb.flow (pciDisableInterrupt id) :=
  keeps_bind (flow_usbIn _) fun _ => flow_usbOut (by simp [UsbEvent.ofStream])

theorem flow_controlPacket (pid address low toggle length : ℕ) :
    Keeps Usb.flow (controlPacket id pid address low toggle length) := by
  refine keeps_bind flow_uhciStop fun _ => ?_
  refine keeps_bind (flow_usbOut (by simp [UsbEvent.ofStream])) fun _ => ?_
  refine keeps_bind (flow_usbIn _) fun _ => keeps_bind flow_uhciStop fun _ => ?_
  refine keeps_bind (flow_usbIn _) fun _ => keeps_ite ?_ ?_
  · refine keeps_bind (flow_setStatus _) fun _ => keeps_bind flow_pciDisableInterrupt fun _ => ?_
    exact keeps_bind (flow_usbOut (by simp [UsbEvent.ofStream])) fun _ => keeps_pure _
  · exact keeps_bind (flow_usbOut (by simp [UsbEvent.ofStream])) fun _ => keeps_pure _

theorem flow_controlData (address low packet length : ℕ) (isIn : Bool) :
    ∀ (fuel received toggle : ℕ) (data : ℕ → ℕ), Keeps Usb.flow
      (controlData id address low packet length isIn fuel received toggle data)
  | 0, _, _, _ => keeps_pure _
  | fuel + 1, received, toggle, data => by
    rw [controlData]
    refine keeps_ite (keeps_pure _) (keeps_bind (flow_usbOut ?_) fun _ => ?_)
    · split_ifs <;> simp [UsbEvent.ofStream]
    refine keeps_bind (flow_controlPacket _ _ _ _ _) fun actual => ?_
    refine keeps_ite (keeps_pure _) (keeps_bind keeps_get fun s => ?_)
    exact keeps_ite (keeps_pure _) (flow_controlData address low packet length isIn fuel _ _ _)

theorem flow_controlStages (address low packet : ℕ) (setup data : ℕ → ℕ) :
    Keeps Usb.flow (controlStages id address low packet setup data) := by
  refine keeps_bind (flow_controlPacket _ _ _ _ _) fun r => keeps_ite (keeps_pure _) ?_
  refine keeps_bind (flow_controlData _ _ _ _ _ _ _ _ _) fun r => ?_
  rcases r with ⟨_ | received, data⟩
  · exact keeps_pure _
  · exact keeps_bind (flow_controlPacket _ _ _ _ _) fun _ => keeps_ite (keeps_pure _) (keeps_pure _)

theorem flow_usbUhciControl (address low packet : ℕ) (setup data : ℕ → ℕ) :
    Keeps Usb.flow (usbUhciControl id address low packet setup data) := by
  refine keeps_bind keeps_get fun s => keeps_ite (keeps_pure _) ?_
  refine keeps_bind (flow_usbOut (by simp [UsbEvent.ofStream])) fun _ => ?_
  refine keeps_bind (flow_controlStages _ _ _ _ _) fun result => keeps_bind keeps_get fun _ => ?_
  refine keeps_bind (flow_usbOut ?_) fun _ => keeps_pure _
  split_ifs <;> simp [UsbEvent.ofStream]

theorem flow_usbUhciDisablePort : Keeps Usb.flow (usbUhciDisablePort id port) :=
  keeps_bind keeps_get fun _ => keeps_ite (keeps_pure _) (keeps_bind (flow_usbIn _) fun _ =>
    keeps_bind (flow_outPort _) fun _ => keeps_bind (flow_usbIn _) fun _ => flow_setPortStatus _)

theorem flow_usbUhciResetPort : Keeps Usb.flow (usbUhciResetPort id port) := by
  refine keeps_bind keeps_get fun _ => keeps_ite (keeps_pure _) (keeps_ite (keeps_pure _) ?_)
  refine keeps_bind (flow_usbIn _) fun _ => keeps_ite (keeps_pure _) ?_
  refine keeps_bind (flow_outPort _) fun _ => keeps_bind (flow_usbIn _) fun _ => ?_
  refine keeps_bind (flow_outPort _) fun _ => keeps_bind (flow_usbIn _) fun _ => ?_
  refine keeps_bind (flow_outPort _) fun _ => keeps_bind (flow_usbIn _) fun _ => ?_
  exact keeps_bind (flow_setPortStatus _) fun _ => keeps_pure _

theorem flow_pollPort : Keeps Usb.flow (pollPort id port) := by
  refine keeps_bind (flow_usbIn _) fun value => keeps_bind (flow_setPortStatus _) fun _ => ?_
  refine keeps_bind (keeps_modify fun s => ?_) fun _ => keeps_ite (keeps_pure _) (flow_outPort _)
  dsimp only
  split_ifs <;> rfl

theorem flow_pollResume (paused : Bool) : Keeps Usb.flow (pollResume id paused) := by
  refine keeps_bind keeps_get fun _ => flow_usbOut ?_
  split_ifs <;> simp [UsbEvent.ofStream]

/-- What `pollPause` does: it may look at the descriptor of a stream. -/
inductive Paused (id : ℕ) (s t : Usb) : Prop
  | skip : (s.controllers id).active = false → t.td = s.td → (∀ c, t.trail c = s.trail c) →
      Paused id s t
  | look (word : ℕ) : (s.controllers id).active = true → t.td = Function.update s.td id word →
      (s.td id &&& uhciActive = 0 → word = s.td id) →
      Marked id s (if s.td id &&& uhciActive ≠ 0 ∧ word &&& uhciActive = 0
        then [.completed id word] else []) t → Paused id s t

theorem pollPause_spec (s : Usb) : Ensures (pollPause id) s fun _ t =>
    t.info = s.info ∧ t.controllers = s.controllers ∧ t.reported = s.reported ∧
      t.frame id = s.frame id ∧ Paused id s t := by
  refine (Ensures.and (frame_pollPause.toFrame.ensures s) (show Ensures (pollPause id) s fun _ t =>
    t.info = s.info ∧ t.controllers = s.controllers ∧ t.reported = s.reported ∧ Paused id s t
    from ?_)).mono ?_
  · refine ensures_get_bind (ensures_ite (fun hoff => ensures_pure ?_) fun hon => ?_)
    · exact ⟨rfl, rfl, rfl, Paused.skip hoff rfl fun _ => rfl⟩
    rw [Bool.not_eq_false] at hon
    refine ensures_modifyGet_bind ?_
    dsimp only
    generalize hword : (if s.td id &&& uhciActive = 0 then s.td id
      else s.answer (.interruptTd id)) = word
    have hlook : ∀ v : Usb, (∀ c, v.trail c = (s.trail c ++ if c = id then
        (if s.td id &&& uhciActive ≠ 0 ∧ word &&& uhciActive = 0
          then [UsbEvent.completed id word] else []) else [])) →
        v.td = Function.update s.td id word → Paused id s v := by
      refine fun v htrail htd => Paused.look word hon htd (fun h => ?_) htrail
      rw [← hword, if_pos h]
    have hmarked : Marked id s (if s.td id &&& uhciActive ≠ 0 ∧ word &&& uhciActive = 0
        then [UsbEvent.completed id word] else [])
        { s with
          time := s.time + 1
          td := Function.update s.td id word
          log := s.log ++ if s.td id &&& uhciActive ≠ 0 ∧ word &&& uhciActive = 0
            then [UsbEvent.completed id word] else [] } := by
      refine marked_append rfl fun e he c => ?_
      split_ifs at he
      · rw [List.mem_singleton.mp he]
        exact decide_eq_decide.mpr eq_comm
      · exact absurd he List.not_mem_nil
    refine ensures_ite (fun _ => ensures_modify_bind ?_) fun _ =>
      ensures_pure ⟨rfl, rfl, rfl, hlook _ hmarked rfl⟩
    have hinfo : Keeps Usb.info (uhciStop id) :=
      keeps_bind (keeps_modify fun _ => rfl) fun _ => keeps_bind (keeps_modifyGet fun _ => rfl)
        fun _ => keeps_ite (keeps_bind (keeps_modify fun _ => rfl) fun _ s a t h =>
          absurd h (by simp [kpanic, StateT.run])) (keeps_pure _)
    refine ensures_bind ((flow_uhciStop.ensures _).and (hinfo.ensures _)) ?_
    rintro - t ⟨hflow, hinfo⟩
    simp only [Usb.flow, Prod.mk.injEq] at hflow
    obtain ⟨hreported, hcontrollers, htd, htrail, -⟩ := hflow
    refine ensures_pure ⟨hinfo, hcontrollers, hreported, hlook _ (fun c => ?_) htd⟩
    refine (congrFun htrail c).trans (Eq.trans ?_ (hmarked c))
    exact trail_append rfl (by simp [UsbEvent.ofStream]) c
  · rintro a t ⟨hframe, hinfo, hcontrollers, hreported, P⟩
    exact ⟨hinfo, hcontrollers, hreported, hframe, P⟩

/-- The recovery leaves a controller that is ready alone. -/
theorem pollRecover_spec (s : Usb) : Ensures (pollRecover id) s fun _ t =>
    t.reported = s.reported ∧ (∀ c, t.trail c = s.trail c) ∧ t.frame id = s.frame id ∧
      ((s.info id).status = uhciReady → t = s) ∧
      (t.info id).reports = (s.info id).reports ∧ (t.info id).dropped = (s.info id).dropped := by
  have hready : Ensures (pollRecover id) s fun _ t => (s.info id).status = uhciReady → t = s := by
    refine ensures_get_bind (ensures_ite (fun h => ?_) fun _ => ensures_pure fun _ => rfl)
    intro a t _ hready
    rw [hready] at h
    exact absurd h (by decide)
  -- the queue is emptied, but no report is taken or returned
  let kept : Usb → List (ℕ × UsbReport) × (ℕ → List UsbEvent) × (ℕ → ℕ × ℕ) :=
    fun s => (s.reported, s.trail, fun id => ((s.info id).reports, (s.info id).dropped))
  have hflow : ∀ {α : Type} {m : UsbM α}, Keeps Usb.flow m → Keeps kept m :=
    fun h => h.comp fun v => (v.1, v.2.2.2.1, v.2.2.2.2)
  have hkept : Keeps kept (pollRecover id) := by
    refine keeps_bind keeps_get fun s => keeps_ite ?_ (keeps_pure _)
    refine keeps_bind (hflow (flow_usbOut (by simp [UsbEvent.ofStream]))) fun _ => ?_
    refine keeps_bind (hflow flow_uhciStop) fun _ => ?_
    refine keeps_bind (hflow (flow_usbOut (by simp [UsbEvent.ofStream]))) fun _ => ?_
    refine keeps_bind (keeps_modify fun s => ?_) fun _ => keeps_bind (keeps_modify fun _ => rfl) ?_
    · exact Prod.ext rfl (Prod.ext (funext (trail_append rfl (by simp [UsbEvent.ofStream]))) rfl)
    refine fun _ => keeps_bind (hflow (flow_usbOut (by simp [UsbEvent.ofStream]))) fun _ => ?_
    refine keeps_bind (hflow (flow_setStatus _)) fun _ => hflow (flow_usbOut ?_)
    simp [UsbEvent.ofStream]
  refine ((frame_pollRecover.ensures s).and ((hkept.ensures s).and hready)).mono ?_
  rintro - t ⟨hframe, heq, hready⟩
  simp only [kept, Prod.mk.injEq] at heq
  obtain ⟨hreported, htrail, hcounts⟩ := heq
  have hcount := congrFun hcounts id
  simp only [Prod.mk.injEq] at hcount
  exact ⟨hreported, congrFun htrail, hframe, hready, hcount.1, hcount.2⟩

/-- `usb_uhci_start_interrupt` fails, or starts a stream on a ready controller
without one. -/
theorem usbUhciStartInterrupt_started (address endpoint low packet ms : ℕ) (s : Usb) :
    Ensures (usbUhciStartInterrupt id port address endpoint low packet ms) s fun r t =>
      t.away id = s.away id ∧ t.ticksPerMs = s.ticksPerMs ∧ t.info = s.info ∧
      (r = 0 → t.controllers = s.controllers ∧ t.flow = s.flow) ∧
      (r ≠ 0 → id < uhciControllerCount ∧ (s.info id).status = uhciReady ∧
        (s.controllers id).active = false ∧ packet ≤ uhciReportBytes ∧
        t.controllers = Function.update s.controllers id { s.controllers id with
          address := address, endpoint := endpoint, lowSpeed := low, packet := packet, toggle := 0,
          port := port, producer := 0, consumer := 0, active := true } ∧
        t.reported = s.reported ++ [(id, .connected)] ∧ t.td id &&& uhciActive ≠ 0 ∧
        Marked id s [.started id port] t) := by
  refine ensures_get_bind (ensures_ite (fun _ => ensures_pure ?_) fun hpass => ?_)
  · exact ⟨rfl, rfl, rfl, fun _ => ⟨rfl, rfl⟩, fun h => absurd rfl h⟩
  simp only [not_or, Bool.not_eq_true, Nat.not_le, Nat.not_lt, ne_eq, not_not] at hpass
  obtain ⟨hid, -, -, -, -, -, -, -, hpacket, -, -, hready, hoff⟩ := hpass
  refine ensures_modifyGet_bind (ensures_ite (fun _ => ensures_pure ?_) fun _ => ?_)
  · exact ⟨rfl, rfl, rfl, fun _ => ⟨rfl, rfl⟩, fun h => absurd rfl h⟩
  have hinfo : Keeps (fun s : Usb => (s.info, s.ticksPerMs)) (uhciStop id) :=
    keeps_bind (keeps_modify fun _ => rfl) fun _ => keeps_bind (keeps_modifyGet fun _ => rfl)
      fun _ => keeps_ite (keeps_bind (keeps_modify fun _ => rfl) fun _ s a t h =>
        absurd h (by simp [kpanic, StateT.run])) (keeps_pure _)
  refine ensures_bind ((keeps_uhciStop |>.ensures _).and
    ((flow_uhciStop.ensures _).and (hinfo.ensures _))) ?_
  rintro - u ⟨hfull, hflow, hinfo⟩
  have haway : u.away id = s.away id := congrArg (fun v => v.1.2.2.1) hfull
  simp only [Usb.flow, Prod.mk.injEq] at hflow hinfo
  obtain ⟨hreported, hcontrollers, -, htrail, -⟩ := hflow
  obtain ⟨hinfo, hticks⟩ := hinfo
  refine ensures_modify_bind (ensures_modify_bind (ensures_modify_bind (ensures_modify_bind ?_)))
  refine ensures_modify_bind ?_
  refine ensures_bind ((keeps_armInterrupt |>.ensures _).and ((armInterrupt_spec _).and
    (Keeps.ensures (π := Usb.ticksPerMs) (keeps_bind keeps_get fun _ => keeps_bind
      (keeps_modify fun _ => rfl) fun _ => keeps_bind (keeps_modify fun _ => rfl) fun _ =>
        keeps_modify fun _ => rfl) _))) ?_
  rintro - v ⟨hfull', ⟨hcontrollers', hreported', hinfo', harmed, htrail'⟩, hticks'⟩
  refine ensures_modify_bind (ensures_pure ⟨?_, ?_, ?_, fun h => absurd h Nat.one_ne_zero, fun _ =>
    ⟨hid, hready, hoff, hpacket, ?_, ?_, harmed, ?_⟩⟩)
  · refine Eq.trans (b := v.away id) rfl ((congrArg (fun w => w.1.2.2.1) hfull').trans ?_)
    refine Eq.trans (funext fun x => ?_) haway
    simp only [Usb.full, Usb.frame, Usb.away, Function.update_of_ne x.2]
  · exact hticks'.trans hticks
  · exact hinfo'.trans hinfo
  · refine hcontrollers'.trans ?_
    dsimp only
    rw [hcontrollers]
  · refine hreported'.trans ?_
    dsimp only
    rw [hreported]
  · -- of all the events only the mark of the start is about a stream
    intro c
    refine (trail_append (s := v) rfl (by simp [UsbEvent.ofStream]) c).trans ((htrail' c).trans ?_)
    have hmark : ∀ w : Usb, Marked id w [.started id port] { w with log := w.log ++ [.started id port] } :=
      fun w => marked_append rfl fun e he c => by
        rw [List.mem_singleton.mp he]
        exact decide_eq_decide.mpr eq_comm
    refine (trail_append rfl (by simp [UsbEvent.ofStream]) c).trans ((hmark _ c).trans ?_)
    refine congrArg (· ++ _) ?_
    exact (trail_append rfl (by simp [UsbEvent.ofStream]) c).trans (congrFun htrail c)

end Flow

end VirtualKernel
