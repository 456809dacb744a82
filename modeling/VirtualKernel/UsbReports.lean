/-
The reports of a stream.

Every completion of the descriptor of a stream is taken once: it makes one DATA
callback, counts one report and flips the toggle once, whether an interrupt or
the poll sees it first (`Serviced.reports`).  Over a whole run the completions,
the callbacks and the reports taken are the same list, and the queue of
`usb_uhci_read_report` is a FIFO of 16 reports whose counters may wrap
(`reports_once`).
-/
import VirtualKernel.UsbStreams
import VirtualKernel.Lib.Fifo

namespace VirtualKernel

open Lib

/-! ### Trails -/

/-- The trail since the last start of a stream. -/
def sinceStart (l : List UsbEvent) : List UsbEvent :=
  l.foldl (fun since e => match e with | .started _ _ => [] | e => since ++ [e]) []

/-- The words of the completions in a trail. -/
def completions (l : List UsbEvent) : List ℕ :=
  l.filterMap fun e => match e with | .completed _ word => some word | _ => none

/-- The reports taken in a trail: whether the queue had room, and their bytes. -/
def takings (l : List UsbEvent) : List (Bool × List ℕ) :=
  l.filterMap fun e => match e with | .taken _ queued bytes => some (queued, bytes) | _ => none

/-- The reports accepted by the queue. -/
def accepted (l : List UsbEvent) : List (List ℕ) :=
  ((takings l).filter fun x => x.1).map fun x => x.2

/-- The reports that `usb_uhci_read_report` has returned. -/
def returns (l : List UsbEvent) : List (List ℕ) :=
  l.filterMap fun e => match e with | .returned _ bytes => some bytes | _ => none

/-- The bytes of the DATA callbacks for controller `id`. -/
def dataCalls (id : ℕ) (reported : List (ℕ × UsbReport)) : List (List ℕ) :=
  reported.filterMap fun r => match r with
    | (c, .data bytes length) =>
      if c = id then some ((List.range length).map fun i => (bytes i).toNat) else none
    | _ => none

/-- A report is refused only when 16 reports wait. -/
def RefusedFull (l : List UsbEvent) : Prop :=
  ∀ before id bytes after, l = before ++ .taken id false bytes :: after →
    (accepted before).length = (returns before).length + uhciReportCount

/-- The length of the report that a completion brings. -/
def lengthOf (packet word : ℕ) : ℕ := (uhciCompletedLength word packet).toNat

/-- A completion that has been seen but not yet taken. -/
def Usb.pending (id : ℕ) (s : Usb) : List ℕ :=
  if s.td id &&& uhciActive = 0 then [s.td id] else []

section Trail

variable {id : ℕ} {l m : List UsbEvent} {e : UsbEvent} {reported : List (ℕ × UsbReport)}

theorem sinceStart_started (port : ℕ) : sinceStart (l ++ [.started id port]) = [] := by
  rw [sinceStart, List.foldl_append]
  rfl

theorem sinceStart_append (h : ∀ e ∈ m, ∀ i p, e ≠ .started i p) :
    sinceStart (l ++ m) = sinceStart l ++ m := by
  induction m using List.reverseRecOn with
  | nil => rw [List.append_nil, List.append_nil]
  | append_singleton m e ih =>
    have hm : sinceStart (l ++ m) = sinceStart l ++ m := ih fun e he => h e (by simp [he])
    rw [← List.append_assoc, sinceStart, List.foldl_append, List.foldl_cons, List.foldl_nil,
      ← sinceStart, hm]
    cases e with
    | started i p => exact absurd rfl (h (.started i p) (by simp) i p)
    | _ => exact List.append_assoc _ _ _

theorem completions_append : completions (l ++ m) = completions l ++ completions m :=
  List.filterMap_append

theorem takings_append : takings (l ++ m) = takings l ++ takings m := List.filterMap_append

theorem returns_append : returns (l ++ m) = returns l ++ returns m := List.filterMap_append

theorem accepted_append : accepted (l ++ m) = accepted l ++ accepted m := by
  rw [accepted, takings_append, List.filter_append, List.map_append]
  rfl

theorem dataCalls_append (m : List (ℕ × UsbReport)) :
    dataCalls id (reported ++ m) = dataCalls id reported ++ dataCalls id m := List.filterMap_append

theorem RefusedFull.concat (h : RefusedFull l)
    (he : ∀ i bytes, e = .taken i false bytes →
      (accepted l).length = (returns l).length + uhciReportCount) : RefusedFull (l ++ [e]) := by
  intro before i bytes after heq
  rcases List.eq_nil_or_concat' after with rfl | ⟨after, last, rfl⟩
  · obtain ⟨rfl, hlast⟩ := List.append_inj' heq rfl
    exact he i bytes (List.cons.inj hlast).1
  · rw [← List.cons_append, ← List.append_assoc] at heq
    exact h before i bytes after (List.append_inj' heq rfl).1

theorem RefusedFull.append (h : RefusedFull l) (hm : ∀ e ∈ m, ∀ i bytes, e ≠ .taken i false bytes) :
    RefusedFull (l ++ m) := by
  induction m using List.reverseRecOn with
  | nil => rwa [List.append_nil]
  | append_singleton m e ih =>
    rw [← List.append_assoc]
    refine (ih fun e he => hm e (by simp [he])).concat fun i bytes heq => ?_
    exact absurd heq (hm e (by simp) i bytes)

end Trail

/-! ### The invariant -/

/-- A stream in progress. -/
structure Flowing (id : ℕ) (s : Usb) : Prop where
  packet : (s.controllers id).packet ≤ uhciReportBytes
  once : ∃ done, completions (sinceStart (s.trail id)) = done ++ s.pending id ∧
    done.map (lengthOf (s.controllers id).packet) =
      (takings (sinceStart (s.trail id))).map fun x => x.2.length
  toggle : (s.controllers id).toggle = (takings (sinceStart (s.trail id))).length % 2
  fifo : Fifo (2 ^ 32) uhciReportCount (fun i => ((s.controllers id).queue i).bytes)
    (s.controllers id).producer (s.controllers id).consumer (accepted (sinceStart (s.trail id)))
    (returns (sinceStart (s.trail id)))
  refused : RefusedFull (sinceStart (s.trail id))

/-- The reports of controller `id`: its callbacks and its counters, and its stream
if it has one. -/
structure ReportsOk (id : ℕ) (s : Usb) : Prop where
  called : dataCalls id s.reported = (takings (s.trail id)).map fun x => x.2
  short : ∀ x ∈ takings (s.trail id), x.2.length ≤ uhciReportBytes
  reports : (s.info id).reports = (takings (s.trail id)).length % 2 ^ 32
  dropped : (s.info id).dropped = ((takings (s.trail id)).filter fun x => !x.1).length % 2 ^ 32
  stream : (s.controllers id).active = true → Flowing id s

/-- Between the calls no completion is pending. -/
def Settled (id : ℕ) (s : Usb) : Prop := (s.controllers id).active = true → s.pending id = []

/-- What the reports of controller `id` depend on. -/
def Usb.view (id : ℕ) (s : Usb) :=
  (s.controllers id, s.pending id, s.trail id, dataCalls id s.reported,
    ((s.info id).reports, (s.info id).dropped))

section Steps

variable {id : ℕ} {s t : Usb}

theorem view_eq (h : t.view id = s.view id) : t.controllers id = s.controllers id ∧
    t.pending id = s.pending id ∧ t.trail id = s.trail id ∧
    dataCalls id t.reported = dataCalls id s.reported ∧
    (t.info id).reports = (s.info id).reports ∧ (t.info id).dropped = (s.info id).dropped := by
  simp only [Usb.view, Prod.mk.injEq] at h
  exact ⟨h.1, h.2.1, h.2.2.1, h.2.2.2.1, h.2.2.2.2.1, h.2.2.2.2.2⟩

/-- No report has been taken, and what becomes of the stream is known. -/
theorem ReportsOk.carry (R : ReportsOk id s) (htakings : takings (t.trail id) = takings (s.trail id))
    (hdata : dataCalls id t.reported = dataCalls id s.reported)
    (hreports : (t.info id).reports = (s.info id).reports)
    (hdropped : (t.info id).dropped = (s.info id).dropped)
    (hstream : (t.controllers id).active = true → Flowing id t) : ReportsOk id t := by
  refine ⟨?_, ?_, ?_, ?_, hstream⟩
  · rw [hdata, htakings]
    exact R.called
  · rw [htakings]
    exact R.short
  · rw [hreports, htakings]
    exact R.reports
  · rw [hdropped, htakings]
    exact R.dropped

theorem Flowing.of_eq (F : Flowing id s) (hc : t.controllers id = s.controllers id)
    (hpending : t.pending id = s.pending id) (htrail : t.trail id = s.trail id) : Flowing id t := by
  constructor
  · rw [hc]
    exact F.packet
  · rw [hc, htrail, hpending]
    exact F.once
  · rw [hc, htrail]
    exact F.toggle
  · rw [hc, htrail]
    exact F.fifo
  · rw [htrail]
    exact F.refused

theorem ReportsOk.of_view (R : ReportsOk id s) (h : t.view id = s.view id) : ReportsOk id t := by
  obtain ⟨hc, hpending, htrail, hdata, hreports, hdropped⟩ := view_eq h
  refine R.carry (by rw [htrail]) hdata hreports hdropped fun hactive => ?_
  rw [hc] at hactive
  exact (R.stream hactive).of_eq hc hpending htrail

theorem Settled.of_view (S : Settled id s) (h : t.view id = s.view id) : Settled id t := by
  obtain ⟨hc, hpending, -⟩ := view_eq h
  rw [Settled, hc, hpending]
  exact S

theorem dataCalls_beside {c : ℕ} (hne : c ≠ id)
    (hreported : t.reported = s.reported ∨ ∃ e, t.reported = s.reported ++ [(id, e)]) :
    dataCalls c t.reported = dataCalls c s.reported := by
  rcases hreported with h | ⟨e, h⟩
  · rw [h]
  · have hnone : dataCalls c [(id, e)] = [] := by
      cases e with
      | data bytes length =>
        rw [dataCalls, List.filterMap_cons]
        dsimp only
        rw [if_neg (Ne.symm hne)]
        rfl
      | _ => rfl
    rw [h, dataCalls_append, hnone, List.append_nil]

/-- The other controllers. -/
theorem view_beside {c : ℕ} {m : List UsbEvent} (hne : c ≠ id) (haway : t.away id = s.away id)
    (hmarked : Marked id s m t)
    (hreported : t.reported = s.reported ∨ ∃ e, t.reported = s.reported ++ [(id, e)]) :
    t.view c = s.view c := by
  have hx := congrFun haway ⟨c, hne⟩
  simp only [Usb.away, Prod.mk.injEq] at hx
  obtain ⟨hinfo, hcontrollers, -, -, -, htd⟩ := hx
  have htrail : t.trail c = s.trail c := by
    rw [hmarked c, if_neg hne, List.append_nil]
  rw [Usb.view, Usb.view, hinfo, hcontrollers, htrail, Usb.pending, htd,
    dataCalls_beside hne hreported]
  rfl

/-- A program that is not about streams. -/
theorem view_of_flow (hflow : t.flow = s.flow) : t.view id = s.view id := by
  simp only [Usb.flow, Prod.mk.injEq] at hflow
  obtain ⟨hreported, hcontrollers, htd, htrail, hcounts⟩ := hflow
  have hcount := congrFun hcounts id
  simp only [Prod.mk.injEq] at hcount
  rw [Usb.view, Usb.view, hreported, hcontrollers, htrail, Usb.pending, htd, hcount.1, hcount.2]
  rfl

theorem Marked.own {m : List UsbEvent} (h : Marked id s m t) : t.trail id = s.trail id ++ m := by
  rw [h id, if_pos rfl]

theorem takings_fresh : takings (s.fresh id) = [] := by
  rw [Usb.fresh]
  split_ifs <;> rfl

theorem returns_fresh : returns (s.fresh id) = [] := by
  rw [Usb.fresh]
  split_ifs <;> rfl

theorem accepted_fresh : accepted (s.fresh id) = [] := by
  rw [accepted, takings_fresh]
  rfl

theorem fresh_not_started : ∀ e ∈ s.fresh id, ∀ i p, e ≠ .started i p := by
  rw [Usb.fresh]
  split_ifs
  · exact fun e he => absurd he List.not_mem_nil
  · intro e he i p
    rw [List.mem_singleton.mp he]
    exact UsbEvent.noConfusion

/-- The completion that a service sees, pending or new. -/
theorem pending_fresh : s.pending id ++ completions (s.fresh id) = [s.readWord id] := by
  rw [Usb.pending, Usb.fresh]
  split_ifs with htd
  · rw [Usb.readWord, if_pos htd]
    rfl
  · rfl

theorem bytes_length : (s.report id).bytes.length = s.readLength id := by
  rw [UhciReport.bytes, List.length_map, List.length_range]
  rfl

/-- The bytes of the callback are the bytes of the report. -/
theorem bytes_eq : (List.range (s.readLength id)).map (fun i => (UInt8.ofNat (s.arrived id i)).toNat) =
    (s.report id).bytes := by
  refine List.map_congr_left fun i hi => ?_
  have hlt : s.arrived id i < 2 ^ 8 := Nat.mod_lt _ (by decide)
  dsimp only [Usb.report]
  rw [if_pos (List.mem_range.mp hi), UInt8.toNat_ofNat']
  exact Nat.mod_eq_of_lt hlt

theorem readLength_le (C : Completes id s) : s.readLength id ≤ (s.controllers id).packet := by
  have hlength := C.length
  unfold Usb.readLength
  unfold uhciCompletedLength at hlength ⊢
  dsimp only at hlength ⊢
  by_cases h1 : s.readWord id &&& uhciActive ≠ 0
  · rw [if_pos h1] at hlength
    exact absurd hlength (by decide)
  by_cases h2 : s.readWord id &&& uhciErrors ≠ 0
  · rw [if_neg h1, if_pos h2] at hlength
    exact absurd hlength (by decide)
  rw [if_neg h1, if_neg h2] at hlength ⊢
  split_ifs at hlength ⊢ with h3
  · exact h3
  · exact absurd hlength (by decide)

/-- The slot that the producer writes. -/
theorem accept_queue (c : UhciController) (r : UhciReport)
    (hroom : sub32 c.producer c.consumer < uhciReportCount) :
    (fun i => ((c.accept r).queue i).bytes) =
      Function.update (fun i => (c.queue i).bytes) (c.producer % uhciReportCount) r.bytes := by
  have hslot : c.producer &&& (uhciReportCount - 1) = c.producer % uhciReportCount :=
    Nat.and_two_pow_sub_one_eq_mod c.producer 4
  funext i
  rw [UhciController.accept, if_pos hroom]
  dsimp only
  rw [hslot]
  by_cases hi : i = c.producer % uhciReportCount
  · rw [hi, Function.update_self, Function.update_self]
  · rw [Function.update_of_ne hi, Function.update_of_ne hi]

/-- The controller after a report has been taken. -/
def UhciController.took (c : UhciController) (report : UhciReport) : UhciController :=
  { c.accept report with toggle := c.toggle ^^^ 1 }

theorem took_spec (c : UhciController) (r : UhciReport) :
    (c.took r).packet = c.packet ∧ (c.took r).consumer = c.consumer ∧
      (c.took r).queue = (c.accept r).queue ∧ (c.took r).producer = (c.accept r).producer ∧
      (c.took r).toggle = c.toggle ^^^ 1 ∧ (c.took r).active = c.active := by
  rw [UhciController.took, UhciController.accept]
  split_ifs <;> exact ⟨rfl, rfl, rfl, rfl, rfl, rfl⟩

/-- **A service that takes a report.** -/
theorem Flowing.taken (F : Flowing id s)
    (hcontrollers : t.controllers = Function.update s.controllers id
      { (s.controllers id).accept (s.report id) with toggle := (s.controllers id).toggle ^^^ 1 })
    (harmed : t.td id &&& uhciActive ≠ 0) (hmarked : Marked id s (s.fresh id ++ [s.take id]) t) :
    Flowing id t := by
  obtain ⟨hpacket, ⟨done, hdone, hlengths⟩, htoggle, hfifo, hrefused⟩ := F
  set c := s.controllers id
  set l := sinceStart (s.trail id) with hl
  have hcontroller : t.controllers id = c.took (s.report id) := by
    rw [hcontrollers, Function.update_self]
    rfl
  obtain ⟨hpacket', hconsumer', hqueue', hproducer', htoggle', -⟩ := took_spec c (s.report id)
  have hsince : sinceStart (t.trail id) = l ++ s.fresh id ++ [s.take id] := by
    rw [hmarked.own, sinceStart_append, ← hl, List.append_assoc]
    intro e he i p
    rcases List.mem_append.mp he with he | he
    · exact fresh_not_started e he i p
    · rw [List.mem_singleton.mp he]
      exact UsbEvent.noConfusion
  have htakings : takings (sinceStart (t.trail id)) = takings l ++
      [(decide (sub32 c.producer c.consumer < uhciReportCount), (s.report id).bytes)] := by
    rw [hsince, takings_append, takings_append, takings_fresh, List.append_nil]
    rfl
  have hreturns : returns (sinceStart (t.trail id)) = returns l := by
    rw [hsince, returns_append, returns_append, returns_fresh, List.append_nil]
    exact List.append_nil _
  have hcount : sub32 c.producer c.consumer = (accepted l).length - (returns l).length :=
    hfifo.count (Nat.pow_lt_pow_right (by decide : 1 < 2) (by decide : 4 < 32))
  have hread := hfifo.read
  have hroom := hfifo.room
  refine ⟨?_, ?_, ?_, ?_, ?_⟩
  · rw [hcontroller, hpacket']
    exact hpacket
  · -- the completion that is taken now is the pending one, or it is new
    have hpending : t.pending id = [] := if_neg harmed
    refine ⟨done ++ [s.readWord id], ?_, ?_⟩
    · rw [hpending, List.append_nil, hsince, completions_append, completions_append, hdone,
        List.append_assoc done, pending_fresh]
      exact List.append_nil _
    · rw [htakings, List.map_append, List.map_append, hcontroller, hpacket', hlengths,
        List.map_singleton, List.map_singleton, bytes_length]
      rfl
  · rw [hcontroller, htoggle', htakings, List.length_append, List.length_singleton, htoggle]
    rcases Nat.mod_two_eq_zero_or_one (takings l).length with h | h
    · rw [h, Nat.add_mod, h]
      rfl
    · rw [h, Nat.add_mod, h]
      rfl
  · rw [hreturns, hcontroller, hconsumer', hqueue', hproducer', accepted, htakings,
      List.filter_append, List.map_append]
    by_cases hfree : sub32 c.producer c.consumer < uhciReportCount
    · have hproducer : (c.accept (s.report id)).producer = (c.producer + 1) % 2 ^ 32 := by
        rw [UhciController.accept, if_pos hfree]
      rw [hproducer, decide_eq_true hfree, accept_queue c _ hfree]
      refine hfifo.push (Nat.pow_dvd_pow 2 (by decide : 4 ≤ 32)) ?_ _
      rw [hcount] at hfree
      omega
    · rw [decide_eq_false hfree, UhciController.accept, if_neg hfree]
      exact (List.append_nil (accepted l)).symm ▸ hfifo
  · rw [hsince]
    refine (hrefused.append fun e he i bytes heq => ?_).concat fun i bytes heq => ?_
    · rw [heq, Usb.fresh] at he
      split_ifs at he
      · exact absurd he List.not_mem_nil
      · exact absurd (List.mem_singleton.mp he) UsbEvent.noConfusion
    · have hqueued := (UsbEvent.taken.inj heq).2.1
      have hfull : ¬sub32 c.producer c.consumer < uhciReportCount := of_decide_eq_false hqueued
      rw [hcount, Nat.not_lt] at hfull
      rw [accepted_append, accepted_fresh, List.append_nil, returns_append, returns_fresh,
        List.append_nil]
      omega

/-- **What a service does to the reports** of its controller. -/
theorem Serviced.reports (S : Serviced id s t) (R : ReportsOk id s) :
    ReportsOk id t ∧ Settled id t := by
  cases S with
  | quiet _ hcontrollers hreported _ hreports hdropped htd hmarked =>
    have htrail : t.trail id = s.trail id := hmarked.own.trans (List.append_nil _)
    refine ⟨R.carry (by rw [htrail]) (by rw [hreported]) hreports hdropped fun hactive => ?_,
      fun hactive => ?_⟩
    · rw [hcontrollers] at hactive
      have hpending : t.pending id = s.pending id :=
        (if_neg (htd hactive).2).trans (if_neg (htd hactive).1).symm
      exact (R.stream hactive).of_eq (by rw [hcontrollers]) hpending htrail
    · rw [hcontrollers] at hactive
      exact if_neg (htd hactive).2
  | ended _ hcontrollers hreported _ hreports hdropped hmarked =>
    obtain ⟨m, hm, hmarked⟩ := hmarked
    have hoff : ¬(t.controllers id).active = true := by
      rw [hcontrollers, Function.update_self]
      exact Bool.false_ne_true
    have hnone : takings m = [] := by
      rcases hm with rfl | rfl
      · rfl
      · exact takings_fresh
    refine ⟨R.carry ?_ ?_ hreports hdropped fun h => absurd h hoff, fun h => absurd h hoff⟩
    · rw [hmarked.own, takings_append, hnone, List.append_nil]
    · rw [hreported, dataCalls_append]
      exact List.append_nil _
  | report C hcontrollers hreported _ hreports hdropped harmed hmarked =>
    have F := R.stream C.active
    have F' := F.taken hcontrollers harmed hmarked
    have htakings : takings (t.trail id) = takings (s.trail id) ++
        [(decide (sub32 (s.controllers id).producer (s.controllers id).consumer < uhciReportCount),
          (s.report id).bytes)] := by
      rw [hmarked.own, takings_append, takings_append, takings_fresh]
      rfl
    refine ⟨⟨?_, ?_, ?_, ?_, fun _ => F'⟩, fun _ => if_neg harmed⟩
    · rw [hreported, dataCalls_append, R.called, htakings, List.map_append, dataCalls,
        List.filterMap_cons]
      dsimp only
      rw [if_pos rfl, bytes_eq]
      rfl
    · rw [htakings]
      intro x hx
      rcases List.mem_append.mp hx with hx | hx
      · exact R.short x hx
      · rw [List.mem_singleton.mp hx, bytes_length]
        exact (readLength_le C).trans F.packet
    · rw [hreports, R.reports, htakings, List.length_append, List.length_singleton, Nat.mod_add_mod]
    · rw [hdropped, R.dropped, htakings, List.filter_append, List.length_append]
      split_ifs with hroom
      · rw [decide_eq_true hroom]
        rfl
      · rw [decide_eq_false hroom, Nat.mod_add_mod]
        rfl

/-- `pollPause` may see a completion, but it takes nothing. -/
theorem Paused.reports (P : Paused id s t) (R : ReportsOk id s)
    (hcontrollers : t.controllers = s.controllers) (hreported : t.reported = s.reported)
    (hinfo : t.info = s.info) : ReportsOk id t := by
  cases P with
  | skip hoff _ htrail =>
    refine R.carry (by rw [htrail]) (by rw [hreported]) (by rw [hinfo]) (by rw [hinfo]) fun hactive => ?_
    rw [hcontrollers, hoff] at hactive
    exact absurd hactive Bool.false_ne_true
  | look word hactive htd hold hmarked =>
    -- the completion is pending before and after, or it is new
    have hpending : t.pending id = s.pending id ++ completions
        (if s.td id &&& uhciActive ≠ 0 ∧ word &&& uhciActive = 0
          then [UsbEvent.completed id word] else []) := by
      rw [Usb.pending, Usb.pending, htd, Function.update_self]
      by_cases hdone : s.td id &&& uhciActive = 0
      · rw [hold hdone, if_pos hdone, if_neg fun h => h.1 hdone]
        rfl
      · rw [if_neg hdone]
        by_cases hword : word &&& uhciActive = 0
        · rw [if_pos hword, if_pos ⟨hdone, hword⟩]
          rfl
        · rw [if_neg hword, if_neg fun h => hword h.2]
          rfl
    have hmark : ∀ e ∈ (if s.td id &&& uhciActive ≠ 0 ∧ word &&& uhciActive = 0
        then [UsbEvent.completed id word] else []), e = UsbEvent.completed id word := by
      intro e he
      split_ifs at he
      · exact List.mem_singleton.mp he
      · exact absurd he List.not_mem_nil
    generalize (if s.td id &&& uhciActive ≠ 0 ∧ word &&& uhciActive = 0
      then [UsbEvent.completed id word] else []) = m at hmarked hpending hmark
    have htrail := hmarked.own
    have hsince : sinceStart (t.trail id) = sinceStart (s.trail id) ++ m := by
      rw [htrail, sinceStart_append]
      intro e he i p heq
      rw [hmark e he] at heq
      exact UsbEvent.noConfusion heq
    have htakings : takings m = [] := by
      refine List.filterMap_eq_nil_iff.mpr fun e he => ?_
      rw [hmark e he]
    have hreturns : returns m = [] := by
      refine List.filterMap_eq_nil_iff.mpr fun e he => ?_
      rw [hmark e he]
    have haccepted : accepted m = [] := by
      rw [accepted, htakings]
      rfl
    refine R.carry (by rw [htrail, takings_append, htakings, List.append_nil]) (by rw [hreported])
      (by rw [hinfo]) (by rw [hinfo]) fun _ => ?_
    have F := R.stream hactive
    obtain ⟨done, hdone, hlengths⟩ := F.once
    refine ⟨?_, ⟨done, ?_, ?_⟩, ?_, ?_, ?_⟩
    · rw [hcontrollers]
      exact F.packet
    · rw [hsince, completions_append, hdone, hpending, List.append_assoc]
    · rw [hcontrollers, hsince, takings_append, htakings, List.append_nil]
      exact hlengths
    · rw [hcontrollers, hsince, takings_append, htakings, List.append_nil]
      exact F.toggle
    · rw [hcontrollers, hsince, accepted_append, haccepted, returns_append, hreturns,
        List.append_nil, List.append_nil]
      exact F.fifo
    · rw [hsince]
      refine F.refused.append fun e he i bytes heq => ?_
      rw [hmark e he] at heq
      exact UsbEvent.noConfusion heq

/-- A stream that starts. -/
theorem flowing_started {port address endpoint low packet : ℕ} (hpacket : packet ≤ uhciReportBytes)
    (hcontrollers : t.controllers = Function.update s.controllers id { s.controllers id with
      address := address, endpoint := endpoint, lowSpeed := low, packet := packet, toggle := 0,
      port := port, producer := 0, consumer := 0, active := true })
    (harmed : t.td id &&& uhciActive ≠ 0) (hmarked : Marked id s [.started id port] t) :
    Flowing id t := by
  have hsince : sinceStart (t.trail id) = [] := by
    rw [hmarked.own, sinceStart_started]
  have hpending : t.pending id = [] := if_neg harmed
  refine ⟨?_, ⟨[], ?_, ?_⟩, ?_, ?_, ?_⟩
  · rw [hcontrollers, Function.update_self]
    exact hpacket
  · rw [hsince, hpending]
    rfl
  · rw [hsince]
    rfl
  · rw [hcontrollers, Function.update_self, hsince]
    rfl
  · rw [hcontrollers, Function.update_self, hsince]
    exact Fifo.empty _
  · rw [hsince]
    intro before i bytes after heq
    exact absurd heq.symm (by simp)

/-- What `usb_uhci_read_report` gives: the oldest report that waits. -/
theorem usbUhciReadReport_flowing (hid : id < uhciControllerCount) (F : Flowing id s) :
    Ensures (usbUhciReadReport id) s fun r t =>
      r.map (·.bytes) = ((accepted (sinceStart (s.trail id))).drop
        (returns (sinceStart (s.trail id))).length).head? ∧ Flowing id t := by
  obtain ⟨hpacket, ⟨done, hdone, hlengths⟩, htoggle, hfifo, hrefused⟩ := F
  have hlt : uhciReportCount < 2 ^ 32 :=
    Nat.pow_lt_pow_right (by decide : 1 < 2) (by decide : 4 < 32)
  have hempty := hfifo.counters_eq hlt
  have hread := hfifo.read
  refine ensures_get_bind (ensures_ite (fun hnone => ensures_pure ?_) fun hsome => ?_)
  · have hall : (returns (sinceStart (s.trail id))).length =
        (accepted (sinceStart (s.trail id))).length :=
      hempty.mp (hnone.resolve_left (Nat.not_le.mpr hid))
    rw [hall, List.drop_length]
    exact ⟨rfl, hpacket, ⟨done, hdone, hlengths⟩, htoggle, hfifo, hrefused⟩
  rw [not_or] at hsome
  have hne : (returns (sinceStart (s.trail id))).length ≠
      (accepted (sinceStart (s.trail id))).length := fun h => hsome.2 (hempty.mpr h)
  have hslot : (s.controllers id).consumer &&& (uhciReportCount - 1) =
      (s.controllers id).consumer % uhciReportCount :=
    Nat.and_two_pow_sub_one_eq_mod (s.controllers id).consumer 4
  have hdvd : uhciReportCount ∣ 2 ^ 32 := Nat.pow_dvd_pow 2 (by decide : 4 ≤ 32)
  have hpop := hfifo.pop hdvd hne
  have hfront := hfifo.front hdvd hne
  rw [← hslot] at hpop hfront
  refine ensures_modify_bind (ensures_modify_bind (ensures_pure ⟨?_, ?_⟩))
  · rw [List.head?_drop, hfront]
    rfl
  generalize ht : Usb.mk _ _ _ _ _ _ _ _ _ _ _ _ _ _ _ _ _ _ _ _ _ _ = t
  have htrail : t.trail id = s.trail id ++ [.returned id ((s.controllers id).queue
      ((s.controllers id).consumer &&& (uhciReportCount - 1))).bytes] := by
    subst ht
    exact (marked_append (t := { s with log := s.log ++ [.returned id ((s.controllers id).queue
      ((s.controllers id).consumer &&& (uhciReportCount - 1))).bytes] }) rfl fun e he c => by
        rw [List.mem_singleton.mp he]
        exact decide_eq_decide.mpr eq_comm).own
  have hsince : sinceStart (t.trail id) = sinceStart (s.trail id) ++ [.returned id
      ((s.controllers id).queue ((s.controllers id).consumer &&& (uhciReportCount - 1))).bytes] := by
    rw [htrail, sinceStart_append]
    intro e he i p
    rw [List.mem_singleton.mp he]
    exact UsbEvent.noConfusion
  have hcontroller : t.controllers id = { s.controllers id with
      consumer := ((s.controllers id).consumer + 1) % 2 ^ 32 } := by
    subst ht
    exact Function.update_self _ _ _
  have hpending : t.pending id = s.pending id := by
    subst ht
    rfl
  have htakings : takings (sinceStart (t.trail id)) = takings (sinceStart (s.trail id)) := by
    rw [hsince, takings_append]
    exact List.append_nil _
  refine ⟨?_, ⟨done, ?_, ?_⟩, ?_, ?_, ?_⟩
  · rw [hcontroller]
    exact hpacket
  · rw [hpending, ← hdone, hsince, completions_append]
    exact List.append_nil _
  · rw [hcontroller, htakings]
    exact hlengths
  · rw [hcontroller, htakings]
    exact htoggle
  · rw [hcontroller, accepted, htakings, hsince, returns_append]
    exact hpop
  · rw [hsince]
    exact hrefused.concat fun i bytes heq => UsbEvent.noConfusion heq

end Steps

/-! ### Calls -/

/-- What holds of the reports between the calls of the host. -/
structure HostReports (s : Usb) : Prop where
  reports : ∀ id < uhciControllerCount, ReportsOk id s
  settled : ∀ id < uhciControllerCount, Settled id s

section Calls

variable {id : ℕ} {s t : Usb}

theorem HostReports.of_flow (H : HostReports s) (hflow : t.flow = s.flow) : HostReports t :=
  ⟨fun id hid => (H.reports id hid).of_view (view_of_flow hflow),
    fun id hid => (H.settled id hid).of_view (view_of_flow hflow)⟩

theorem Lib.Keeps.hostReports {α : Type} {m : UsbM α} (h : Keeps Usb.flow m) (H : HostReports s) :
    Ensures m s fun _ t => HostReports t :=
  (h.ensures s).mono fun _ _ hflow => H.of_flow hflow

/-- A step of one controller. -/
theorem hostReports_step {m : List UsbEvent}
    (R : ∀ c < uhciControllerCount, c ≠ id → ReportsOk c s)
    (S : ∀ c < uhciControllerCount, c ≠ id → Settled c s) (haway : t.away id = s.away id)
    (hmarked : Marked id s m t)
    (hreported : t.reported = s.reported ∨ ∃ e, t.reported = s.reported ++ [(id, e)])
    (hown : ReportsOk id t ∧ Settled id t) : HostReports t := by
  refine ⟨fun c hc => ?_, fun c hc => ?_⟩
  · by_cases hne : c = id
    · rw [hne]
      exact hown.1
    · exact (R c hc hne).of_view (view_beside hne haway hmarked hreported)
  · by_cases hne : c = id
    · rw [hne]
      exact hown.2
    · exact (S c hc hne).of_view (view_beside hne haway hmarked hreported)

/-- **A service** of a controller that may have a completion pending. -/
theorem serviceController_reports (fromIrq : Bool) (hid : id < uhciControllerCount) (ok : HostOk s)
    (R : ∀ c < uhciControllerCount, ReportsOk c s)
    (S : ∀ c < uhciControllerCount, c ≠ id → Settled c s) :
    Ensures (serviceController id fromIrq) s fun _ t => HostReports t := by
  refine (serviceController_hostOk fromIrq hid ok).mono ?_
  rintro - t ⟨-, served, hcalm⟩
  have haway : t.away id = s.away id := congrArg (fun v => v.2.2.1) hcalm
  have hown := served.reports (R id hid)
  cases served with
  | quiet _ _ hreported _ _ _ _ hmarked =>
    exact hostReports_step (fun c hc _ => R c hc) S haway hmarked (Or.inl hreported) hown
  | ended _ _ hreported _ _ _ hmarked =>
    obtain ⟨m, -, hmarked⟩ := hmarked
    exact hostReports_step (fun c hc _ => R c hc) S haway hmarked (Or.inr ⟨_, hreported⟩) hown
  | report _ _ hreported _ _ _ _ hmarked =>
    exact hostReports_step (fun c hc _ => R c hc) S haway hmarked (Or.inr ⟨_, hreported⟩) hown

theorem interruptControllers_reports (gsi : ℕ) (ok : HostOk s) (H : HostReports s) :
    ∀ n ≤ uhciControllerCount, Ensures (interruptControllers gsi n) s fun _ t =>
      HostOk t ∧ HostReports t
  | 0, _ => ensures_pure ⟨ok, H⟩
  | n + 1, hn => by
    refine ensures_bind (interruptControllers_reports gsi ok H n (by omega)) ?_
    rintro claimed u ⟨ok, H⟩
    refine ensures_get_bind (ensures_ite (fun _ => ?_) fun _ => ensures_pure ⟨ok, H⟩)
    refine ensures_bind ((serviceController_hostOk true (by omega) ok).and
      (serviceController_reports true (by omega) ok H.reports fun c hc _ => H.settled c hc)) ?_
    rintro - t ⟨⟨ok, -⟩, H⟩
    exact ensures_pure ⟨ok, H⟩

theorem usbHostInterrupt_reports (gsi : ℕ) (ok : HostOk s) (H : HostReports s) :
    Ensures (usbHostInterrupt gsi) s fun _ t => HostReports t := by
  refine ensures_bind (interruptControllers_reports gsi ok H _ (Nat.le_refl _)) ?_
  rintro claimed u ⟨-, H⟩
  refine Keeps.hostReports (keeps_ite (keeps_modify fun _ => rfl) ?_) H
  refine keeps_bind keeps_get fun _ => keeps_bind (keeps_modify fun _ => rfl) fun _ => ?_
  refine keeps_ite (keeps_pure _) (keeps_bind (flow_usbIn _) fun _ => ?_)
  refine keeps_bind (flow_usbOut (by simp [UsbEvent.ofStream])) fun _ => keeps_modify fun _ => rfl

/-- **A poll of one controller.** -/
theorem pollController_reports (hid : id < uhciControllerCount) (ok : HostOk s) (H : HostReports s) :
    Ensures (pollController id) s fun _ t => HostReports t := by
  refine ensures_get_bind (ensures_ite (fun _ => ensures_pure H) fun _ => ?_)
  refine ensures_bind (pollPause_spec s) ?_
  rintro paused s₁ ⟨hinfo₁, hcontrollers₁, hreported₁, hframe₁, P⟩
  have hticks₁ : s₁.ticksPerMs = s.ticksPerMs := congrArg (fun v => v.2.1.2) hframe₁
  have haway₁ : s₁.away id = s.away id := congrArg (fun v => v.2.2.1) hframe₁
  have ok₁ : HostOk s₁ := ok.of_eq hinfo₁ hcontrollers₁ hreported₁ hticks₁
  -- now a completion may be pending on this controller, and only on this one
  have hmarked₁ : ∃ m, Marked id s m s₁ := by
    cases P with
    | skip _ _ htrail => exact ⟨[], Marked.of_trail htrail⟩
    | look word _ _ _ hmarked => exact ⟨_, hmarked⟩
  obtain ⟨m, hmarked₁⟩ := hmarked₁
  have R₁ : ∀ c < uhciControllerCount, ReportsOk c s₁ := by
    intro c hc
    by_cases hne : c = id
    · rw [hne]
      exact P.reports (H.reports id hid) hcontrollers₁ hreported₁ hinfo₁
    · exact (H.reports c hc).of_view (view_beside hne haway₁ hmarked₁ (Or.inl hreported₁))
  have S₁ : ∀ c < uhciControllerCount, c ≠ id → Settled c s₁ := fun c hc hne =>
    (H.settled c hc).of_view (view_beside hne haway₁ hmarked₁ (Or.inl hreported₁))
  refine ensures_bind ((serviceController_hostOk false hid ok₁).and
    (serviceController_reports false hid ok₁ R₁ S₁)) ?_
  rintro - s₂ ⟨⟨ok₂, -⟩, H₂⟩
  refine ensures_get_bind (ensures_ite (fun _ => ensures_pure H₂) fun _ => ?_)
  have hresume : Keeps Usb.info (pollResume id paused) :=
    keeps_bind keeps_get fun _ => keeps_modify fun _ => rfl
  refine ensures_bind (((flow_pollResume paused).ensures s₂).and (hresume.ensures s₂)) ?_
  rintro - s₃ ⟨hflow₃, hinfo₃⟩
  have H₃ : HostReports s₃ := H₂.of_flow hflow₃
  have hcontrollers₃ : s₃.controllers = s₂.controllers := congrArg (fun v => v.2.1) hflow₃
  refine ensures_bind (pollRecover_spec s₃) ?_
  rintro - s₄ ⟨hreported₄, htrail₄, hframe₄, hready₄, hreports₄, hdropped₄⟩
  -- a controller that needs recovery has no stream
  have H₄ : HostReports s₄ := by
    by_cases hready : (s₃.info id).status = uhciReady
    · rw [hready₄ hready]
      exact H₃
    have hactive₄ : (s₄.controllers id).active = (s₃.controllers id).active :=
      congrArg (fun v => v.2.2.2.1.2.1) hframe₄
    have hoff : ¬(s₄.controllers id).active = true := by
      rw [hactive₄, hcontrollers₃]
      intro hactive
      rw [hinfo₃] at hready
      exact hready ((ok₂.streams id hid).ready hactive).2
    refine hostReports_step (s := s₃) (m := []) (fun c hc _ => H₃.reports c hc)
      (fun c hc _ => H₃.settled c hc) (congrArg (fun v => v.2.2.1) hframe₄) (Marked.of_trail htrail₄)
      (Or.inl hreported₄) ⟨?_, fun h => absurd h hoff⟩
    exact (H₃.reports id hid).carry (by rw [htrail₄]) (by rw [hreported₄]) hreports₄ hdropped₄
      fun h => absurd h hoff
  refine Keeps.hostReports (keeps_bind flow_pollPort fun _ => keeps_bind flow_pollPort fun _ => ?_) H₄
  exact keeps_bind keeps_get fun _ => keeps_pure _

theorem pollControllers_reports (ok : HostOk s) (H : HostReports s) : ∀ n ≤ uhciControllerCount,
    Ensures (pollControllers n) s fun _ t => HostOk t ∧ HostReports t
  | 0, _ => ensures_pure ⟨ok, H⟩
  | n + 1, hn => by
    refine ensures_bind (pollControllers_reports ok H n (by omega)) ?_
    rintro active u ⟨ok, H⟩
    refine ensures_bind ((pollController_hostOk (by omega) ok).and
      (pollController_reports (by omega) ok H)) ?_
    rintro a t ⟨⟨ok, -⟩, H⟩
    exact ensures_pure ⟨ok, H⟩

theorem usbHostPoll_reports (ok : HostOk s) (H : HostReports s) :
    Ensures usbHostPoll s fun _ t => HostReports t := by
  refine ensures_get_bind (ensures_ite (fun _ => ensures_pure H) fun _ => ensures_modify_bind ?_)
  refine (pollControllers_reports ?_ ?_ _ (Nat.le_refl _)).mono fun _ _ h => h.2
  · exact ok.of_eq rfl rfl rfl rfl
  · exact H.of_flow rfl

theorem usbUhciStartInterrupt_reports (port address endpoint low packet ms : ℕ) (H : HostReports s) :
    Ensures (usbUhciStartInterrupt id port address endpoint low packet ms) s fun _ t =>
      HostReports t := by
  refine (usbUhciStartInterrupt_started address endpoint low packet ms s).mono ?_
  rintro r t ⟨haway, -, hinfo, hfail, hstart⟩
  by_cases hr : r = 0
  · exact H.of_flow (hfail hr).2
  obtain ⟨hid, -, -, hpacket, hcontrollers, hreported, harmed, hmarked⟩ := hstart hr
  have F := flowing_started hpacket hcontrollers harmed hmarked
  refine hostReports_step (fun c hc _ => H.reports c hc) (fun c hc _ => H.settled c hc) haway
    hmarked (Or.inr ⟨_, hreported⟩) ⟨?_, fun _ => if_neg harmed⟩
  refine (H.reports id hid).carry ?_ ?_ (by rw [hinfo]) (by rw [hinfo]) fun _ => F
  · rw [hmarked.own, takings_append]
    exact List.append_nil _
  · rw [hreported, dataCalls_append]
    exact List.append_nil _

theorem usbUhciReadReport_reports (H : HostReports s) :
    Ensures (usbUhciReadReport id) s fun _ t => HostReports t := by
  by_cases hid : id < uhciControllerCount
  · have hstream : Ensures (usbUhciReadReport id) s fun _ t =>
        (s.controllers id).active = true → Flowing id t := by
      by_cases hactive : (s.controllers id).active = true
      · exact (usbUhciReadReport_flowing hid ((H.reports id hid).stream hactive)).mono
          fun _ _ h _ => h.2
      · exact fun _ _ _ h => absurd h hactive
    have hrest : Ensures (usbUhciReadReport id) s fun _ t => t.away id = s.away id ∧
        t.reported = s.reported ∧ t.info = s.info ∧ t.td = s.td ∧
        (t.controllers id).active = (s.controllers id).active ∧
        ∃ m, takings m = [] ∧ Marked id s m t := by
      refine ensures_get_bind (ensures_ite (fun _ => ensures_pure ?_) fun _ => ensures_modify_bind
        (ensures_modify_bind (ensures_pure ⟨?_, rfl, rfl, rfl, ?_, ⟨_, ?_, marked_append rfl ?_⟩⟩)))
      · exact ⟨rfl, rfl, rfl, rfl, rfl, [], rfl, Marked.of_trail fun _ => rfl⟩
      · funext x
        simp only [Usb.away, Function.update_of_ne x.2]
      · simp only [Function.update_self]
      · rfl
      · intro e he c
        rw [List.mem_singleton.mp he]
        exact decide_eq_decide.mpr eq_comm
    refine (hstream.and hrest).mono ?_
    rintro - t ⟨hflow, haway, hreported, hinfo, htd, hactive, m, hnone, hmarked⟩
    refine hostReports_step (fun c hc _ => H.reports c hc) (fun c hc _ => H.settled c hc) haway
      hmarked (Or.inl hreported) ⟨?_, fun h => ?_⟩
    · refine (H.reports id hid).carry ?_ (by rw [hreported]) (by rw [hinfo]) (by rw [hinfo]) fun h => ?_
      · rw [hmarked.own, takings_append, hnone, List.append_nil]
      · exact hflow (hactive ▸ h)
    · rw [Usb.pending, htd]
      exact H.settled id hid (hactive ▸ h)
  · exact ensures_get_bind (ensures_ite (fun _ => ensures_pure H) fun h =>
      absurd (Or.inl (Nat.not_lt.mp hid)) h)

end Calls

/-! ### Runs -/

/-- **Every call keeps the reports in order.** -/
theorem HostCall.reports {s : Usb} (c : HostCall) (ok : HostOk s) (H : HostReports s) :
    Ensures c.program s fun _ t => HostReports t := by
  cases c with
  | control id address low packet setup data =>
    exact Keeps.hostReports (keeps_bind (flow_usbUhciControl _ _ _ _ _) fun _ => keeps_pure _) H
  | reset id port =>
    exact Keeps.hostReports (keeps_bind flow_usbUhciResetPort fun _ => keeps_pure _) H
  | disable id port => exact Keeps.hostReports flow_usbUhciDisablePort H
  | start id port address endpoint low packet ms =>
    exact ensures_bind (usbUhciStartInterrupt_reports port address endpoint low packet ms H)
      fun _ _ H => ensures_pure H
  | interrupt gsi => exact usbHostInterrupt_reports gsi ok H
  | poll => exact ensures_bind (usbHostPoll_reports ok H) fun _ _ H => ensures_pure H
  | read id => exact ensures_bind (usbUhciReadReport_reports H) fun _ _ H => ensures_pure H

theorem HostBooted.reports {s : Usb} (h : HostBooted s) : HostReports s := by
  have htrail : ∀ id, s.trail id = [] := by
    intro id
    rw [Usb.trail, h.log]
    rfl
  have hoff : ∀ id < uhciControllerCount, ¬(s.controllers id).active = true := by
    intro id hid
    rw [h.inactive id hid]
    exact Bool.false_ne_true
  refine ⟨fun id hid => ⟨?_, ?_, ?_, ?_, fun h => absurd h (hoff id hid)⟩,
    fun id hid h => absurd h (hoff id hid)⟩
  · rw [htrail, h.reported]
    rfl
  · rw [htrail]
    exact fun x hx => absurd hx List.not_mem_nil
  · rw [htrail]
    exact (h.counts id hid).1
  · rw [htrail]
    exact (h.counts id hid).2

theorem HostRun.reports {s : Usb} (h : HostRun s) : HostReports s := by
  induction h with
  | boot hboot => exact hboot.reports
  | call c hrun hstep ih => exact c.reports hrun.ok ih _ _ hstep

/-- The states in which a run serves controller `id`, from an interrupt or from the
poll. -/
inductive ServicePoint (id : ℕ) : Bool → Usb → Prop
  | interrupt {s u : Usb} {gsi : ℕ} {claimed : Bool} : HostRun s →
      (interruptControllers gsi id).run s = some (claimed, u) → (u.info id).gsi = gsi →
      ServicePoint id true u
  | poll {s u v : Usb} {active : ℕ → Bool} {paused : Bool} : HostRun s → s.ticksPerMs ≠ 0 →
      (pollControllers id).run { s with polls := (s.polls + 1) % 2 ^ 32 } = some (active, v) →
      ¬((v.controllers id).frames = false ∨ (v.info id).status = uhciControllerError) →
      (pollPause id).run v = some (paused, u) → ServicePoint id false u

/-- There the controller is in order. -/
theorem ServicePoint.ready {id : ℕ} {fromIrq : Bool} {u : Usb} (h : ServicePoint id fromIrq u)
    (hid : id < uhciControllerCount) : HostOk u ∧ ReportsOk id u := by
  cases h with
  | interrupt hrun hbefore _ =>
    obtain ⟨ok, H⟩ := interruptControllers_reports _ hrun.ok hrun.reports id (Nat.le_of_lt hid) _ _
      hbefore
    exact ⟨ok, H.reports id hid⟩
  | @poll s u v active paused hrun _ hbefore _ hpause =>
    obtain ⟨ok, H⟩ := pollControllers_reports (s := { s with polls := (s.polls + 1) % 2 ^ 32 })
      (hrun.ok.of_eq rfl rfl rfl rfl) (hrun.reports.of_flow rfl) id (Nat.le_of_lt hid) _ _ hbefore
    obtain ⟨hinfo, hcontrollers, hreported, hframe, P⟩ := pollPause_spec v _ _ hpause
    exact ⟨ok.of_eq hinfo hcontrollers hreported (congrArg (fun w => w.2.1.2) hframe),
      P.reports (H.reports id hid) hcontrollers hreported hinfo⟩

/-- **Reports are taken exactly once and queued in order**, in every run of calls to
the host. -/
theorem reports_once {id : ℕ} (hid : id < uhciControllerCount) :
    -- whoever sees a completion first takes it, and nothing else makes a callback
    (∀ fromIrq u, ServicePoint id fromIrq u → ∀ claimed t,
      (serviceController id fromIrq).run u = some (claimed, t) →
      (Completes id u →
        t.reported = u.reported ++
          [(id, .data (fun i => UInt8.ofNat (u.arrived id i)) (u.readLength id))] ∧
        u.readLength id ≤ 64 ∧ (t.info id).reports = ((u.info id).reports + 1) % 2 ^ 32 ∧
        (t.controllers id).toggle = (u.controllers id).toggle ^^^ 1 ∧
        (t.controllers id).active = true ∧ t.td id &&& uhciActive ≠ 0) ∧
      (¬Completes id u →
        (t.reported = u.reported ∨ t.reported = u.reported ++ [(id, .disconnected)]) ∧
        (t.info id).reports = (u.info id).reports ∧
        (t.controllers id).toggle = (u.controllers id).toggle)) ∧
    -- the whole run
    ∀ s, HostRun s →
      (s.info id).reports = (dataCalls id s.reported).length % 2 ^ 32 ∧
      dataCalls id s.reported = (takings (s.trail id)).map (fun x => x.2) ∧
      (∀ bytes ∈ dataCalls id s.reported, bytes.length ≤ 64) ∧
      (s.info id).dropped = ((takings (s.trail id)).filter fun x => !x.1).length % 2 ^ 32 ∧
      -- its stream
      ((s.controllers id).active = true →
        (completions (sinceStart (s.trail id))).map (lengthOf (s.controllers id).packet) =
          (takings (sinceStart (s.trail id))).map (fun x => x.2.length) ∧
        (s.controllers id).toggle = (takings (sinceStart (s.trail id))).length % 2 ∧
        RefusedFull (sinceStart (s.trail id)) ∧
        ∃ waiting, waiting.length ≤ 16 ∧
          accepted (sinceStart (s.trail id)) = returns (sinceStart (s.trail id)) ++ waiting ∧
          ∀ r t, (usbUhciReadReport id).run s = some (r, t) → r.map (·.bytes) = waiting.head?) := by
  refine ⟨fun fromIrq u hpoint claimed t hrun => ?_, fun s h => ?_⟩
  · obtain ⟨ok, R⟩ := hpoint.ready hid
    have served := serviceController_spec fromIrq (ok.streams id hid).ready _ _ hrun
    cases served with
    | quiet hnot hcontrollers hreported _ hreports =>
      refine ⟨fun C => absurd C hnot, fun _ => ⟨Or.inl hreported, hreports, ?_⟩⟩
      rw [hcontrollers]
    | ended hnot hcontrollers hreported _ hreports =>
      refine ⟨fun C => absurd C hnot, fun _ => ⟨Or.inr hreported, hreports, ?_⟩⟩
      rw [hcontrollers, Function.update_self]
    | report C hcontrollers hreported _ hreports _ harmed =>
      have hcontroller : t.controllers id = (u.controllers id).took (u.report id) := by
        rw [hcontrollers, Function.update_self]
        rfl
      obtain ⟨-, -, -, -, htoggle, hactive⟩ := took_spec (u.controllers id) (u.report id)
      refine ⟨fun C => ⟨hreported, ?_, hreports, ?_, ?_, harmed⟩, fun hnot => absurd C hnot⟩
      · exact (readLength_le C).trans (R.stream C.active).packet
      · rw [hcontroller, htoggle]
      · rw [hcontroller, hactive]
        exact C.active
  · have R := h.reports.reports id hid
    refine ⟨?_, R.called, ?_, R.dropped, fun hactive => ?_⟩
    · rw [R.reports, R.called, List.length_map]
    · rw [R.called]
      intro bytes hbytes
      obtain ⟨x, hx, rfl⟩ := List.mem_map.mp hbytes
      exact R.short x hx
    have F := R.stream hactive
    obtain ⟨done, hdone, hlengths⟩ := F.once
    have hsettled := h.reports.settled id hid hactive
    rw [hsettled, List.append_nil] at hdone
    refine ⟨by rw [hdone, hlengths], F.toggle, F.refused, _, F.fifo.waiting_le, F.fifo.split, ?_⟩
    exact fun r t hrun => ((usbUhciReadReport_flowing hid F) r t hrun).1

/-- A device that has a report of four bytes whenever it is asked. -/
def reportingHost : Usb where
  __ := readyHost
  hw := fun time r => match r with
    | .interruptTd _ => 3
    | .interruptData _ i => i + 1
    | r => readyHost.hw time r

/-- A stream is started there and polled: the poll takes one report. -/
theorem reports_once_reportingHost : ∃ s, HostRun s ∧ dataCalls 0 s.reported = [[1, 2, 3, 4]] ∧
    (s.info 0).reports = 1 ∧ ∀ r t, (usbUhciReadReport 0).run s = some (r, t) →
      r.map (·.bytes) = (accepted (sinceStart (s.trail 0))).head? := by
  have hstates : (((HostCall.start 0 0 1 1 0 4 8).program.run reportingHost).bind fun r =>
      (HostCall.poll.program.run r.2).map fun r => (dataCalls 0 r.2.reported,
        (r.2.controllers 0).active, returns (sinceStart (r.2.trail 0)))) =
      some ([[1, 2, 3, 4]], true, []) := by decide +kernel
  obtain ⟨⟨⟨⟩, u⟩, hstart, hpoll⟩ := Option.bind_eq_some_iff.mp hstates
  obtain ⟨⟨⟨⟩, s⟩, hpoll, hfacts⟩ := Option.map_eq_some_iff.mp hpoll
  simp only [Prod.mk.injEq] at hfacts
  obtain ⟨hdata, hactive, hreturns⟩ := hfacts
  have hboot : HostBooted reportingHost :=
    ⟨readyHost_booted.inactive, readyHost_booted.built, readyHost_booted.idle,
      readyHost_booted.counts, rfl, rfl⟩
  have hrun : HostRun s := HostRun.call _ (HostRun.call _ (HostRun.boot hboot) hstart) hpoll
  obtain ⟨hreports, -, -, -, hstream⟩ := (reports_once (by decide : 0 < uhciControllerCount)).2 s hrun
  obtain ⟨-, -, -, waiting, -, haccepted, hread⟩ := hstream hactive
  rw [hreturns, List.nil_append] at haccepted
  refine ⟨s, hrun, hdata, ?_, fun r t h => ?_⟩
  · rw [hreports, hdata]
    rfl
  · rw [haccepted]
    exact hread r t h

end VirtualKernel
