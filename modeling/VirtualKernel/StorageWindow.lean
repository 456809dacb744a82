/-
The page of the EHCI registers.

`storage_map_mmio_window` maps the page of a physical address at the alias of the driver and
notes it; a page that is noted is not mapped again.  The registers of a controller are used
behind `ehci`, which `start_controller` sets while the page of its BAR is mapped.

* **`storageMapMmio_spec`** — the note is true, after a mapping that failed as well;
* **`startController_page`** — `start_controller` maps once, and then uses this page only;
* **`findUsbDiskFrom_page`** — so does the search for a disk, one controller after the other;
* **`ehciRegisters_exact`** — every register lies in the page that is mapped.
-/
import VirtualKernel.StorageRuns
import Mathlib.Logic.Relation

namespace VirtualKernel

open Lib

variable {e page : ℕ} {s t u : Storage}

/-! ### The note of the page -/

/-- The alias shows a page, and the driver has noted it. -/
def Storage.Shows (s : Storage) (page : ℕ) : Prop :=
  s.mappedMmio = page ∧ s.mmioPte = page ||| 0x1B

/-- What the driver has noted is true. -/
def MapTruth (s : Storage) : Prop := s.mappedMmio = 0 ∨ s.Shows s.mappedMmio

/-- What `storage_map_mmio_window` leaves behind. -/
structure WindowPost (physical : ℕ) (s : Storage) (r : ℕ) (t : Storage) : Prop where
  issued : t.issued = s.issued
  ehci : t.ehci = s.ehci
  ports : t.companionPorts = s.companionPorts
  truth : MapTruth t
  shows : r ≠ 0 → pageAddr physical ≠ 0 ∧ t.Shows (pageAddr physical) ∧
    r = storageMmioBase + (physical &&& 0xFFF) ∧ physical &&& 0xFFF ≤ 0xF00

/-- **A window**: if one is returned, the page of the address is mapped; if not, the old page
may be, and is still noted. -/
theorem storageMapMmio_spec (physical : ℕ) (hs : MapTruth s) :
    Runs (storageMapMmio physical) s (WindowPost physical s) := by
  rw [storageMapMmio]
  refine runs_ite (fun _ => runs_pure ?_) fun hc => ?_
  · exact ⟨rfl, rfl, rfl, hs, fun h => absurd rfl h⟩
  · push Not at hc
    obtain ⟨hpage, -, hoffset⟩ := hc
    refine runs_get_bind (runs_ite (fun hm => runs_pure ?_) fun _ => ?_)
    · refine ⟨rfl, rfl, rfl, hs, fun _ => ⟨hpage, ?_, rfl, hoffset⟩⟩
      rw [← hm]
      exact hs.resolve_left (by rw [hm]; exact hpage)
    · refine runs_modifyGet_bind (runs_ite (fun _ => runs_pure ?_) fun _ => ?_)
      · exact ⟨rfl, rfl, rfl, hs, fun h => absurd rfl h⟩
      · refine runs_modify_bind (runs_pure ⟨rfl, rfl, rfl, .inr ⟨rfl, rfl⟩, fun _ => ?_⟩)
        exact ⟨hpage, ⟨rfl, rfl⟩, rfl, hoffset⟩

/-- Calls of `storage_map_mmio_window`, one after the other. -/
def mapWindows : List ℕ → StorageM Unit
  | [] => return ()
  | physical :: calls => do
    let _ ← storageMapMmio physical
    mapWindows calls

theorem mapWindows_runs (calls : List ℕ) (hs : MapTruth s) :
    Runs (mapWindows calls) s fun _ t => MapTruth t := by
  induction calls generalizing s with
  | nil => exact runs_pure hs
  | cons physical calls ih => exact runs_bind (storageMapMmio_spec physical hs) fun _ _ h => ih h.truth

/-! ### Uses of the page -/

/-- A register in the alias, or something else. -/
def InPage : StorageOut → Prop
  | .mmio a _ => storageMmioBase ≤ a ∧ a + 4 ≤ storageMmioBase + 4096
  | .load a => storageMmioBase ≤ a ∧ a + 4 ≤ storageMmioBase + 4096
  | _ => True

/-- No register. -/
def NoRegister : StorageOut → Prop
  | .mmio _ _ => False
  | .load _ => False
  | _ => True

theorem inPage_of_windowOut (o : StorageOut) (h : WindowOut o) : InPage o := by
  cases o with
  | mmio a v => exact h
  | load a => exact h
  | _ => trivial

/-- A part of the driver that keeps the mapping, with all its registers in the page; it notes
at most 15 ports. -/
structure PageUse (s t : Storage) : Prop where
  issued : Issues InPage s t
  pte : t.mmioPte = s.mmioPte
  noted : t.mappedMmio = s.mappedMmio
  ehci : t.ehci = s.ehci
  ports : s.companionPorts ≤ 15 → t.companionPorts ≤ 15

instance : IsPreorder Storage PageUse where
  refl _ := ⟨.nil rfl, rfl, rfl, rfl, id⟩
  trans _ _ _ h h' :=
    ⟨trans_of (Issues InPage) h.issued h'.issued, h'.pte.trans h.pte, h'.noted.trans h.noted,
      h'.ehci.trans h.ehci, fun hs => h'.ports (h.ports hs)⟩

theorem PageUse.shows (h : PageUse s t) (hs : s.Shows page) : t.Shows page :=
  ⟨h.noted.trans hs.1, h.pte.trans hs.2⟩

theorem PageUse.truth (h : PageUse s t) (hs : MapTruth s) : MapTruth t := by
  rw [MapTruth, Storage.Shows, h.noted, h.pte]
  exact hs

theorem DriverFrame.pageUse {l : Level} {A : ℕ → Prop} {P : StorageOut → Prop}
    (h : DriverFrame l A P s t) (hP : ∀ o, P o → InPage o) : PageUse s t where
  issued := Issues.mono h.issued hP
  pte := eq_of_part h.part Storage.mmioPte fun _ => by cases l <;> rfl
  noted := eq_of_part h.part Storage.mappedMmio fun _ => by cases l <;> rfl
  ehci := ehci_eq_of_part h.part
  ports hs := by
    rw [eq_of_part h.part Storage.companionPorts fun _ => by cases l <;> rfl]
    exact hs

/-- A routine of the controller uses the page. -/
theorem ehci_pageUse {α : Type} {m : StorageM α} {l : Level} {A : ℕ → Prop} {k : Bool}
    (he : InWindow s.ehci) (h : Within (EhciFrame l A k s.ehci) m) :
    Ensures m s fun _ t => PageUse s t :=
  fun r t hr => (h s r t hr rfl).pageUse fun o ho => inPage_of_windowOut o (windowOut_of_ehciOut he o ho)

/-- A step of the driver: it touches no register, or `page` is mapped at the alias from its
beginning to its end, and every register it touches lies there. -/
inductive RegisterStep (page : ℕ) (s t : Storage) : Prop
  | none (h : Issues NoRegister s t)
  | page (hpage : page ≠ 0) (hs : s.Shows page) (ht : t.Shows page) (h : Issues InPage s t)

theorem PageUse.step (h : PageUse s t) (hpage : page ≠ 0) (hs : s.Shows page) :
    RegisterStep page s t := .page hpage hs (h.shows hs) h.issued

/-- A run of such steps, each with its page. -/
def ThroughPage : Storage → Storage → Prop :=
  Relation.ReflTransGen fun s t => ∃ page, RegisterStep page s t

theorem through_silent (h : Issues NoRegister s t) : ThroughPage s t := .single ⟨0, .none h⟩

theorem RegisterStep.through (h : RegisterStep page s t) : ThroughPage s t := .single ⟨page, h⟩

/-- The driver between two routines: `ehci` is null, or points into the alias while a page is
mapped there. -/
structure Attached (s : Storage) : Prop where
  truth : MapTruth s
  ports : s.companionPorts ≤ 15
  ehci : s.ehci = 0 ∨ InWindow s.ehci ∧ s.mappedMmio ≠ 0

theorem Attached.use (hs : Attached s) (h : PageUse s t) : Attached t where
  truth := h.truth hs.truth
  ports := h.ports hs.ports
  ehci := by
    rw [h.ehci, h.noted]
    exact hs.ehci

theorem Attached.inWindow (hs : Attached s) (h : s.ehci ≠ 0) :
    InWindow s.ehci ∧ s.mappedMmio ≠ 0 ∧ s.Shows s.mappedMmio := by
  obtain ⟨hwin, hne⟩ := hs.ehci.resolve_left h
  exact ⟨hwin, hne, hs.truth.resolve_left hne⟩

/-! ### The controller -/

/-- The BAR that `start_controller` reads. -/
def Storage.bar (s : Storage) (device : ℕ) : ℕ := s.answer (.pci device 0x10)

/-- What `start_controller` leaves behind: it touches no register up to a moment from which it
uses the page of the BAR only, and `ehci` is what it was or points into that page. -/
structure StartPost (device : ℕ) (s : Storage) (ports : ℕ) (t : Storage) : Prop where
  once : ∃ g, Issues NoRegister s g ∧ RegisterStep (pageAddr (s.bar device)) g t
  truth : MapTruth t
  companions : s.companionPorts ≤ 15 → t.companionPorts ≤ 15
  few : ports ≤ 15
  ehci : ports = 0 ∧ t.ehci = s.ehci ∨
    InWindow t.ehci ∧ pageAddr (s.bar device) ≠ 0 ∧ t.Shows (pageAddr (s.bar device))

theorem pageAddr_bar (bar : ℕ) : pageAddr (bar &&& 0xFFFFFFF0) = pageAddr bar := by
  rw [pageAddr, pageAddr, Nat.land_assoc]
  rfl

/-- A part of the driver that keeps the mapping and touches no register. -/
theorem DriverFrame.silent {l : Level} {A : ℕ → Prop} {P : StorageOut → Prop}
    (h : DriverFrame l A P s t) (hP : ∀ o, P o → NoRegister o) :
    PageUse s t ∧ Issues NoRegister s t := by
  refine ⟨h.pageUse fun o ho => ?_, Issues.mono h.issued hP⟩
  cases o with
  | mmio a v => exact (hP _ ho).elim
  | load a => exact (hP _ ho).elim
  | _ => trivial

theorem ask_silent (r : StorageReg) :
    Ensures (ask r) s fun _ t => PageUse s t ∧ Issues NoRegister s t :=
  fun a t hr => (quiet_ask (A := Own) r s a t hr).silent fun _ ho => ho.elim

/-- A load of a capability register. -/
theorem capability_pageUse {c i : ℕ} (hc : storageMmioBase ≤ c ∧ c ≤ storageMmioBase + 0xF00)
    (hi : i ≤ 8) : Ensures (mmioRead (c + i)) s fun _ t => PageUse s t := by
  intro r t hr
  have hf : DriverFrame .driver Own WindowOut s t := window_capability (e := s.ehci) hc hi s r t hr rfl
  exact hf.pageUse inPage_of_windowOut

/-- **`start_controller`** maps the page of the BAR, and then uses this page only. -/
theorem startController_page (device : ℕ) (hs : MapTruth s) :
    Ensures (startController device) s (StartPost device s) := by
  -- the words of the report are in memory
  refine ensures_modify_bind (ensures_modify_bind (ensures_bind (Q := fun bar a =>
    bar = s.bar device ∧ PageUse s a ∧ Issues NoRegister s a)
    (ensures_modifyGet ⟨rfl, ⟨.nil rfl, rfl, rfl, rfl, id⟩, .nil rfl⟩) ?_))
  rintro bar a ⟨rfl, ha⟩
  have hrefuse {b : Storage} (hb : PageUse s b) (hno : Issues NoRegister s b) :
      StartPost device s 0 b :=
    ⟨⟨b, hno, .none (.nil rfl)⟩, hb.truth hs, hb.ports, by decide, .inl ⟨rfl, hb.ehci⟩⟩
  refine ensures_ite (fun _ => ensures_pure (hrefuse ha.1 ha.2)) fun _ => ?_
  refine ensures_bind (ask_silent _) fun _ b hb => ?_
  have hb' : PageUse s b := trans_of PageUse ha.1 hb.1
  refine ensures_bind (Q := fun _ c => PageUse s c ∧ Issues NoRegister s c) (fun r c hr => ?_)
    fun _ c hc' => ?_
  · have hf : DriverFrame .driver Own NoRegister b c := frame_issue trivial b r c hr
    exact ⟨trans_of PageUse hb' (hf.silent fun _ ho => ho).1,
      trans_of (Issues NoRegister) (trans_of (Issues NoRegister) ha.2 hb.2) hf.issued⟩
  refine ensures_bind (fun r t hr => (storageMapMmio_spec _ (hc'.1.truth hs)).of_run hr)
    fun capability g hg => ?_
  have hgno : Issues NoRegister s g := trans_of (Issues NoRegister) hc'.2 (.nil hg.issued)
  have hgports : s.companionPorts ≤ 15 → g.companionPorts ≤ 15 := by
    rw [hg.ports]
    exact hc'.1.ports
  have hgehci : g.ehci = s.ehci := hg.ehci.trans hc'.1.ehci
  refine ensures_ite (fun _ => ensures_pure ?_) fun hcap => ?_
  · exact ⟨⟨g, hgno, .none (.nil rfl)⟩, hg.truth, hgports, by decide, .inl ⟨rfl, hgehci⟩⟩
  · -- from here on the page is mapped
    obtain ⟨hpage, hshows, hcapability, hoffset⟩ := hg.shows hcap
    rw [pageAddr_bar] at hpage hshows
    have hwin : storageMmioBase ≤ capability ∧ capability ≤ storageMmioBase + 0xF00 := by omega
    have hdone {ports : ℕ} {t : Storage} (h : PageUse g t) (hports : ports ≤ 15)
        (hehci : ports = 0 ∨ InWindow s.ehci) : StartPost device s ports t := by
      refine ⟨⟨g, hgno, h.step hpage hshows⟩, h.truth hg.truth, fun hs => h.ports (hgports hs), hports, ?_⟩
      rcases hehci with h0 | hin
      · exact .inl ⟨h0, h.ehci.trans hgehci⟩
      · refine .inr ⟨?_, hpage, h.shows hshows⟩
        rw [h.ehci, hgehci]
        exact hin
    refine ensures_bind (capability_pageUse (i := 0) hwin (by decide)) fun length x hx => ?_
    refine ensures_ite (fun _ => ensures_pure (hdone hx (by decide) (.inl rfl))) fun hlength => ?_
    refine ensures_bind (capability_pageUse (i := 8) hwin (by decide)) fun extended y hy => ?_
    have hy' : PageUse g y := trans_of PageUse hx hy
    refine ensures_bind (Q := fun _ z => PageUse g z) (fun r z hr => ?_) fun free z hz => ?_
    · have hf : DriverFrame .driver Own NoRegister y z :=
        frame_legacyHandoff (fun _ _ _ => trivial) device _ _ y r z hr
      exact trans_of PageUse hy' (hf.silent fun _ ho => ho).1
    · refine ensures_ite (fun _ => ensures_pure (hdone hz (by decide) (.inl rfl))) fun _ => ?_
      refine ensures_modify_bind ?_
      push Not at hlength
      have he : InWindow (capability + (length &&& 255)) := ⟨by omega, by omega⟩
      intro ports t hr
      have hf : DriverFrame .driver Own WindowOut { z with ehci := capability + (length &&& 255) } t :=
        window_resetController he hwin _ ports t hr rfl
      have huse := hf.pageUse inPage_of_windowOut
      have ht : t.Shows (pageAddr (s.bar device)) := huse.shows (hz.shows hshows)
      refine ⟨⟨g, hgno, .page hpage hshows ht (trans_of (Issues InPage) hz.issued huse.issued)⟩, ?_, ?_,
        resetController_ports _ _ _ _ hr, .inr ⟨?_, hpage, ht⟩⟩
      · exact .inr ⟨rfl, by rw [ht.1]; exact ht.2⟩
      · exact fun hs => huse.ports (hz.ports (hgports hs))
      · rw [huse.ehci]
        exact he

theorem StartPost.attached {device ports : ℕ} (h : StartPost device s ports t) (hs : Attached s)
    (h0 : s.ehci = 0) : Attached t where
  truth := h.truth
  ports := h.companions hs.ports
  ehci := by
    rcases h.ehci with ⟨-, heq⟩ | ⟨hwin, hpage, hshows⟩
    · exact .inl (heq.trans h0)
    · refine .inr ⟨hwin, ?_⟩
      rw [hshows.1]
      exact hpage

/-! ### Ports -/

theorem frame_refreshPort (he : InWindow e) (keep : ℕ) {port : ℕ} (h : port < 15) :
    Within (EhciFrame .driver Own true e) (refreshPort keep port) := by
  have hA : ∀ i < 128, Own (e + i) := fun i hi => own_window he hi
  have hi : (0x44 + port * 4) / 4 < 32 := by omega
  refine within_ite (fun _ => within_pure _) fun _ => ?_
  refine within_bind (frame_ehciRead hi) fun _ => within_ite (fun _ => ?_) fun _ => within_pure _
  refine within_bind (frame_ehciWrite hA _ hi) fun _ => ?_
  exact within_bind (frame_ehciRead hi) fun _ => within_pure _

/-- The hand-over of the ports. -/
theorem storageHandoffPorts_page {ports : ℕ} (keepPort : ℕ) (hports : ports ≤ 15)
    (he : s.ehci ≠ 0 → InWindow s.ehci) :
    Ensures (storageHandoffPorts ports keepPort) s fun _ t => PageUse s t := by
  refine ensures_get_bind (ensures_ite (fun _ => ensures_pure (refl_of PageUse s)) fun hc => ?_)
  push Not at hc
  refine ensures_modify_bind ?_
  have hset : PageUse s { s with companionPorts := ports, companionKeep := keepPort } :=
    ⟨.nil rfl, rfl, rfl, rfl, fun _ => hports⟩
  refine ensures_bind (ehci_pageUse (s := { s with companionPorts := ports, companionKeep := keepPort })
    (he hc.2) (within_upTo fun i hi => frame_handoffPort (he hc.2) keepPort (show i < 15 by omega)))
    fun _ v hv => ensures_modify ?_
  have hready : PageUse v { v with companionsReady := true } := ⟨.nil rfl, rfl, rfl, rfl, id⟩
  exact trans_of PageUse hset (trans_of PageUse hv hready)

/-- The refresh of the companions. -/
theorem storageRefreshUsbCompanions_page (hs : s.companionPorts ≤ 15)
    (he : s.ehci ≠ 0 → InWindow s.ehci) :
    Ensures storageRefreshUsbCompanions s fun _ t => PageUse s t := by
  refine ensures_get_bind (ensures_ite (fun hc => ?_) fun _ => ensures_pure (refl_of PageUse s))
  exact ehci_pageUse (he hc.2) (within_upTo fun i hi => frame_refreshPort (he hc.2) _ (by omega))

/-! ### The search for a disk -/

/-- One controller. -/
theorem findOnController_page (device : ℕ) (hs : Attached s) (h0 : s.ehci = 0) :
    Ensures (findOnController device) s fun found t =>
      ThroughPage s t ∧ Attached t ∧ (found = false → t.ehci = 0) := by
  refine ensures_bind (startController_page device hs.truth) fun ports v hv => ?_
  have hvA := hv.attached hs h0
  have hsv : ThroughPage s v := by
    obtain ⟨g, hno, hstep⟩ := hv.once
    exact (through_silent hno).trans hstep.through
  have hports := hv.few
  by_cases hve : v.ehci = 0
  · -- the controller was refused
    have hzero : ports = 0 := by
      rcases hv.ehci with ⟨hzero, -⟩ | ⟨hwin, -⟩
      · exact hzero
      · exact absurd hve hwin.ne_zero
    rw [hzero]
    refine ensures_bind (ensures_pure (Q := fun r w => r = none ∧ w = v) ⟨rfl, rfl⟩) ?_
    rintro r w ⟨rfl, rfl⟩
    refine ensures_bind (Q := fun _ x => x = w) (ensures_ite (fun _ => ensures_pure rfl)
      fun hne => absurd rfl hne) ?_
    rintro _ x rfl
    refine ensures_bind (Q := fun _ y => y = x) (ensures_get_bind (ensures_ite
      (fun _ => ensures_pure rfl) fun hne => absurd hve hne)) ?_
    rintro _ y rfl
    refine ensures_modify_bind (ensures_pure ⟨hsv.trans ?_, ⟨hvA.truth, hvA.ports, .inl rfl⟩, fun _ => rfl⟩)
    exact through_silent (.nil rfl)
  · -- the controller is accepted and its registers are in the window
    obtain ⟨hwin, hpage, hshows⟩ := hvA.inWindow hve
    refine ensures_bind (ehci_pageUse hwin (frame_findOnPorts hwin (by omega))) fun found w hw => ?_
    have hwA := hvA.use hw
    have hwin' : w.ehci ≠ 0 → InWindow w.ehci := fun h => (hwA.inWindow h).1
    have hsw := hsv.trans (hw.step hpage hshows).through
    cases found with
    | some port =>
      refine ensures_bind (storageHandoffPorts_page port hports hwin') fun _ x hx => ensures_pure ?_
      refine ⟨hsw.trans (hx.step hpage (hw.shows hshows)).through, hwA.use hx, fun h => ?_⟩
      exact absurd h Bool.noConfusion
    | none =>
      -- no stick on it: the ports go to the companions and the controller stops
      have hall : Ensures (handoffAll ports) w fun _ x => PageUse w x :=
        ensures_ite (fun _ => ensures_pure (refl_of PageUse w)) fun _ =>
          storageHandoffPorts_page _ hports hwin'
      refine ensures_bind hall fun _ x hx => ?_
      have hxA := hwA.use hx
      have hxe : x.ehci = v.ehci := hx.ehci.trans hw.ehci
      have hxwin : InWindow x.ehci := by
        rw [hxe]
        exact hwin
      have hxshows := hx.shows (hw.shows hshows)
      have hsx := hsw.trans (hx.step hpage (hw.shows hshows)).through
      refine ensures_bind (ehci_pageUse (k := true) (l := .driver) hxwin (frame_stopController hxwin.room))
        fun _ y hy => ensures_modify_bind (ensures_pure ?_)
      have hyA := hxA.use hy
      refine ⟨(hsx.trans (hy.step hpage hxshows).through).trans ?_,
        ⟨hyA.truth, hyA.ports, .inl rfl⟩, fun _ => rfl⟩
      exact through_silent (.nil rfl)

/-- **The search for a USB disk**: one controller after the other, each through its page. -/
theorem findUsbDiskFrom_page (n device : ℕ) (hs : Attached s) (h0 : s.ehci = 0) :
    Ensures (findUsbDiskFrom n device) s fun _ t => ThroughPage s t ∧ Attached t := by
  induction n generalizing s device with
  | zero => exact ensures_pure ⟨.refl, hs⟩
  | succ n ih =>
    refine ensures_bind (Q := fun _ v => PageUse s v ∧ Issues NoRegister s v) (fun r v hr => ?_)
      fun candidate v hv => ?_
    · have hquiet : Within (Quiet Own) (usbCandidate device) := by
        refine within_bind within_get fun _ => within_ite (fun _ => within_pure _) fun _ => ?_
        refine within_bind (quiet_ask _) fun _ => within_ite (fun _ => within_pure _) fun _ => ?_
        exact within_bind (quiet_ask _) fun _ => within_pure _
      exact (hquiet s r v hr).silent fun _ ho => ho.elim
    · have hvA := hs.use hv.1
      have hv0 : v.ehci = 0 := hv.1.ehci.trans h0
      have hsv : ThroughPage s v := through_silent hv.2
      refine ensures_ite (fun _ => ?_) fun _ => ?_
      · refine ensures_bind (findOnController_page device hvA hv0) fun found w hw => ?_
        obtain ⟨hvw, hwA, hw0⟩ := hw
        refine ensures_ite (fun _ => ensures_pure ⟨hsv.trans hvw, hwA⟩) fun hf => ?_
        rw [Bool.not_eq_true] at hf
        exact (ih _ hwA (hw0 hf)).mono fun _ x hx => ⟨(hsv.trans hvw).trans hx.1, hx.2⟩
      · exact (ih _ hvA hv0).mono fun _ x hx => ⟨hsv.trans hx.1, hx.2⟩

/-! ### A controller that was accepted -/

/-- The uses of a controller with its ports. -/
inductive EhciUse
  | transfer (endpoint packetSize last target n index : ℕ)
  | scan
  | handoff (keepPort : ℕ)
  | refresh

/-- One use: a transfer, the loop of `find_usb_disk` over the ports, the hand-over of the ports
or the refresh of the companions. -/
def EhciUse.run (ports : ℕ) : EhciUse → StorageM Unit
  | .transfer endpoint packetSize last target n index => do
    let _ ← VirtualKernel.transfer endpoint packetSize last target n index
    return ()
  | .scan => do
    let _ ← findOnPorts ports 0
    return ()
  | .handoff keepPort => storageHandoffPorts ports keepPort
  | .refresh => storageRefreshUsbCompanions

/-- Uses of a controller, in any order. -/
def useAll (ports : ℕ) : List EhciUse → StorageM Unit
  | [] => return ()
  | use :: uses => do
    use.run ports
    useAll ports uses

theorem EhciUse.run_page {ports : ℕ} (use : EhciUse) (he : InWindow s.ehci) (hports : ports ≤ 15)
    (hs : s.companionPorts ≤ 15) : Ensures (use.run ports) s fun _ t => PageUse s t := by
  cases use with
  | transfer endpoint packetSize last target n index =>
    exact ensures_bind (ehci_pageUse (k := true) he (frame_transfer _ _ _ target n _)) fun _ _ ht =>
      ensures_pure ht
  | scan =>
    exact ensures_bind (ehci_pageUse he (frame_findOnPorts he (by omega))) fun _ _ ht =>
      ensures_pure ht
  | handoff keepPort => exact storageHandoffPorts_page keepPort hports fun _ => he
  | refresh => exact storageRefreshUsbCompanions_page hs fun _ => he

theorem useAll_page {ports : ℕ} (uses : List EhciUse) (he : InWindow s.ehci) (hports : ports ≤ 15)
    (hs : s.companionPorts ≤ 15) : Ensures (useAll ports uses) s fun _ t => PageUse s t := by
  induction uses generalizing s with
  | nil => exact ensures_pure (refl_of PageUse s)
  | cons use uses ih =>
    refine ensures_bind (use.run_page he hports hs) fun _ v hv => ?_
    have hve : InWindow v.ehci := by
      rw [hv.ehci]
      exact he
    exact (ih hve (hv.ports hs)).mono fun _ t ht => trans_of PageUse hv ht

/-- **EHCI registers** are reached through the page that is mapped.  A window that is returned,
after any calls, has its page mapped.  `start_controller` touches no register before it has
mapped the page of the BAR, and none outside this page; if it accepts the controller, then
transfers, the loop over its ports, the hand-over and the refresh find this page mapped and
stay in it, in any order.  In the whole search for a disk every register lies in the page that
is mapped when it is used. -/
theorem ehciRegisters_exact (s : Storage) :
    (MapTruth s → ∀ (calls : List ℕ) (physical : ℕ),
      Runs (do mapWindows calls; storageMapMmio physical) s fun r t => MapTruth t ∧
        (r ≠ 0 → pageAddr t.mmioPte = pageAddr physical ∧ t.mmioPte.testBit 0 = true ∧
          r = storageMmioBase + (physical &&& 0xFFF))) ∧
    (Attached s → s.ehci = 0 →
      (∀ device, Ensures (startController device) s fun ports t =>
        (∃ g, Issues NoRegister s g ∧ RegisterStep (pageAddr (s.bar device)) g t) ∧ Attached t ∧
        (t.ehci ≠ 0 → ∀ uses, Ensures (useAll ports uses) t fun _ u =>
          RegisterStep (pageAddr (s.bar device)) t u ∧ Attached u)) ∧
      Ensures findUsbDisk s fun _ t => ThroughPage s t ∧ Attached t) := by
  refine ⟨fun hs calls physical => ?_, fun hs h0 => ⟨fun device => ?_, findUsbDiskFrom_page _ _ hs h0⟩⟩
  · refine runs_bind (mapWindows_runs calls hs) fun _ v hv => ?_
    refine Runs.mono (storageMapMmio_spec physical hv) fun r t ht => ⟨ht.truth, fun hr => ?_⟩
    obtain ⟨-, ⟨-, hpte⟩, hresult, -⟩ := ht.shows hr
    refine ⟨?_, ?_, hresult⟩
    · rw [hpte, pageAddr_or _ (by decide)]
      exact pageAddr_of_aligned (pageAddr_aligned physical) (pageAddr_lt physical)
    · rw [hpte, Nat.testBit_or, show Nat.testBit 0x1B 0 = true by decide, Bool.or_true]
  · refine (startController_page device hs.truth).mono fun ports t ht => ?_
    have hA := ht.attached hs h0
    refine ⟨ht.once, hA, fun hne uses => ?_⟩
    have hmapped : InWindow t.ehci ∧ pageAddr (s.bar device) ≠ 0 ∧ t.Shows (pageAddr (s.bar device)) := by
      rcases ht.ehci with ⟨-, heq⟩ | hmapped
      · exact absurd (heq.trans h0) hne
      · exact hmapped
    obtain ⟨hwin, hpage, hshows⟩ := hmapped
    exact (useAll_page uses hwin ht.few hA.ports).mono fun _ u hu =>
      ⟨hu.step hpage hshows, hA.use hu⟩

/-- The driver on the machine with a stick, behind the calibration of its timer. -/
def stickCalibrated : Storage := { coldStick with initialized := true, time := 5 }

set_option maxRecDepth 100000 in
theorem stickCalibrated_found : (findUsbDisk.run stickCalibrated).map (fun x =>
    (x.1, x.2.ehci, x.2.mmioPte, decide (.mmio 0x80C00020 1 ∈ x.2.issued))) =
    some (true, 0x80C00020, 0xF000001B, true) := by
  decide +kernel

set_option maxRecDepth 100000 in
theorem stickCalibrated_starts :
    ((startController 0).run { stickCalibrated with time := 7 }).map (fun x => (x.1, x.2.ehci)) =
      some (1, 0x80C00020) := by
  decide +kernel

/-- The controller of the stick is accepted, and the stick is found behind its registers. -/
theorem ehciRegisters_exact_stick :
    (∃ t, findUsbDisk.run stickCalibrated = some (true, t) ∧ t.ehci = 0x80C00020 ∧
      t.mmioPte = 0xF000001B ∧ .mmio 0x80C00020 1 ∈ t.issued ∧ ThroughPage stickCalibrated t ∧
      Attached t) ∧
    ∃ t, (startController 0).run { stickCalibrated with time := 7 } = some (1, t) ∧
      t.ehci = 0x80C00020 ∧ ∀ uses, Ensures (useAll 1 uses) t fun _ u =>
        RegisterStep 0xF0000000 t u ∧ Attached u := by
  have hcold : Attached coldStick := ⟨.inl rfl, by decide, .inl rfl⟩
  constructor
  · obtain ⟨⟨found, t⟩, hrun, hr⟩ := Option.map_eq_some_iff.mp stickCalibrated_found
    simp only [Prod.mk.injEq, decide_eq_true_eq] at hr
    obtain ⟨rfl, hehci, hpte, hmem⟩ := hr
    obtain ⟨hpage, hA⟩ := ((ehciRegisters_exact stickCalibrated).2
      ⟨hcold.truth, hcold.ports, hcold.ehci⟩ rfl).2 _ _ hrun
    exact ⟨t, hrun, hehci, hpte, hmem, hpage, hA⟩
  · obtain ⟨⟨ports, t⟩, hrun, hr⟩ := Option.map_eq_some_iff.mp stickCalibrated_starts
    obtain ⟨rfl, hehci⟩ := Prod.mk.inj hr
    obtain ⟨-, -, huses⟩ := ((ehciRegisters_exact { stickCalibrated with time := 7 }).2
      ⟨hcold.truth, hcold.ports, hcold.ehci⟩ rfl).1 0 _ _ hrun
    exact ⟨t, hrun, hehci, huses (by rw [hehci]; decide)⟩

end VirtualKernel
