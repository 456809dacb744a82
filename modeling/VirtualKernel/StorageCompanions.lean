/-
The ports that EHCI hands to its companion controllers.

`storage_prepare_usb_companions` makes the ports over once; when a device is
plugged in later EHCI owns its port again, and `storage_refresh_usb_companions`
is to hand it over again.  `refresh_hands_over` says exactly when it does: the
pass over the ports goes through `ehci`, which the search for a USB disk nulls
when there is none, so that without a disk no port is ever handed over again
(`refresh_no_disk`).
-/
import VirtualKernel.StorageRuns

namespace VirtualKernel

open Lib

variable {e : ℕ} {s t u v : Storage}

/-! ### A pass over the ports -/

/-- The time at which a pass over the ports of the controller at `e` gets to a
port. -/
def Storage.passTime (s : Storage) (e keep : ℕ) : ℕ → ℕ
  | 0 => s.time
  | n + 1 =>
    if n = keep then s.passTime e keep n
    else if s.hw (s.passTime e keep n) (.mmio (portRegister e n)) % 2 ^ 32 &&& 0x2001 = 1 then
      s.passTime e keep n + 2
    else s.passTime e keep n + 1

/-- The state of a port at this time. -/
def Storage.portShows (s : Storage) (e keep port : ℕ) : ℕ :=
  s.hw (s.passTime e keep port) (.mmio (portRegister e port)) % 2 ^ 32

theorem passTime_succ (s : Storage) (e keep n : ℕ) :
    s.passTime e keep (n + 1) = if n = keep then s.passTime e keep n
      else if s.portShows e keep n &&& 0x2001 = 1 then s.passTime e keep n + 2
      else s.passTime e keep n + 1 := rfl

/-- A device is connected to a port that EHCI owns. -/
def Storage.stranded (s : Storage) (e port : ℕ) : Prop :=
  s.portShows e s.companionKeep port &&& 0x2001 = 1

/-- What a refresh of the companions is to do, from `s` to `t`. -/
structure HandsOver (e : ℕ) (s t : Storage) : Prop where
  owner : ∀ port < s.companionPorts, port ≠ s.companionKeep → s.stranded e port →
    ∃ value, .mmio (portRegister e port) value ∈ t.since s ∧ value.testBit 13 = true
  change : ∀ a value, .mmio a value ∈ t.since s → value &&& 0x2A = 0
  keep : ∀ value, .mmio (portRegister e s.companionKeep) value ∉ t.since s

theorem portRegister_injective {port port' : ℕ} (h : portRegister e port = portRegister e port') :
    port = port' := by
  unfold portRegister at h
  omega

/-- No bit that is cleared by writing a one is written as a one. -/
theorem handOver_change (value : ℕ) : handOver value &&& 0x2A = 0 := by
  rw [handOver, Nat.and_or_distrib_right, Nat.and_assoc,
    show (2 ^ 32 - 1 - (0x2A ||| 4)) &&& 0x2A = 0 by decide, Nat.and_zero, Nat.zero_or]
  decide

/-- What a pass up to port `n` stored. -/
def PassOut (e keep n : ℕ) : StorageOut → Prop
  | .mmio a value => value &&& 0x2A = 0 ∧ ∃ port < n, port ≠ keep ∧ a = portRegister e port
  | _ => True

/-- What a pass up to port `n` leaves behind. -/
structure Passed (keep n : ℕ) (s t : Storage) : Prop where
  hw : t.hw = s.hw
  ehci : t.ehci = s.ehci
  time : t.time = s.passTime s.ehci keep n
  issued : Issues (PassOut s.ehci keep n) s t
  owner : ∀ port < n, port ≠ keep →
    s.portShows s.ehci keep port &&& 0x2001 = 1 →
    ∃ value, .mmio (portRegister s.ehci port) value ∈ t.since s ∧ value.testBit 13 = true

theorem since_append {new : List StorageOut} (h : Issues P s t) (ht : u.issued = t.issued ++ new) :
    u.since s = t.since s ++ new := by
  obtain ⟨old, hn, -⟩ := h
  rw [Storage.since, Storage.since, ht, hn, List.append_assoc, List.drop_left, List.drop_left]

/-- One turn of a pass. -/
theorem Passed.step {keep n : ℕ} (h : Passed keep n s t) : Passed keep (n + 1) s (t.refreshed keep n) := by
  have hmono : ∀ o, PassOut s.ehci keep n o → PassOut s.ehci keep (n + 1) o := by
    intro o ho
    cases o with
    | mmio a value =>
      obtain ⟨hv, port, hp, hk, rfl⟩ := ho
      exact ⟨hv, port, by omega, hk, rfl⟩
    | _ => trivial
  have hvalue : t.answer (.mmio (portRegister t.ehci n)) =
      s.portShows s.ehci keep n := by
    rw [Storage.answer, h.hw, h.time, h.ehci]
    rfl
  have hold : ∀ {x : Storage} {new : List StorageOut}, x.issued = t.issued ++ new →
      ∀ o ∈ t.since s, o ∈ x.since s := fun hx o ho => by
    rw [since_append h.issued hx]
    exact List.mem_append_left _ ho
  unfold Storage.refreshed
  rw [hvalue, h.ehci]
  split_ifs with hk hv
  · -- the port that is kept
    refine ⟨h.hw, h.ehci, ?_, h.issued.mono hmono, fun port hp hpk => h.owner port (by omega) hpk⟩
    rw [h.time, passTime_succ, if_pos hk]
  · -- a port that is handed over
    have hx : ((((t.loaded (portRegister s.ehci n)).stored (portRegister s.ehci n)
        (handOver (s.portShows s.ehci keep n))).loaded (portRegister s.ehci n)).issued) =
        t.issued ++ [.load (portRegister s.ehci n),
          .mmio (portRegister s.ehci n) (handOver (s.portShows s.ehci keep n)),
          .load (portRegister s.ehci n)] := by
      simp [Storage.loaded, Storage.stored]
    refine ⟨h.hw, h.ehci, ?_, ?_, fun port hp hpk hport => ?_⟩
    · show t.time + 1 + 1 = _
      rw [passTime_succ, if_neg hk, if_pos hv, h.time]
    · refine trans_of (Issues _) (h.issued.mono hmono) ⟨_, hx, ?_⟩
      simp only [List.mem_cons, List.not_mem_nil, or_false]
      rintro o (rfl | rfl | rfl)
      · trivial
      · exact ⟨handOver_change _, n, by omega, hk, rfl⟩
      · trivial
    · rcases Nat.lt_succ_iff_lt_or_eq.mp hp with hlt | rfl
      · obtain ⟨value, hmem, hbit⟩ := h.owner port hlt hpk hport
        exact ⟨value, hold hx _ hmem, hbit⟩
      · refine ⟨handOver (s.portShows s.ehci keep port), ?_, testBit_handOver _⟩
        rw [since_append h.issued hx]
        exact List.mem_append_right _ (by simp)
  · -- a port that is left alone
    have hx : (t.loaded (portRegister s.ehci n)).issued = t.issued ++ [.load (portRegister s.ehci n)] := rfl
    refine ⟨h.hw, h.ehci, ?_, ?_, fun port hp hpk hport => ?_⟩
    · show t.time + 1 = _
      rw [passTime_succ, if_neg hk, if_neg hv, h.time]
    · exact trans_of (Issues _) (h.issued.mono hmono) ⟨_, hx, by simp [PassOut]⟩
    · rcases Nat.lt_succ_iff_lt_or_eq.mp hp with hlt | rfl
      · obtain ⟨value, hmem, hbit⟩ := h.owner port hlt hpk hport
        exact ⟨value, hold hx _ hmem, hbit⟩
      · exact absurd hport hv

theorem refreshedUpTo_passed (keep n : ℕ) (s : Storage) : Passed keep n s (s.refreshedUpTo keep n) := by
  induction n with
  | zero => exact ⟨rfl, rfl, rfl, Issues.nil rfl, fun port hp => by omega⟩
  | succ n ih => exact ih.step

/-! ### Refreshing the companions -/

/-- While `ehci` is set a refresh hands over every port that is stranded. -/
theorem handsOver_of_ehci (hready : s.companionsReady = true) (hehci : s.ehci ≠ 0)
    (hr : storageRefreshUsbCompanions.run s = some ((), t)) : HandsOver s.ehci s t := by
  rw [storageRefreshUsbCompanions_run, if_pos ⟨hready, hehci⟩] at hr
  obtain ⟨-, rfl⟩ := Prod.mk.inj (Option.some.inj hr)
  have hp := refreshedUpTo_passed s.companionKeep s.companionPorts s
  refine ⟨fun port hport hk => hp.owner port hport hk, fun a value hmem => (hp.issued.since _ hmem).1, ?_⟩
  intro value hmem
  obtain ⟨-, port, -, hk, heq⟩ := hp.issued.since _ hmem
  exact hk (portRegister_injective heq).symm

/-- Without `ehci` a refresh does nothing. -/
theorem refresh_without_ehci (hehci : s.ehci = 0)
    (hr : storageRefreshUsbCompanions.run s = some ((), t)) : t = s := by
  rw [storageRefreshUsbCompanions_run, if_neg fun h => h.2 hehci] at hr
  exact (Prod.mk.inj (Option.some.inj hr)).2.symm

theorem since_self (s : Storage) : s.since s = [] := by
  rw [Storage.since, List.drop_length]

/-- A preparation that answered has handed the ports over and sealed the search. -/
theorem prepare_ready {ehciPci r : ℕ} (hr : (storagePrepareUsbCompanions ehciPci).run s = some (r, t))
    (hne : r ≠ 0) : t.companionsReady = true := by
  have hresult : ∀ x : Storage, Ensures companionsResult x fun a y => a ≠ 0 → y.companionsReady = true := by
    refine fun x => ensures_get_bind (ensures_pure fun h => ?_)
    by_contra hx
    exact h (if_neg hx)
  refine (?_ : Ensures (storagePrepareUsbCompanions ehciPci) s fun a y => a ≠ 0 →
    y.companionsReady = true) r t hr hne
  refine ensures_get_bind (ensures_ite (fun _ => hresult s) fun _ => ensures_modify_bind ?_)
  exact ensures_bind (Q := fun _ _ => True) (fun _ _ _ => trivial) fun _ x _ => hresult x

/-- **Refreshing the companions.** In every run behind a preparation that
answered, a refresh hands over the ports to which a device is connected if and
only if discovery found a USB disk, or there is no such port. -/
theorem refresh_hands_over {s₀ : Storage} {ehciPci r : ℕ} (h₀ : StorageBoot s₀) (h : StorageRun s₀ s)
    (hprepare : (storagePrepareUsbCompanions ehciPci).run s = some (r, t)) (hne : r ≠ 0)
    (hrun : StorageRun t u) (hrefresh : storageRefreshUsbCompanions.run u = some ((), v))
    (he : u.ehci ≠ 0 → e = u.ehci) :
    HandsOver e u v ↔ u.deviceMask.testBit 0 = true ∨
      ∀ port < u.companionPorts, port ≠ u.companionKeep → ¬u.stranded e port := by
  have ht : Served s t := (StorageStep.prepare hprepare).served (h.served h₀.inv).inv
  have hu := hrun.served ht.inv
  have hready : u.companionsReady = true := by
    have htr := prepare_ready hprepare hne
    have hsame := (hu.ehci (ht.inv.handed htr)).2
    exact (congrArg Prod.fst hsame).trans htr
  by_cases hehci : u.ehci = 0
  · obtain rfl := refresh_without_ehci hehci hrefresh
    have hbit : v.deviceMask.testBit 0 ≠ true := fun h => hu.inv.disk.mp h hehci
    refine ⟨fun hand => Or.inr fun port hp hk hs => ?_, fun hor => ⟨fun port hp hk hs => ?_, ?_, ?_⟩⟩
    · obtain ⟨value, hmem, -⟩ := hand.owner port hp hk hs
      rw [since_self] at hmem
      exact absurd hmem List.not_mem_nil
    · exact absurd hs (hor.resolve_left hbit port hp hk)
    · simp [since_self]
    · simp [since_self]
  · obtain rfl := he hehci
    exact ⟨fun _ => Or.inl (hu.inv.disk.mpr hehci), fun _ => handsOver_of_ehci hready hehci hrefresh⟩

/-! ### A machine without a USB disk -/

/-- The functions behind the controller that the host named are not looked at. -/
theorem findUsbDiskFrom_skip {n device : ℕ} (h0 : s.companionTarget ≠ 0) (h : s.companionTarget < device) :
    (findUsbDiskFrom n device).run s = some (false, s) := by
  induction n generalizing device with
  | zero => rfl
  | succ n ih =>
    have hc : (usbCandidate device).run s = some (false, s) := by
      show (if s.companionTarget ≠ 0 ∧ device ≠ s.companionTarget then _ else _ : StorageM Bool).run s = _
      rw [if_pos ⟨h0, by omega⟩]
      rfl
    rw [findUsbDiskFrom, StateT.run_bind, hc]
    exact ih (by omega)

/-- A search that found nothing goes on behind its last function. -/
theorem findUsbDiskFrom_add {n m device : ℕ} (h : (findUsbDiskFrom n device).run s = some (false, t)) :
    (findUsbDiskFrom (n + m) device).run s = (findUsbDiskFrom m (device + 0x100 * n)).run t := by
  induction n generalizing s device with
  | zero =>
    obtain ⟨-, rfl⟩ := Prod.mk.inj (Option.some.inj h)
    simp
  | succ n ih =>
    have hdev : device + 0x100 * (n + 1) = device + 0x100 + 0x100 * n := by omega
    rw [Nat.add_right_comm, findUsbDiskFrom, hdev]
    rw [findUsbDiskFrom] at h
    obtain ⟨candidate, a, ha, h⟩ := run_bind_eq_some.mp h
    rw [StateT.run_bind, ha]
    cases candidate with
    | false => exact ih h
    | true =>
      obtain ⟨found, b, hb, h⟩ := run_bind_eq_some.mp h
      show (findOnController device >>= fun found => if found = true then pure true
        else findUsbDiskFrom (n + m) (device + 0x100)).run a = _
      rw [StateT.run_bind, hb]
      cases found with
      | false => exact ih h
      | true => exact absurd (Prod.mk.inj (Option.some.inj h)).1 (by decide)

/-- An EHCI controller with one port, to which a device is connected once the
host has been prepared. -/
def emptyPorts : Storage :=
  { coldStorage with
    hw := fun t r => match r with
      | .port _ => 0x20
      | .data _ => 0
      | .pci device offset =>
        if device ≠ 0x100 then 0xFFFFFFFF
        else if offset = 8 then 0x0C032000 else if offset = 0x10 then 0x80001000 else 0
      | .tsc => 1000000 * t
      | .mapped => 1
      | .mmio a =>
        if a = 0x80C00000 then 0x20
        else if a = 0x80C00004 then 1
        else if a = 0x80C00024 then (if t = 15 then 0 else 0x1000)
        else if a = 0x80C00064 then (if t < 24 then 0 else 1)
        else 0 }

/-- This machine behind the start of the driver, and with the search begun. -/
def emptyPortsReady : Storage :=
  { emptyPorts with mmioPte := 0x3004F000 ||| 0x003, initialized := true, time := 1 }

def emptyPortsSearch : Storage :=
  { emptyPortsReady with companionTarget := 0x100, usbDiscovered := true }

/-- The search for a disk up to the controller of this machine. -/
theorem emptyPorts_search :
    ∃ s₁ s₂ t, calibrateTimer.run emptyPortsSearch = some ((), s₁) ∧
      (zeroBytes dmaBase dmaSize).run s₁ = some ((), s₂) ∧ (findUsbDiskFrom 2 0).run s₂ = some (false, t) ∧
      t.companionTarget = 0x100 ∧ t.companionsReady = true ∧ t.ticksPerMs = 100000 ∧ t.ehci = 0 ∧
      t.companionPorts = 1 ∧ t.companionKeep = 0xFFFFFFFF ∧ t.portShows 0x80C00020 0xFFFFFFFF 0 = 1 := by
  have hrun : ((do
      calibrateTimer
      zeroBytes dmaBase dmaSize
      let found ← findUsbDiskFrom 2 0
      let s ← get
      return (found, s.companionsReady, [s.companionTarget, s.ticksPerMs, s.ehci, s.companionPorts,
        s.companionKeep, s.portShows 0x80C00020 0xFFFFFFFF 0]) :
      StorageM (Bool × Bool × List ℕ)).run emptyPortsSearch).map Prod.fst =
      some (false, true, [0x100, 100000, 0, 1, 0xFFFFFFFF, 1]) := by
    decide +kernel
  obtain ⟨⟨x, y⟩, hx, hr⟩ := Option.map_eq_some_iff.mp hrun
  obtain ⟨_, s₁, h₁, hx⟩ := run_bind_eq_some.mp hx
  obtain ⟨_, s₂, h₂, hx⟩ := run_bind_eq_some.mp hx
  obtain ⟨found, t, h₃, hx⟩ := run_bind_eq_some.mp hx
  obtain ⟨_, _, hget, hx⟩ := run_bind_eq_some.mp hx
  obtain ⟨rfl, rfl⟩ := Prod.mk.inj (Option.some.inj hget)
  obtain ⟨rfl, rfl⟩ := Prod.mk.inj (Option.some.inj hx)
  simp only [Prod.mk.injEq, List.cons.injEq, and_true] at hr
  obtain ⟨rfl, hready, htarget, hticks, hehci, hports, hkeep, hshows⟩ := hr
  exact ⟨s₁, s₂, _, h₁, h₂, h₃, htarget, hready, hticks, hehci, hports, hkeep, hshows⟩

/-- The preparation of this machine: the ports are handed over, and `ehci` is
null. -/
theorem emptyPorts_prepared :
    ∃ t, (storagePrepareUsbCompanions 0x100).run emptyPortsReady = some (100000, t) ∧
      t.ehci = 0 ∧ t.companionPorts = 1 ∧ t.companionKeep = 0xFFFFFFFF ∧
      t.portShows 0x80C00020 0xFFFFFFFF 0 = 1 := by
  obtain ⟨s₁, s₂, t, h₁, h₂, h₃, htarget, hready, hticks, hrest⟩ := emptyPorts_search
  have hfind : findUsbDisk.run s₂ = some (false, t) := by
    show (findUsbDiskFrom (2 + 65534) 0).run s₂ = _
    rw [findUsbDiskFrom_add h₃]
    exact findUsbDiskFrom_skip (by omega) (by omega)
  have husb : discoverUsb.run { emptyPortsReady with companionTarget := 0x100 } = some ((), t) := by
    refine run_bind_eq_some.mpr ⟨_, _, rfl, ?_⟩
    refine run_bind_eq_some.mpr ⟨(), emptyPortsSearch, rfl, ?_⟩
    refine run_bind_eq_some.mpr ⟨(), s₁, h₁, run_bind_eq_some.mpr ⟨(), s₂, h₂, ?_⟩⟩
    exact run_bind_eq_some.mpr ⟨false, t, hfind, rfl⟩
  have hresult : companionsResult.run t = some (100000, t) := by
    show some (if t.companionsReady then t.ticksPerMs else 0, t) = _
    rw [if_pos hready, hticks]
  refine ⟨t, ?_, hrest⟩
  refine run_bind_eq_some.mpr ⟨_, _, rfl, ?_⟩
  refine run_bind_eq_some.mpr ⟨(), { emptyPortsReady with companionTarget := 0x100 }, rfl, ?_⟩
  exact run_bind_eq_some.mpr ⟨(), t, husb, hresult⟩

/-- **Without a USB disk a port is not handed over again.** -/
theorem refresh_no_disk :
    ∃ s t v, StorageRun emptyPorts s ∧ (storagePrepareUsbCompanions 0x100).run s = some (100000, t) ∧
      storageRefreshUsbCompanions.run t = some ((), v) ∧ t.stranded 0x80C00020 0 ∧
      ¬HandsOver 0x80C00020 t v := by
  obtain ⟨t, hprepare, hehci, hports, hkeep, hshows⟩ := emptyPorts_prepared
  have hstranded : t.stranded 0x80C00020 0 := by
    rw [Storage.stranded, hkeep, hshows]
    decide
  have hrefresh : storageRefreshUsbCompanions.run t = some ((), t) := by
    rw [storageRefreshUsbCompanions_run, if_neg fun h => h.2 hehci]
  refine ⟨emptyPortsReady, t, t, .step .nil (.start rfl), hprepare, hrefresh, hstranded, fun hand => ?_⟩
  obtain ⟨value, hmem, -⟩ := hand.owner 0 (by omega) (by omega) hstranded
  rw [since_self] at hmem
  exact absurd hmem List.not_mem_nil

/-- The machine without a disk, as an instance. -/
theorem refresh_hands_over_emptyPorts :
    ∃ t v, storageRefreshUsbCompanions.run t = some ((), v) ∧
      (HandsOver 0x80C00020 t v ↔ t.deviceMask.testBit 0 = true ∨
        ∀ port < t.companionPorts, port ≠ t.companionKeep → ¬t.stranded 0x80C00020 port) := by
  obtain ⟨t, hprepare, hehci, -⟩ := emptyPorts_prepared
  have hrefresh : storageRefreshUsbCompanions.run t = some ((), t) := by
    rw [storageRefreshUsbCompanions_run, if_neg fun h => h.2 hehci]
  exact ⟨t, t, hrefresh, refresh_hands_over (s := emptyPortsReady) (show StorageBoot emptyPorts from
    ⟨rfl, rfl, rfl, rfl, rfl, rfl, fun _ => rfl, rfl, rfl, rfl, rfl⟩) (.step .nil (.start rfl)) hprepare
    (by decide) .nil hrefresh fun h => absurd hehci h⟩

end VirtualKernel
