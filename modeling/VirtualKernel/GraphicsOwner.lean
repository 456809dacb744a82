/-
Graphics ownership is not inherited.

The right to draw is a TSS selector in a word of the graphics driver, and
selectors are recycled.  A run is read together with the process for which the
desktop was claimed last, as long as it is registered (`GraphicsReach`).  In
every run the owner word is zero or the selector of that process, so the driver
refuses every other task, also one that has got the selector of a process that
is gone (`graphics_owner`).
-/
import VirtualKernel.Revocation
import VirtualKernel.Objects
import VirtualKernel.CreateRuns
import VirtualKernel.MouseCursor
import VirtualKernel.Intel915Service

namespace VirtualKernel

open Lib

/-! ### Runs with graphics -/

/-- `intel915_initialize` has come to its end: it has cleared the RAM of the
driver, has set fields other than the owner, and has published the ready word. -/
structure GraphicsBooted (w : World) : Prop where
  booted : Booted w
  ready : w.k.drivers.graphicsReady = 1
  free : w.k.drivers.mem ownerTssSelector = 0

/-- What calls into the drivers leave in their windows, and for whom the desktop
is claimed then: `c` before the call. -/
inductive GraphicsCall (w : World) (c : ℕ → Prop) : (ℕ → ℕ) → (ℕ → Prop) → Prop
  | claim (panicState : Bool) {p result : ℕ} {mem : ℕ → ℕ} (hp : Live w.k p)
      (h : intel915ClaimDesktop panicState (w.k.mem p procTssSelector) w.k.drivers.mem =
        (result, mem)) : GraphicsCall w c mem fun q => if result = 1 then q = p else c q
  | service (cs task operation : ℕ) {g g' : Gpu} {result : ℕ} (hg : g.mem = w.k.drivers.mem)
      (h : (intel915DriverService cs task operation).run g = some (result, g')) :
      GraphicsCall w c g'.mem c
  | cursor (panicState : Bool) (motions : List (ℤ × ℤ)) :
      GraphicsCall w c (intel915UpdateCursor panicState motions w.k.drivers.mem).2 c
  /-- The other drivers write their own windows. -/
  | other {mem : ℕ → ℕ} (h : ∀ a, SharedWord a → mem a = w.k.drivers.mem a) : GraphicsCall w c mem c

/-- The worlds of a run with graphics, with the process for which the desktop is
claimed. -/
inductive GraphicsReach (w₀ : World) : World → (ℕ → Prop) → Prop
  | refl : GraphicsReach w₀ w₀ fun _ => False
  | kernel {w w' : World} {c : ℕ → Prop} {op : Op} : GraphicsReach w₀ w c → op.Allowed w →
      Careful w op → (∀ mem, op ≠ .driverWork mem) → op.exec w = some w' →
      GraphicsReach w₀ w' fun p => c p ∧ Live w'.k p
  | driver {w w' : World} {c c' : ℕ → Prop} {mem : ℕ → ℕ} : GraphicsReach w₀ w c →
      GraphicsCall w c mem c' → (Op.driverWork mem).exec w = some w' → GraphicsReach w₀ w' c'

/-! ### The owner and its process -/

namespace Inv

variable {w w' : World} {O : ℕ → Prop} {B : Items} {P : Multiset ℕ} {op : Op}

/-- **The owner is revoked with its process.** -/
theorem gone_revoked (H : Inv w O B P) (ha : op.Allowed w) (hc : Careful w op)
    (he : op.exec w = some w') {p : ℕ} (hp : Live w.k p) (hgone : ¬Live w'.k p)
    (hr : w.k.drivers.graphicsReady = 1)
    (ho : w.k.drivers.mem ownerTssSelector = w.k.mem p procTssSelector) :
    w'.k.drivers.mem ownerTssSelector = 0 := by
  have hpP := H.live_iff.mp hp
  have h0 : w.k.mem p procTssSelector ≠ 0 := (H.complete p hpP).sel
  -- reaping, and what follows it
  have hreap : ∀ {k₁ : Kernel}, schedulerReapTerminated.run w.k = some ((), k₁) →
      p = w.k.sched.reapProcess → w'.k.drivers = k₁.drivers →
      w'.k.processTable = k₁.processTable → w'.k.drivers.mem ownerTssSelector = 0 := by
    rintro k₁ hrun rfl hd ht
    refine (schedulerReapTerminated_owner hr h0 ho _ _ hrun).elim (fun h => ?_) fun h => ?_
    · rw [hd]
      exact h
    · refine absurd ?_ hgone
      rw [Live, ht, h]
      exact hp
  have hdue : ∀ {P'}, Reaped w.k P P' → Inv w' O B P' → p = w.k.sched.reapProcess := by
    rintro P' (⟨-, rfl⟩ | ⟨-, hP⟩) H'
    · exact absurd (H'.live_iff.mpr hpP) hgone
    · rw [hP] at hpP
      exact (Multiset.mem_cons.mp hpP).resolve_right fun h => hgone (H'.live_iff.mpr h)
  have hexec := he
  unfold Op.exec at hexec
  cases op with
  | create type =>
    refine absurd ?_ hgone
    obtain ⟨q, -, ⟨-, H'⟩ | ⟨-, -, H'⟩⟩ := H.create he
    · exact H'.live_iff.mpr hpP
    · exact H'.live_iff.mpr (Multiset.mem_cons_of_mem hpP)
  | destroy q =>
    obtain ⟨P', rfl, H'⟩ := H.destroy ha.1 ha.2 (hc q rfl) he
    obtain rfl := (Multiset.mem_cons.mp hpP).resolve_right fun h => hgone (H'.live_iff.mpr h)
    obtain ⟨_, hrun⟩ := World.call_run hexec
    refine (processDestroy_owner hr h0 ho _ _ hrun).resolve_right fun h => hgone ?_
    rw [Live, h]
    exact hp
  | tick image =>
    obtain ⟨P', H', hre, -⟩ := H.tick he
    obtain ⟨_, hrun⟩ := World.call_run hexec
    obtain ⟨⟨⟩, k₁, h1, h2⟩ := run_bind_eq_some.mp hrun
    obtain ⟨-, h2⟩ := Prod.mk.inj (Option.some.inj h2)
    refine hreap h1 (hdue hre H') ?_ ?_ <;>
      · rw [← h2]
        dsimp only
        split_ifs <;> rfl
  | fault image =>
    obtain ⟨q, hq, hrunning, htype⟩ := ha
    obtain ⟨P', H', hre, -⟩ := H.fault hq hrunning htype he
    obtain ⟨b, hrun⟩ := World.call_run hexec
    obtain ⟨⟨⟩, k₁, h1, h2⟩ := run_bind_eq_some.mp hrun
    refine hreap h1 (hdue hre H') (drivers_terminateCurrent image k₁ b _ h2) ?_
    refine keeps_modifyGet (π := Kernel.processTable) (fun k => ?_) k₁ b _ h2
    dsimp only
    split_ifs
    · rfl
    · split <;> rfl
  | heapAlloc size => exact absurd ((H.heapAlloc he).live_iff.mpr hpP) hgone
  | heapFree ptr => exact absurd ((H.heapFree ha he).live_iff.mpr hpP) hgone
  | _ =>
    obtain ⟨_, H'⟩ := H.mapping ha trivial he
    exact absurd (H'.live_iff.mpr hpP) hgone

end Inv

/-- The invariant of a run with graphics. -/
structure OwnerOk (w : World) (c : ℕ → Prop) : Prop where
  inv : ∃ O B P, Inv w O B P
  ready : w.k.drivers.graphicsReady = 1
  claimed : ∀ p, c p → Live w.k p
  single : ∀ p q, c p → c q → p = q
  owner : w.k.drivers.mem ownerTssSelector = 0 ∨
    ∃ p, c p ∧ w.k.drivers.mem ownerTssSelector = w.k.mem p procTssSelector

namespace OwnerOk

variable {w w' : World} {c : ℕ → Prop}

/-- A step of the kernel. -/
theorem kernel (K : OwnerOk w c) {op : Op} (ha : op.Allowed w) (hc : Careful w op)
    (hop : ∀ mem, op ≠ .driverWork mem) (he : op.exec w = some w') :
    OwnerOk w' fun p => c p ∧ Live w'.k p := by
  obtain ⟨O, B, P, H⟩ := K.inv
  obtain ⟨O', P', H'⟩ := H.step ha hc he
  have R := revokes_exec hop he
  refine ⟨⟨O', B, P', H'⟩, R.ready.trans K.ready, fun p hp => hp.2,
    fun p q hp hq => K.single p q hp.1 hq.1, ?_⟩
  rcases K.owner with h0 | ⟨p, hp, ho⟩
  · exact Or.inl (R.owner.elim (fun h => h.trans h0) id)
  by_cases hlive : Live w'.k p
  · refine R.owner.symm.imp_right fun h => ⟨p, ⟨hp, hlive⟩, ?_⟩
    rcases H.step_objects ha hc he hlive with ⟨-, hsame⟩ | ⟨hnot, -⟩
    · rw [h, ho, hsame _ (by decide)]
    · exact absurd (K.claimed p hp) hnot
  · exact Or.inl (H.gone_revoked ha hc he (K.claimed p hp) hlive K.ready ho)

/-- A call that leaves the owner word alone. -/
theorem quiet (K : OwnerOk w c) {mem : ℕ → ℕ}
    (hm : mem ownerTssSelector = w.k.drivers.mem ownerTssSelector)
    (he : (Op.driverWork mem).exec w = some w') : OwnerOk w' c := by
  obtain ⟨O, B, P, H⟩ := K.inv
  have H' := H.driverWork he
  obtain rfl := Option.some.inj he
  refine ⟨⟨O, B, P, H'⟩, K.ready, K.claimed, K.single, ?_⟩
  have ho := K.owner
  rw [← hm] at ho
  exact ho

end OwnerOk

/-- The kernel's cursor path does not write the owner word. -/
theorem intel915UpdateCursor_owner (panicState : Bool) (motions : List (ℤ × ℤ)) (mem : ℕ → ℕ) :
    (intel915UpdateCursor panicState motions mem).2 ownerTssSelector = mem ownerTssSelector := by
  have hlock : ∀ (f : ℕ → ℕ) (v : ℕ),
      Function.update f i915BusyWord v ownerTssSelector = f ownerTssSelector :=
    fun f v => Function.update_of_ne (by decide) _ _
  cases panicState
  · rfl
  change (intel915CursorFlush motions mem).2 _ = _
  rw [intel915CursorFlush]
  dsimp only
  split_ifs <;> simp only [hlock]
  rw [setCursor_shared _ _ (by decide) (by decide) (by decide) (by decide), hlock]

theorem OwnerOk.driver {w w' : World} {c c' : ℕ → Prop} {mem : ℕ → ℕ} (K : OwnerOk w c)
    (hcall : GraphicsCall w c mem c') (he : (Op.driverWork mem).exec w = some w') : OwnerOk w' c' := by
  cases hcall with
  | @claim panicState p result _ hp h =>
    rw [intel915ClaimDesktop] at h
    split_ifs at h
    · -- the claim is refused
      obtain ⟨rfl, rfl⟩ := Prod.mk.inj h
      exact K.quiet rfl he
    · obtain ⟨rfl, rfl⟩ := Prod.mk.inj h
      obtain ⟨O, B, P, H⟩ := K.inv
      have H' := H.driverWork he
      obtain rfl := Option.some.inj he
      refine ⟨⟨O, B, P, H'⟩, K.ready, fun q hq => ?_, fun q q' hq hq' => ?_, Or.inr ⟨p, rfl, ?_⟩⟩
      · obtain rfl : q = p := hq
        exact hp
      · obtain rfl : q = p := hq
        exact Eq.symm hq'
      · exact Function.update_self (ownerTssSelector : ℕ) _ w.k.drivers.mem
  | @service cs task operation g g' result hg h =>
    refine K.quiet ?_ he
    rw [← hg]
    exact keeps_intel915DriverService cs task operation g result g' h
  | cursor panicState motions => exact K.quiet (intel915UpdateCursor_owner _ _ _) he
  | other h => exact K.quiet (h _ (by unfold SharedWord; decide)) he

theorem GraphicsBooted.ok {w : World} (h : GraphicsBooted w) : OwnerOk w fun _ => False := by
  obtain ⟨O, B, H⟩ := booted_inv h.booted
  exact ⟨⟨O, B, 0, H⟩, h.ready, fun _ => False.elim, fun _ _ => False.elim, Or.inl h.free⟩

theorem GraphicsReach.ok {w₀ w : World} {c : ℕ → Prop} (h₀ : GraphicsBooted w₀)
    (h : GraphicsReach w₀ w c) : OwnerOk w c := by
  induction h with
  | refl => exact h₀.ok
  | kernel _ ha hc hop he ih => exact ih.kernel ha hc hop he
  | driver _ hcall he ih => exact ih.driver hcall he

/-- **Graphics ownership is not inherited.**  In every run after the graphics
driver has been initialised, made of calls and interrupts of the kernel and of
calls into the drivers, the owner word is zero or the TSS selector of the one
process for which the desktop is claimed and that is still registered.  Any task
with another selector is refused and changes nothing, and no other registered
process has the selector of that process. -/
theorem graphics_owner {w₀ w : World} {c : ℕ → Prop} (h₀ : GraphicsBooted w₀)
    (h : GraphicsReach w₀ w c) :
    (w.k.drivers.mem ownerTssSelector = 0 ∨ ∃ p, c p ∧ Live w.k p ∧
      w.k.drivers.mem ownerTssSelector = w.k.mem p procTssSelector) ∧
    (∀ p q, c p → c q → p = q) ∧
    (∀ g task cs operation, g.mem = w.k.drivers.mem →
      (∀ p, c p → w.k.mem p procTssSelector ≠ task) →
      (intel915DriverService cs task operation).run g =
        some (if cs &&& 3 = 1 then i915AccessDenied else i915WrongRing, g)) ∧
    ∀ p q, c p → Live w.k q → ¬c q → w.k.mem p procTssSelector ≠ w.k.mem q procTssSelector := by
  have K := h.ok h₀
  obtain ⟨O, B, P, H⟩ := K.inv
  refine ⟨K.owner.imp_right fun ⟨p, hp, ho⟩ => ⟨p, hp, K.claimed p hp, ho⟩, K.single, ?_, ?_⟩
  · intro g task cs operation hg htask
    refine intel915DriverService_denied ?_ cs operation
    rw [hg]
    rcases K.owner with h0 | ⟨p, hp, ho⟩
    · rw [h0]
      exact Or.inl rfl
    · have hlt := (H.complete p (H.live_iff.mp (K.claimed p hp))).sel_lt
      rw [ho, Nat.mod_eq_of_lt (by omega)]
      exact Or.inr (htask p hp).symm
  · intro p q hp hq hnot hsel
    have hpq := H.selector_inj (H.live_iff.mp (K.claimed p hp)) (H.live_iff.mp hq) hsel
    rw [← hpq] at hnot
    exact hnot hp

/-! ### A run with a claim -/

/-- The words that a driver publishes are not part of the invariant. -/
theorem Inv.publish {w : World} {O : ℕ → Prop} {B : Items} {P : Multiset ℕ} (H : Inv w O B P)
    {d : Drivers} (hs : d.storageInitialized = w.k.drivers.storageInitialized) :
    Inv { w with k := { w.k with drivers := d } } O B P := by
  refine H.of_same ⟨fun _ _ _ => rfl, rfl, rfl, rfl, rfl, hs⟩ ?_ rfl H.nodup H.pages
  exact H.holds.congr_state rfl rfl rfl rfl rfl rfl rfl rfl rfl

/-- The desktop can be claimed for the first process. -/
theorem exists_claimed : ∃ w₀ w c p, GraphicsBooted w₀ ∧ GraphicsReach w₀ w c ∧ c p ∧
    w.k.drivers.mem ownerTssSelector = w.k.mem p procTssSelector := by
  obtain ⟨v, B, hv, hheld, -, hB, H, room⟩ := exists_booted_room
  -- the graphics driver is initialised
  obtain ⟨d, hs, hready, hfree₀, hstatus₀⟩ : ∃ d : Drivers,
      d.storageInitialized = v.k.drivers.storageInitialized ∧ d.graphicsReady = 1 ∧
        d.mem ownerTssSelector = 0 ∧ d.mem i915Status = i915Ready :=
    ⟨{ v.k.drivers with graphicsReady := 1, mem := fun a => if a = i915Status then i915Ready else 0 },
      rfl, rfl, rfl, rfl⟩
  have H₀ := H.publish hs
  set w₀ : World := { v with k := { v.k with drivers := d } } with hw₀
  have h₀ : GraphicsBooted w₀ := ⟨.driver hv (.publish d hs), hready, hfree₀⟩
  -- create
  have room₀ : Room 7 166 3 w₀.k :=
    (room.mono (by decide) (by decide) (by decide)).congr (k := v.k) rfl rfl
  obtain ⟨p, w₁, hexec, H₁, -⟩ := H₀.create_either (by decide) (by rw [hB, hheld]; decide) room₀
    (Or.inl rfl)
  have hcreate : (Op.create processTypeProtected32).Allowed w₀ := trivial
  have hlive : Live w₁.k p := H₁.live_iff.mpr (Multiset.mem_cons_self p 0)
  have R := revokes_exec (fun mem h => by cases h) hexec
  have hreach := GraphicsReach.kernel (.refl : GraphicsReach w₀ w₀ _) hcreate (fun q h => by cases h)
    (fun mem h => by cases h) hexec
  -- claim
  have hC := H₁.complete p (Multiset.mem_cons_self p 0)
  have hfree : w₁.k.drivers.mem ownerTssSelector = 0 := R.owner.elim (fun h => h.trans h₀.free) id
  have hstatus : w₁.k.drivers.mem i915Status = i915Ready :=
    (R.shared _ (by unfold SharedWord; decide) (by decide)).trans hstatus₀
  have hplain : w₁.k.mem p procTssSelector % 8 = 0 := hC.plain.1
  have hclaim : intel915ClaimDesktop true (w₁.k.mem p procTssSelector) w₁.k.drivers.mem =
      (1, Function.update w₁.k.drivers.mem ownerTssSelector (w₁.k.mem p procTssSelector)) := by
    have hlt := hC.sel_lt
    rw [intel915ClaimDesktop, if_neg]
    simp only [not_or]
    exact ⟨by decide, not_not.mpr hstatus, not_not.mpr hfree, hC.sel, by omega, not_not.mpr hplain⟩
  refine ⟨w₀, _, _, p, h₀, .driver hreach (.claim true hlive hclaim) rfl, rfl, ?_⟩
  exact Function.update_self (ownerTssSelector : ℕ) _ w₁.k.drivers.mem

/-- After that claim the driver refuses the task 0. -/
theorem graphics_owner_claimed : ∃ w₀ w c p, GraphicsBooted w₀ ∧ GraphicsReach w₀ w c ∧ c p ∧
    w.k.drivers.mem ownerTssSelector = w.k.mem p procTssSelector ∧
    (intel915DriverService 1 0 0).run ⟨w.k.drivers.mem, fun _ => 0⟩ =
      some (i915AccessDenied, ⟨w.k.drivers.mem, fun _ => 0⟩) := by
  obtain ⟨w₀, w, c, p, h₀, h, hp, ho⟩ := exists_claimed
  have K := h.ok h₀
  obtain ⟨O, B, P, H⟩ := K.inv
  refine ⟨w₀, w, c, p, h₀, h, hp, ho, ?_⟩
  exact (graphics_owner h₀ h).2.2.1 ⟨w.k.drivers.mem, fun _ => 0⟩ 0 1 0 rfl fun q hq =>
    (H.complete q (H.live_iff.mp (K.claimed q hq))).sel

end VirtualKernel
