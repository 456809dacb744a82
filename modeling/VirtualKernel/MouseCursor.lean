/-
The position of the cursor along a run of the mouse driver.

The kernel keeps the motions of the mice in a ring and hands them to the
graphics driver in batches; a batch is refused while somebody holds the
graphics lock.  `cursor_position` says that none of this shows: at any time the
motions that arrived and were not cancelled by a disconnect are those already
applied followed by those pending, and the stored position is the fold of the
applied ones over the integers, clamped to the screen after each.
-/
import VirtualKernel.MouseDriver
import VirtualKernel.Intel915
import Mathlib.Order.Lattice

namespace VirtualKernel

open Lib

/-! ### Runs -/

/-- A callback of the host, or a service of the cursor that finds the word
`busy` in the graphics lock. -/
inductive CursorStep
  | receive (controller : ℕ) (event : UsbReport)
  | service (busy : ℕ)

/-- The mouse driver and the window of the graphics driver. -/
structure CursorSystem where
  mouse : MouseDriver
  mem : ℕ → ℕ

/-- `mouse_cursor_service`, with the graphics driver initialised. -/
def mouseCursorService (s : CursorSystem) : CursorSystem :=
  let r := mouseCursorDrain s.mouse.cursor s.mouse.shared.connected (intel915UpdateCursor true) s.mem
  { mouse := { s.mouse with cursor := r.2.1 }, mem := r.2.2 }

/-- One step. -/
def CursorStep.exec (s : CursorSystem) : CursorStep → CursorSystem
  | .receive controller event => { s with mouse := mouseReceive s.mouse controller event }
  | .service busy => mouseCursorService { s with mem := Function.update s.mem i915BusyWord busy }

/-- The state before step `n`; the mouse driver starts zeroed. -/
def cursorAt (mem₀ : ℕ → ℕ) (steps : ℕ → CursorStep) : ℕ → CursorSystem
  | 0 => ⟨mouseDriverInitialize, mem₀⟩
  | n + 1 => (steps n).exec (cursorAt mem₀ steps n)

/-- One motion, clamped to the screen, over the integers. -/
def clampMotion (width height : ℕ) (p m : ℤ × ℤ) : ℤ × ℤ :=
  (max 0 (min (width - 1) (p.1 + m.1)), max 0 (min (height - 1) (p.2 + m.2)))

/-- The motions in the ring with their controllers, oldest first. -/
def MouseCursorQueue.pending (q : MouseCursorQueue) : List (ℕ × ℤ × ℤ) :=
  (ringList mouseCursorQueueSize q.packets q.tail q.head).filterMap fun p =>
    if p.controller < mouseControllerCount then some (p.controller, p.dx, p.dy) else none

/-- The motion that step `a` puts into the ring: a report that moves, of at
least three bytes, that finds room. -/
def motionAt (mem₀ : ℕ → ℕ) (steps : ℕ → CursorStep) (a : ℕ) : Option (ℕ × ℤ × ℤ) :=
  match steps a with
  | .receive c (.data bytes length) =>
    let q := (cursorAt mem₀ steps a).mouse.cursor
    if c < mouseControllerCount ∧ 3 ≤ length ∧ length ≤ mouseReportBytes ∧
        ¬(bytes 1 = 0 ∧ bytes 2 = 0) ∧ mouseCursorNext q.head ≠ q.tail then
      some (c, int8 (bytes 1).toNat, int8 (bytes 2).toNat)
    else none
  | _ => none

/-- Step `s` is a service that is not refused. -/
def CursorStep.drains : CursorStep → Bool
  | .service busy => decide (busy = 0)
  | _ => false

/-- Step `s` disconnects controller `c`. -/
def CursorStep.disconnects (c : ℕ) : CursorStep → Bool
  | .receive c' .disconnected => decide (c' = c)
  | _ => false

/-- Before step `n`, the controller `c` of the motion of step `a` was
disconnected while the motion was still pending. -/
def Cancelled (steps : ℕ → CursorStep) (n a c : ℕ) : Prop :=
  ∃ b < n, a < b ∧ (steps b).disconnects c = true ∧ ∀ t < b, a < t → (steps t).drains = false

instance (steps : ℕ → CursorStep) (n a c : ℕ) : Decidable (Cancelled steps n a c) :=
  inferInstanceAs (Decidable (∃ b < n, _))

/-- The motion of step `a`, unless it has been cancelled before step `n`. -/
def keptAt (mem₀ : ℕ → ℕ) (steps : ℕ → CursorStep) (n a : ℕ) : Option (ℕ × ℤ × ℤ) :=
  (motionAt mem₀ steps a).filter fun m => !decide (Cancelled steps n a m.1)

/-- The motions that arrived before step `n` and were not cancelled, in the
order of their arrival. -/
def keptMotions (mem₀ : ℕ → ℕ) (steps : ℕ → CursorStep) (n : ℕ) : List (ℕ × ℤ × ℤ) :=
  (List.range n).filterMap (keptAt mem₀ steps n)

/-! ### The ring of motions -/

theorem mouseCursorNext_eq {i : ℕ} (hi : i < 64) : mouseCursorNext i = (i + 1) % 64 := by
  rw [mouseCursorNext, Nat.mod_eq_of_lt (by omega)]
  exact Nat.and_two_pow_sub_one_eq_mod (i + 1) 6

theorem mouseCursorNext_lt {i : ℕ} (hi : i < 64) : mouseCursorNext i < 64 := by
  rw [mouseCursorNext_eq hi]
  exact Nat.mod_lt _ (by decide)

/-- The batch takes the whole ring. -/
theorem mouseCursorBatch_eq (q : MouseCursorQueue) (connected : ℕ) (hh : q.head < 64) :
    ∀ (scans tail : ℕ) (acc : List (ℤ × ℤ)), tail < 64 → ringCount 64 tail q.head ≤ scans →
      mouseCursorBatch q connected scans tail acc = (q.head, acc ++
        (ringList 64 q.packets tail q.head).filterMap fun p =>
          if p.controller < mouseControllerCount ∧ connected.testBit p.controller then
            some (p.dx, p.dy) else none) := by
  intro scans
  induction scans with
  | zero =>
    intro tail acc ht hc
    have hth : tail = q.head := (ringCount_eq_zero ht hh).mp (by omega)
    rw [mouseCursorBatch, (ringList_eq_nil ht hh).mpr hth, hth]
    simp
  | succ scans ih =>
    intro tail acc ht hc
    rw [mouseCursorBatch]
    by_cases hth : tail = q.head
    · rw [if_pos hth, (ringList_eq_nil ht hh).mpr hth, hth]
      simp
    have hpop := @ringList_pop _ _ q.packets _ _ ht hh hth
    have hlen := congrArg List.length hpop
    rw [List.length_cons, length_ringList, length_ringList, ← mouseCursorNext_eq ht] at hlen
    rw [if_neg hth]
    dsimp only
    rw [ih _ _ (mouseCursorNext_lt ht) (by omega), hpop, ← mouseCursorNext_eq ht]
    split_ifs with hp
    · rw [List.filterMap_cons, if_pos hp, List.append_assoc]
      rfl
    · rw [List.filterMap_cons, if_neg hp]

/-- The mark of a cancelled packet. -/
def MouseCursorPacket.cancel (c : ℕ) (p : MouseCursorPacket) : MouseCursorPacket :=
  if p.controller = c then { p with controller := 255 } else p

/-- Slot `j` lies between `i` and `head`. -/
def InRing (i head j : ℕ) : Prop := j < 64 ∧ (j + 64 - i) % 64 < (head + 64 - i) % 64

instance (i head j : ℕ) : Decidable (InRing i head j) := inferInstanceAs (Decidable (_ ∧ _))

theorem mouseCursorCancelLoop_eq (c : ℕ) : ∀ (fuel i : ℕ) (q : MouseCursorQueue), i < 64 →
    q.head < 64 → ringCount 64 i q.head ≤ fuel →
    mouseCursorCancelLoop c fuel i q = { q with
      packets := fun j => if InRing i q.head j then (q.packets j).cancel c else q.packets j } := by
  intro fuel
  induction fuel with
  | zero =>
    intro i q hi hh hc
    have hih : i = q.head := (ringCount_eq_zero hi hh).mp (by omega)
    have hnone : ∀ j, ¬InRing i q.head j := by
      rintro j ⟨-, h⟩
      rw [hih] at h
      omega
    simp only [mouseCursorCancelLoop, hnone, if_false]
  | succ fuel ih =>
    intro i q hi hh hc
    rw [mouseCursorCancelLoop]
    by_cases hih : i = q.head
    · have hnone : ∀ j, ¬InRing i q.head j := by
        rintro j ⟨-, h⟩
        rw [hih] at h
        omega
      rw [if_pos hih]
      simp only [hnone, if_false]
    rw [if_neg hih]
    dsimp only
    have hone : (if (q.packets i).controller = c then
        { q with packets := Function.update q.packets i { q.packets i with controller := 255 } }
        else q) = { q with packets := Function.update q.packets i ((q.packets i).cancel c) } := by
      rw [MouseCursorPacket.cancel]
      split_ifs
      · rfl
      · rw [Function.update_eq_self]
    have hcount : ringCount 64 (mouseCursorNext i) q.head ≤ fuel := by
      rw [mouseCursorNext_eq hi]
      simp only [ringCount] at hc ⊢
      omega
    rw [hone, ih (mouseCursorNext i)
      { q with packets := Function.update q.packets i ((q.packets i).cancel c) }
      (mouseCursorNext_lt hi) hh hcount]
    dsimp only
    congr 1
    funext j
    rw [mouseCursorNext_eq hi]
    by_cases hji : j = i
    · subst hji
      rw [if_neg (by simp only [InRing]; omega), if_pos (by simp only [InRing]; omega),
        Function.update_self]
    · rw [Function.update_of_ne hji]
      have hiff : InRing ((i + 1) % 64) q.head j ↔ InRing i q.head j := by
        simp only [InRing]
        omega
      simp only [hiff]

/-- **`mouse_cursor_cancel`** takes exactly the pending motions of the
controller away. -/
theorem pending_cancel {q : MouseCursorQueue} (ht : q.tail < 64) (hh : q.head < 64) (c : ℕ)
    (hc : c < mouseControllerCount) :
    (mouseCursorCancel q c).pending = q.pending.filter fun m => decide (m.1 ≠ c) := by
  have hring : ringList 64 (fun j => if InRing q.tail q.head j then (q.packets j).cancel c
      else q.packets j) q.tail q.head =
      (ringList 64 q.packets q.tail q.head).map (MouseCursorPacket.cancel c) := by
    rw [ringList_map]
    refine ringList_congr fun i hi => if_pos ?_
    simp only [ringCount] at hi
    simp only [InRing]
    omega
  rw [mouseCursorCancel, mouseCursorCancelLoop_eq c _ _ _ ht hh
    (Nat.le_of_lt (ringCount_lt (by decide)))]
  rw [MouseCursorQueue.pending, MouseCursorQueue.pending]
  dsimp only
  rw [hring, List.filterMap_map, List.filter_filterMap]
  refine List.filterMap_congr fun p _ => ?_
  rw [Function.comp_apply]
  by_cases hp : p.controller = c
  · have hcancel : p.cancel c = { p with controller := 255 } := if_pos hp
    rw [hcancel, if_neg (show ¬(255 < mouseControllerCount) by decide),
      if_pos (by rw [hp]; exact hc), Option.filter_some, if_neg (by simp [hp])]
  · have hcancel : p.cancel c = p := if_neg hp
    rw [hcancel]
    split_ifs
    · rw [Option.filter_some, if_pos (by simp [hp])]
    · rfl

/-- A new motion goes to the end. -/
theorem pending_push {q : MouseCursorQueue} (ht : q.tail < 64) (hh : q.head < 64)
    (hroom : mouseCursorNext q.head ≠ q.tail) {c : ℕ} (hc : c < mouseControllerCount) (dx dy : ℤ)
    {d p s : ℕ} :
    MouseCursorQueue.pending { q with
      packets := Function.update q.packets q.head ⟨dx, dy, c⟩, head := mouseCursorNext q.head,
      dropped := d, peakPending := p, saturatedReports := s } = q.pending ++ [(c, dx, dy)] := by
  have hring := @ringList_push _ _ q.packets _ _ ht hh
    (by rw [← mouseCursorNext_eq hh]; exact hroom) ⟨dx, dy, c⟩
  rw [← mouseCursorNext_eq hh] at hring
  rw [MouseCursorQueue.pending, MouseCursorQueue.pending]
  dsimp only
  rw [hring, List.filterMap_append, List.filterMap_cons, if_pos hc]
  rfl

/-! ### The graphics driver -/

/-- **One axis** moves as over the integers. -/
theorem intel915MoveAxis_eq {position limit : ℕ} {delta : ℤ} (hl : 0 < limit) (hl' : limit ≤ 2048)
    (hp : position < limit) (h1 : -128 ≤ delta) (h2 : delta < 128) :
    (intel915MoveAxis position delta limit : ℤ) =
        max (0 : ℤ) (min ((limit : ℤ) - 1) ((position : ℤ) + delta)) ∧
      intel915MoveAxis position delta limit < limit := by
  rw [intel915MoveAxis, if_neg (by omega)]
  dsimp only
  rw [if_neg (by omega : ¬limit ≤ position)]
  by_cases hneg : delta < 0
  · have hdist : sub32 0 (delta % 2 ^ 32).toNat = (-delta).toNat := by
      rw [sub32]
      omega
    rw [if_pos hneg, hdist]
    split_ifs <;> omega
  · rw [if_neg hneg]
    have hword : (delta % 2 ^ 32).toNat = delta.toNat := by omega
    rw [hword]
    split_ifs <;> omega

theorem int8_range (n : ℕ) : -128 ≤ int8 n ∧ int8 n < 128 := by
  rw [int8]
  split_ifs <;> omega

/-- The position that the shared state stores. -/
def cursorPosition (mem : ℕ → ℕ) : ℤ × ℤ := (mem cursorX, mem cursorY)

/-- The screen and the cursor on it. -/
structure OnScreen (width height : ℕ) (mem : ℕ → ℕ) : Prop where
  ready : CursorReady mem
  w_eq : mem i915Width = width
  h_eq : mem i915Height = height
  x : mem cursorX < width
  y : mem cursorY < height

theorem foldl_motions {width height : ℕ} (hw : 0 < width) (hw' : width ≤ 2048) (hh : 0 < height)
    (hh' : height ≤ 2048) : ∀ (motions : List (ℤ × ℤ)) (x y : ℕ), x < width → y < height →
    (∀ m ∈ motions, (-128 ≤ m.1 ∧ m.1 < 128) ∧ (-128 ≤ m.2 ∧ m.2 < 128)) →
    (((motions.foldl (fun x m => intel915MoveAxis x m.1 width) x : ℕ) : ℤ),
      ((motions.foldl (fun y m => intel915MoveAxis y m.2 height) y : ℕ) : ℤ)) =
        motions.foldl (clampMotion width height) (x, y) ∧
      motions.foldl (fun x m => intel915MoveAxis x m.1 width) x < width ∧
      motions.foldl (fun y m => intel915MoveAxis y m.2 height) y < height := by
  intro motions
  induction motions with
  | nil => exact fun x y hx hy _ => ⟨rfl, hx, hy⟩
  | cons m motions ih =>
    intro x y hx hy hm
    obtain ⟨⟨a1, a2⟩, b1, b2⟩ := hm m List.mem_cons_self
    obtain ⟨hx', hxlt⟩ := intel915MoveAxis_eq hw hw' hx a1 a2
    obtain ⟨hy', hylt⟩ := intel915MoveAxis_eq hh hh' hy b1 b2
    have hrest := ih _ _ hxlt hylt fun m' h' => hm m' (List.mem_cons_of_mem _ h')
    rw [hx', hy'] at hrest
    exact hrest

/-- The lock does not change the screen. -/
theorem OnScreen.lock {width height : ℕ} {mem : ℕ → ℕ} (S : OnScreen width height mem) (v : ℕ) :
    OnScreen width height (Function.update mem i915BusyWord v) ∧
      cursorPosition (Function.update mem i915BusyWord v) = cursorPosition mem := by
  have hne : ∀ a, a ≠ i915BusyWord → Function.update mem i915BusyWord v a = mem a :=
    fun a ha => Function.update_of_ne ha _ _
  refine ⟨⟨?_, ?_, ?_, ?_, ?_⟩, ?_⟩
  · have hr := S.ready
    unfold CursorReady at hr ⊢
    rw [hne _ (by decide), hne _ (by decide), hne _ (by decide), hne _ (by decide),
      hne _ (by decide), hne _ (by decide)]
    exact hr
  · rw [hne _ (by decide)]; exact S.w_eq
  · rw [hne _ (by decide)]; exact S.h_eq
  · rw [hne _ (by decide)]; exact S.x
  · rw [hne _ (by decide)]; exact S.y
  · rw [cursorPosition, hne _ (by decide), hne _ (by decide)]
    rfl

/-- The registers of the cursor lie outside the shared state. -/
theorem setCursor_shared {mem : ℕ → ℕ} (x y : ℕ) {a : ℕ} (hlt : a < i915Mmio)
    (hx : a ≠ cursorX) (hy : a ≠ cursorY) (hu : a ≠ cursorUpdates) : setCursor x y mem a = mem a := by
  rw [setCursor]
  rw [Function.update_of_ne hu, Function.update_of_ne hy, Function.update_of_ne hx,
    Function.update_of_ne (by simp only [i915Mmio, cursorBaseReg] at *; omega),
    Function.update_of_ne (by simp only [i915Mmio, cursorPositionReg] at *; omega)]

theorem setCursor_x (x y : ℕ) (mem : ℕ → ℕ) : setCursor x y mem cursorX = x := by
  rw [setCursor]
  rw [Function.update_of_ne (by decide), Function.update_of_ne (by decide), Function.update_self]

theorem setCursor_y (x y : ℕ) (mem : ℕ → ℕ) : setCursor x y mem cursorY = y := by
  rw [setCursor]
  rw [Function.update_of_ne (by decide), Function.update_self]

theorem OnScreen.setCursor {width height : ℕ} {mem : ℕ → ℕ} (S : OnScreen width height mem)
    {x y : ℕ} (hx : x < width) (hy : y < height) :
    OnScreen width height (VirtualKernel.setCursor x y mem) := by
  have hne : ∀ a, a < i915Mmio → a ≠ cursorX → a ≠ cursorY → a ≠ cursorUpdates →
      VirtualKernel.setCursor x y mem a = mem a := fun a => setCursor_shared x y
  refine ⟨?_, ?_, ?_, ?_, ?_⟩
  · have hr := S.ready
    unfold CursorReady at hr ⊢
    rw [hne _ (by decide) (by decide) (by decide) (by decide),
      hne _ (by decide) (by decide) (by decide) (by decide),
      hne _ (by decide) (by decide) (by decide) (by decide),
      hne _ (by decide) (by decide) (by decide) (by decide),
      hne _ (by decide) (by decide) (by decide) (by decide),
      hne _ (by decide) (by decide) (by decide) (by decide)]
    exact hr
  · rw [hne _ (by decide) (by decide) (by decide) (by decide)]; exact S.w_eq
  · rw [hne _ (by decide) (by decide) (by decide) (by decide)]; exact S.h_eq
  · rw [setCursor_x]; exact hx
  · rw [setCursor_y]; exact hy

/-- **`intel915_cursor_flush`**: refused exactly when the lock is taken;
otherwise the position is the fold of the batch. -/
theorem intel915CursorFlush_spec {width height : ℕ} {mem : ℕ → ℕ} (S : OnScreen width height mem)
    {motions : List (ℤ × ℤ)} (h0 : motions.length ≠ 0) (h64 : motions.length ≤ 64)
    (hm : ∀ m ∈ motions, (-128 ≤ m.1 ∧ m.1 < 128) ∧ (-128 ≤ m.2 ∧ m.2 < 128)) :
    OnScreen width height (intel915CursorFlush motions mem).2 ∧
      (mem i915BusyWord ≠ 0 ∧ (intel915CursorFlush motions mem).1 = 0 ∧
          cursorPosition (intel915CursorFlush motions mem).2 = cursorPosition mem ∨
        mem i915BusyWord = 0 ∧ (intel915CursorFlush motions mem).1 = 1 ∧
          cursorPosition (intel915CursorFlush motions mem).2 =
            motions.foldl (clampMotion width height) (cursorPosition mem)) := by
  rw [intel915CursorFlush, if_neg (by omega)]
  by_cases hb : mem i915BusyWord = 0
  · rw [if_neg (not_not.mpr hb)]
    dsimp only
    obtain ⟨S₁, hpos₁⟩ := S.lock 1
    set mem₁ := Function.update mem i915BusyWord 1 with hmem₁
    rw [if_pos S₁.ready]
    obtain ⟨-, -, -, -, -, hw0, hw, hh0, hh⟩ := S₁.ready
    rw [S₁.w_eq] at hw0 hw
    rw [S₁.h_eq] at hh0 hh
    obtain ⟨hfold, hxlt, hylt⟩ := foldl_motions (Nat.pos_of_ne_zero hw0) hw (Nat.pos_of_ne_zero hh0)
      hh motions (mem₁ cursorX) (mem₁ cursorY) S₁.x S₁.y hm
    rw [S₁.w_eq, S₁.h_eq]
    set x := motions.foldl (fun x m => intel915MoveAxis x m.1 width) (mem₁ cursorX) with hx
    set y := motions.foldl (fun y m => intel915MoveAxis y m.2 height) (mem₁ cursorY) with hy
    have hstart : ((mem₁ cursorX : ℤ), (mem₁ cursorY : ℤ)) = cursorPosition mem := hpos₁
    rw [hstart] at hfold
    by_cases hmove : x ≠ mem₁ cursorX ∨ y ≠ mem₁ cursorY
    · rw [if_pos hmove]
      obtain ⟨S₃, hpos₃⟩ := (S₁.setCursor hxlt hylt).lock 0
      refine ⟨S₃, Or.inr ⟨hb, rfl, ?_⟩⟩
      rw [hpos₃, cursorPosition, setCursor_x, setCursor_y]
      exact hfold
    · rw [if_neg hmove]
      obtain ⟨S₃, hpos₃⟩ := S₁.lock 0
      simp only [not_or, not_not] at hmove
      refine ⟨S₃, Or.inr ⟨hb, rfl, ?_⟩⟩
      rw [hpos₃, cursorPosition, ← hmove.1, ← hmove.2]
      exact hfold
  · rw [if_pos hb]
    obtain ⟨S₁, hpos₁⟩ := S.lock 1
    exact ⟨S₁, Or.inl ⟨hb, rfl, hpos₁⟩⟩

/-! ### The record of a run -/

/-- One more than the number of the last service before step `n` that was not
refused. -/
def lastDrain (steps : ℕ → CursorStep) : ℕ → ℕ
  | 0 => 0
  | n + 1 => if (steps n).drains then n + 1 else lastDrain steps n

/-- The motions that arrived before the last drain. -/
def appliedMotions (mem₀ : ℕ → ℕ) (steps : ℕ → CursorStep) (n : ℕ) : List (ℕ × ℤ × ℤ) :=
  (List.range (lastDrain steps n)).filterMap (keptAt mem₀ steps n)

/-- The motions that arrived after it. -/
def waitingMotions (mem₀ : ℕ → ℕ) (steps : ℕ → CursorStep) (n : ℕ) : List (ℕ × ℤ × ℤ) :=
  (List.range' (lastDrain steps n) (n - lastDrain steps n)).filterMap (keptAt mem₀ steps n)

section Record

variable {mem₀ : ℕ → ℕ} {steps : ℕ → CursorStep} {n : ℕ}

theorem lastDrain_le : ∀ n, lastDrain steps n ≤ n
  | 0 => Nat.le_refl 0
  | n + 1 => by
    rw [lastDrain]
    split_ifs
    · exact Nat.le_refl _
    · exact Nat.le_succ_of_le (lastDrain_le n)

/-- Nothing was drained between `a` and `n` when the last drain is not later
than `a`. -/
theorem lastDrain_le_iff (a : ℕ) : ∀ n, lastDrain steps n ≤ a + 1 ↔
    ∀ t < n, a < t → (steps t).drains = false
  | 0 => by simp [lastDrain]
  | n + 1 => by
    have ih := lastDrain_le_iff a n
    rw [lastDrain]
    split_ifs with hd
    · constructor
      · intro h t ht hat
        omega
      · intro h
        by_contra hlt
        rw [h n (by omega) (by omega)] at hd
        exact Bool.false_ne_true hd
    · rw [ih]
      constructor
      · intro h t ht hat
        rcases Nat.lt_succ_iff_lt_or_eq.mp ht with ht | rfl
        · exact h t ht hat
        · exact Bool.not_eq_true _ ▸ hd
      · exact fun h t ht hat => h t (Nat.lt_succ_of_lt ht) hat

/-- The step of the last drain brings no motion. -/
theorem motionAt_lastDrain : ∀ {n a : ℕ}, lastDrain steps n = a + 1 → motionAt mem₀ steps a = none
  | 0, a, h => absurd h (Nat.succ_ne_zero a).symm
  | n + 1, a, h => by
    rw [lastDrain] at h
    split_ifs at h with hd
    · obtain rfl : n = a := by omega
      rw [motionAt]
      cases hs : steps n with
      | receive c e =>
        rw [hs] at hd
        exact absurd hd Bool.false_ne_true
      | service busy => rfl
    · exact motionAt_lastDrain h

theorem keptMotions_eq : keptMotions mem₀ steps n =
    appliedMotions mem₀ steps n ++ waitingMotions mem₀ steps n := by
  have hle : lastDrain steps n ≤ n := lastDrain_le n
  rw [keptMotions, appliedMotions, waitingMotions, ← List.filterMap_append, List.range_eq_range',
    List.range_eq_range']
  congr 1
  have h := @List.range'_append 0 (lastDrain steps n) (n - lastDrain steps n) 1
  rw [Nat.one_mul, Nat.zero_add, Nat.add_sub_cancel' hle] at h
  exact h.symm

/-! What one step does to the motions of earlier steps. -/

theorem cancelled_succ (a c : ℕ) : Cancelled steps (n + 1) a c ↔ Cancelled steps n a c ∨
    a < n ∧ (steps n).disconnects c = true ∧ lastDrain steps n ≤ a + 1 := by
  rw [lastDrain_le_iff]
  constructor
  · rintro ⟨b, hb, hab, hdisc, hno⟩
    rcases Nat.lt_succ_iff_lt_or_eq.mp hb with hb | rfl
    · exact Or.inl ⟨b, hb, hab, hdisc, hno⟩
    · exact Or.inr ⟨hab, hdisc, hno⟩
  · rintro (⟨b, hb, h⟩ | ⟨hab, hdisc, hno⟩)
    · exact ⟨b, Nat.lt_succ_of_lt hb, h⟩
    · exact ⟨n, Nat.lt_succ_self n, hab, hdisc, hno⟩

theorem not_cancelled_self (c : ℕ) : ¬Cancelled steps (n + 1) n c := by
  rintro ⟨b, hb, hab, -⟩
  omega

theorem keptAt_new : keptAt mem₀ steps (n + 1) n = motionAt mem₀ steps n := by
  rw [keptAt]
  cases motionAt mem₀ steps n with
  | none => rfl
  | some m => rw [Option.filter_some, decide_eq_false (not_cancelled_self m.1)]; rfl

theorem keptAt_succ (h : ∀ c, (steps n).disconnects c = false) (a : ℕ) :
    keptAt mem₀ steps (n + 1) a = keptAt mem₀ steps n a := by
  rw [keptAt, keptAt]
  congr 1
  funext m
  have hiff : Cancelled steps (n + 1) a m.1 ↔ Cancelled steps n a m.1 := by
    rw [cancelled_succ, h]
    simp
  simp only [hiff]

/-- A disconnect leaves the motions already applied, -/
theorem keptAt_applied {a : ℕ} (ha : a < lastDrain steps n) :
    keptAt mem₀ steps (n + 1) a = keptAt mem₀ steps n a := by
  rw [keptAt, keptAt]
  by_cases hlast : lastDrain steps n = a + 1
  · rw [motionAt_lastDrain hlast]
    rfl
  congr 1
  funext m
  have hiff : Cancelled steps (n + 1) a m.1 ↔ Cancelled steps n a m.1 := by
    rw [cancelled_succ, or_iff_left (by omega)]
  simp only [hiff]

/-- and takes away those of its controller that wait. -/
theorem keptAt_waiting {a c : ℕ} (hs : steps n = .receive c .disconnected) (hn : a < n)
    (ha : lastDrain steps n ≤ a) :
    keptAt mem₀ steps (n + 1) a =
      (keptAt mem₀ steps n a).filter fun m => decide (m.1 ≠ c) := by
  rw [keptAt, keptAt, Option.filter_filter]
  congr 1
  funext m
  have hdisc : (steps n).disconnects m.1 = true ↔ m.1 = c := by
    rw [hs, CursorStep.disconnects, decide_eq_true_eq, eq_comm]
  have hiff : Cancelled steps (n + 1) a m.1 ↔ Cancelled steps n a m.1 ∨ m.1 = c := by
    rw [cancelled_succ, hdisc]
    constructor
    · exact Or.imp_right fun h => h.2.1
    · exact Or.imp_right fun h => ⟨hn, h, by omega⟩
  rw [decide_eq_decide.mpr hiff, Bool.decide_or, decide_not]
  cases decide (Cancelled steps n a m.1) <;> cases decide (m.1 = c) <;> rfl

/-- A step that neither drains nor disconnects. -/
theorem record_keep (hdrain : (steps n).drains = false)
    (hdisc : ∀ c, (steps n).disconnects c = false) :
    appliedMotions mem₀ steps (n + 1) = appliedMotions mem₀ steps n ∧
      waitingMotions mem₀ steps (n + 1) =
        waitingMotions mem₀ steps n ++ (motionAt mem₀ steps n).toList := by
  have hlast : lastDrain steps (n + 1) = lastDrain steps n := by
    rw [lastDrain, hdrain]
    rfl
  have hle : lastDrain steps n ≤ n := lastDrain_le n
  have hfun : keptAt mem₀ steps (n + 1) = keptAt mem₀ steps n := funext (keptAt_succ hdisc)
  refine ⟨by rw [appliedMotions, appliedMotions, hlast, hfun], ?_⟩
  rw [waitingMotions, waitingMotions, hlast, Nat.succ_sub hle, List.range'_1_concat,
    List.filterMap_append, Nat.add_sub_cancel' hle, hfun]
  congr 1
  rw [← keptAt_new, hfun, List.filterMap_cons]
  cases keptAt mem₀ steps n n <;> rfl

/-- A drain. -/
theorem record_drain (hdrain : (steps n).drains = true) (hmotion : motionAt mem₀ steps n = none)
    (hdisc : ∀ c, (steps n).disconnects c = false) :
    appliedMotions mem₀ steps (n + 1) =
        appliedMotions mem₀ steps n ++ waitingMotions mem₀ steps n ∧
      waitingMotions mem₀ steps (n + 1) = [] := by
  have hlast : lastDrain steps (n + 1) = n + 1 := by
    rw [lastDrain, hdrain]
    rfl
  have hfun : keptAt mem₀ steps (n + 1) = keptAt mem₀ steps n := funext (keptAt_succ hdisc)
  constructor
  · rw [← keptMotions_eq, appliedMotions, keptMotions, hlast, List.range_succ,
      List.filterMap_append, hfun]
    rw [List.filterMap_cons, ← hfun, keptAt_new, hmotion]
    simp
  · rw [waitingMotions, hlast, Nat.sub_self]
    rfl

/-- A disconnect. -/
theorem record_disconnect {c : ℕ} (hs : steps n = .receive c .disconnected) :
    appliedMotions mem₀ steps (n + 1) = appliedMotions mem₀ steps n ∧
      waitingMotions mem₀ steps (n + 1) =
        (waitingMotions mem₀ steps n).filter fun m => decide (m.1 ≠ c) := by
  have hlast : lastDrain steps (n + 1) = lastDrain steps n := by
    rw [lastDrain, hs]
    rfl
  have hle : lastDrain steps n ≤ n := lastDrain_le n
  have hmotion : motionAt mem₀ steps n = none := by rw [motionAt, hs]
  constructor
  · rw [appliedMotions, appliedMotions, hlast]
    exact List.filterMap_congr fun a ha => keptAt_applied (List.mem_range.mp ha)
  · rw [waitingMotions, waitingMotions, hlast, Nat.succ_sub hle, List.range'_1_concat,
      List.filterMap_append, Nat.add_sub_cancel' hle, List.filterMap_cons, keptAt_new, hmotion,
      List.filterMap_nil, List.append_nil, List.filter_filterMap]
    refine List.filterMap_congr fun a ha => ?_
    obtain ⟨h1, h2⟩ := List.mem_range'_1.mp ha
    exact keptAt_waiting hs (by omega) h1

end Record

/-! ### One step of the driver -/

/-- The motions of a batch are small enough for the clamp. -/
def SmallMotion (m : ℕ × ℤ × ℤ) : Prop :=
  (-128 ≤ m.2.1 ∧ m.2.1 < 128) ∧ (-128 ≤ m.2.2 ∧ m.2.2 < 128)

theorem pending_controller {q : MouseCursorQueue} {m : ℕ × ℤ × ℤ} (hm : m ∈ q.pending) :
    m.1 < mouseControllerCount := by
  rw [MouseCursorQueue.pending, List.mem_filterMap] at hm
  obtain ⟨p, -, hp⟩ := hm
  split_ifs at hp with hc
  rw [← Option.some.inj hp]
  exact hc

theorem length_pending_lt (q : MouseCursorQueue) : q.pending.length < 64 := by
  refine Nat.lt_of_le_of_lt (List.length_filterMap_le _ _) ?_
  rw [length_ringList]
  exact ringCount_lt (by decide)

/-- With every pending controller connected, the batch is what is pending. -/
theorem batch_eq {q : MouseCursorQueue} {connected : ℕ} (ht : q.tail < 64) (hh : q.head < 64)
    (hconn : ∀ m ∈ q.pending, connected.testBit m.1 = true) :
    mouseCursorBatch q connected i915CursorBatch q.tail [] =
      (q.head, q.pending.map fun m => m.2) := by
  rw [mouseCursorBatch_eq q connected hh _ _ _ ht (Nat.le_of_lt (ringCount_lt (by decide))),
    List.nil_append, MouseCursorQueue.pending, List.map_filterMap]
  congr 1
  refine List.filterMap_congr fun p hp => ?_
  by_cases hc : p.controller < mouseControllerCount
  · have hmem : (p.controller, p.dx, p.dy) ∈ q.pending := by
      rw [MouseCursorQueue.pending, List.mem_filterMap]
      exact ⟨p, hp, if_pos hc⟩
    rw [if_pos ⟨hc, hconn _ hmem⟩, if_pos hc]
    rfl
  · rw [if_neg fun h => hc h.1, if_neg hc]
    rfl

/-- **A service of the cursor**: refused it changes nothing that is pending and
not the position, else it applies all that is pending. -/
theorem mouseCursorService_spec {width height : ℕ} {s : CursorSystem} (S : OnScreen width height s.mem)
    (ht : s.mouse.cursor.tail < 64) (hh : s.mouse.cursor.head < 64)
    (hconn : ∀ m ∈ s.mouse.cursor.pending, s.mouse.shared.connected.testBit m.1 = true)
    (hsmall : ∀ m ∈ s.mouse.cursor.pending, SmallMotion m) :
    (mouseCursorService s).mouse.shared = s.mouse.shared ∧
      (mouseCursorService s).mouse.cursor.tail < 64 ∧
      (mouseCursorService s).mouse.cursor.head < 64 ∧
      OnScreen width height (mouseCursorService s).mem ∧
      (s.mem i915BusyWord ≠ 0 → (mouseCursorService s).mouse.cursor.pending = s.mouse.cursor.pending ∧
        cursorPosition (mouseCursorService s).mem = cursorPosition s.mem) ∧
      (s.mem i915BusyWord = 0 → (mouseCursorService s).mouse.cursor.pending = [] ∧
        cursorPosition (mouseCursorService s).mem =
          (s.mouse.cursor.pending.map fun m => m.2).foldl (clampMotion width height)
            (cursorPosition s.mem)) := by
  have hnil : ∀ q : MouseCursorQueue, q.head < 64 → q.tail = q.head → q.pending = [] := by
    intro q hq hth
    rw [MouseCursorQueue.pending, hth]
    exact congrArg _ (ringList_self hq)
  rw [mouseCursorService, mouseCursorDrain, batch_eq ht hh hconn]
  dsimp only
  by_cases h0 : s.mouse.cursor.pending = []
  · rw [h0, List.map_nil, List.length_nil, if_pos rfl]
    refine ⟨rfl, hh, hh, S, fun _ => ⟨hnil _ hh rfl, rfl⟩, fun _ => ⟨hnil _ hh rfl, rfl⟩⟩
  have hlen : (s.mouse.cursor.pending.map fun m => m.2).length ≠ 0 := by
    rw [List.length_map]
    exact fun h => h0 (List.length_eq_zero_iff.mp h)
  obtain ⟨hS, hcase⟩ := intel915CursorFlush_spec S hlen
    (by rw [List.length_map]; exact Nat.le_of_lt (length_pending_lt _)) (by
      intro m hm
      obtain ⟨m', hm', rfl⟩ := List.mem_map.mp hm
      exact hsmall m' hm')
  rw [if_neg hlen, intel915UpdateCursor, if_pos rfl]
  rcases hcase with ⟨hb, hr, hpos⟩ | ⟨hb, hr, hpos⟩
  · rw [if_pos hr]
    exact ⟨rfl, ht, hh, hS, fun _ => ⟨rfl, hpos⟩, fun h => absurd h hb⟩
  · rw [if_neg (by rw [hr]; exact Nat.one_ne_zero)]
    exact ⟨rfl, hh, hh, hS, fun h => absurd hb h, fun _ => ⟨hnil _ hh rfl, hpos⟩⟩

/-! ### Runs of the driver -/

/-- What a run keeps: the ring holds the motions that arrived after the last
drain, and the position is the fold of those before it. -/
structure CursorInv (width height : ℕ) (mem₀ : ℕ → ℕ) (steps : ℕ → CursorStep) (n : ℕ) : Prop where
  head : (cursorAt mem₀ steps n).mouse.cursor.head < 64
  tail : (cursorAt mem₀ steps n).mouse.cursor.tail < 64
  screen : OnScreen width height (cursorAt mem₀ steps n).mem
  connected : ∀ m ∈ (cursorAt mem₀ steps n).mouse.cursor.pending,
    (cursorAt mem₀ steps n).mouse.shared.connected.testBit m.1 = true
  pending : (cursorAt mem₀ steps n).mouse.cursor.pending = waitingMotions mem₀ steps n
  position : cursorPosition (cursorAt mem₀ steps n).mem =
    ((appliedMotions mem₀ steps n).map fun m => m.2).foldl (clampMotion width height)
      (cursorPosition mem₀)

section Step

variable {width height : ℕ} {mem₀ : ℕ → ℕ} {steps : ℕ → CursorStep} {n : ℕ}

theorem motionAt_small {a : ℕ} {m : ℕ × ℤ × ℤ} (h : motionAt mem₀ steps a = some m) :
    SmallMotion m := by
  rw [motionAt] at h
  split at h
  · dsimp only at h
    split_ifs at h
    rw [← Option.some.inj h]
    exact ⟨int8_range _, int8_range _⟩
  · exact absurd h (by simp)

theorem waiting_small {m : ℕ × ℤ × ℤ} (h : m ∈ waitingMotions mem₀ steps n) : SmallMotion m := by
  obtain ⟨a, -, ha⟩ := List.mem_filterMap.mp h
  exact motionAt_small (Option.filter_eq_some_iff.mp ha).1

theorem cursorAt_receive {c : ℕ} {e : UsbReport} (h : steps n = .receive c e) :
    cursorAt mem₀ steps (n + 1) = { cursorAt mem₀ steps n with
      mouse := mouseReceive (cursorAt mem₀ steps n).mouse c e } := by
  rw [cursorAt, h]
  rfl

/-- The motion that a report puts into the ring `q`. -/
def acceptedMotion (q : MouseCursorQueue) (c : ℕ) (bytes : ℕ → UInt8) (length : ℕ) :
    Option (ℕ × ℤ × ℤ) :=
  if c < mouseControllerCount ∧ 3 ≤ length ∧ length ≤ mouseReportBytes ∧
      ¬(bytes 1 = 0 ∧ bytes 2 = 0) ∧ mouseCursorNext q.head ≠ q.tail then
    some (c, int8 (bytes 1).toNat, int8 (bytes 2).toNat)
  else none

/-- **`mouse_cursor_enqueue`** appends the accepted motion. -/
theorem enqueue_spec {q : MouseCursorQueue} (hh : q.head < 64) (ht : q.tail < 64) {c : ℕ}
    (hc : c < mouseControllerCount) (bytes : ℕ → UInt8) (length : ℕ) :
    (mouseCursorEnqueue q c bytes length).head < 64 ∧
      (mouseCursorEnqueue q c bytes length).tail < 64 ∧
      (mouseCursorEnqueue q c bytes length).pending =
        q.pending ++ (acceptedMotion q c bytes length).toList := by
  rw [mouseCursorEnqueue]
  by_cases hbad : mouseControllerCount ≤ c ∨ length < 3 ∨ mouseReportBytes < length ∨
      bytes 1 = 0 ∧ bytes 2 = 0
  · have hnone : acceptedMotion q c bytes length = none := by
      refine if_neg ?_
      rintro ⟨h1, h2, h3, h4, -⟩
      rcases hbad with h | h | h | h
      · omega
      · omega
      · omega
      · exact h4 h
    rw [if_pos hbad, hnone, Option.toList_none, List.append_nil]
    exact ⟨hh, ht, rfl⟩
  rw [if_neg hbad]
  dsimp only
  simp only [not_or, Nat.not_le, Nat.not_lt] at hbad
  obtain ⟨-, h3, h64, hmove⟩ := hbad
  by_cases hroom : mouseCursorNext q.head = q.tail
  · have hnone : acceptedMotion q c bytes length = none := if_neg fun h => h.2.2.2.2 hroom
    rw [if_pos hroom, hnone, Option.toList_none, List.append_nil]
    exact ⟨hh, ht, rfl⟩
  · have hsome : acceptedMotion q c bytes length =
        some (c, int8 (bytes 1).toNat, int8 (bytes 2).toNat) := if_pos ⟨hc, h3, h64, hmove, hroom⟩
    rw [if_neg hroom, hsome, Option.toList_some]
    exact ⟨mouseCursorNext_lt hh, ht, pending_push ht hh hroom hc _ _⟩

/-- A controller number out of range is ignored. -/
theorem mouseReceive_of_le {d : MouseDriver} {c : ℕ} {e : UsbReport}
    (hc : mouseControllerCount ≤ c) : mouseReceive d c e = d := if_pos hc

/-- Disconnecting one controller leaves the others connected. -/
theorem testBit_disconnect {connected c c' : ℕ} (hc : c < mouseControllerCount)
    (hc' : c' < mouseControllerCount) (hne : c' ≠ c) (h : connected.testBit c' = true) :
    (connected &&& (2 ^ 32 - 1 - 1 <<< c)).testBit c' = true := by
  simp only [mouseControllerCount] at hc hc'
  rw [Nat.testBit_and, h, Bool.true_and, Nat.one_shiftLeft, Nat.sub_sub, Nat.add_comm 1,
    Nat.testBit_two_pow_sub_succ (Nat.pow_lt_pow_right (by decide) (by omega)),
    Nat.testBit_two_pow]
  simp
  omega

namespace CursorInv

theorem pending_zero : (cursorAt mem₀ steps 0).mouse.cursor.pending = [] :=
  congrArg _ (ringList_self (show 0 < 64 by decide))

theorem zero (S : OnScreen width height mem₀) : CursorInv width height mem₀ steps 0 where
  head := show 0 < 64 by decide
  tail := show 0 < 64 by decide
  screen := S
  connected := by
    rw [pending_zero]
    exact fun m hm => absurd hm List.not_mem_nil
  pending := pending_zero
  position := rfl

/-- A callback that changes only the connections. -/
theorem step_silent (I : CursorInv width height mem₀ steps n) {c : ℕ} {e : UsbReport}
    (h : steps n = .receive c e) (hdisc : ∀ c', (steps n).disconnects c' = false)
    (hmotion : motionAt mem₀ steps n = none)
    (hring : (mouseReceive (cursorAt mem₀ steps n).mouse c e).cursor =
      (cursorAt mem₀ steps n).mouse.cursor)
    (hconn : ∀ c', (cursorAt mem₀ steps n).mouse.shared.connected.testBit c' = true →
      (mouseReceive (cursorAt mem₀ steps n).mouse c e).shared.connected.testBit c' = true) :
    CursorInv width height mem₀ steps (n + 1) := by
  obtain ⟨happ, hwait⟩ := record_keep (by rw [h]; rfl) hdisc
  rw [hmotion, Option.toList_none, List.append_nil] at hwait
  constructor
  · rw [cursorAt_receive h, hring]; exact I.head
  · rw [cursorAt_receive h, hring]; exact I.tail
  · rw [cursorAt_receive h]; exact I.screen
  · rw [cursorAt_receive h, hring]; exact fun m hm => hconn _ (I.connected m hm)
  · rw [cursorAt_receive h, hring, hwait]; exact I.pending
  · rw [cursorAt_receive h, happ]; exact I.position

theorem step_connected (I : CursorInv width height mem₀ steps n) {c : ℕ}
    (h : steps n = .receive c .connected) : CursorInv width height mem₀ steps (n + 1) := by
  have hdisc : ∀ c', (steps n).disconnects c' = false := by
    rw [h]
    exact fun _ => rfl
  have hmotion : motionAt mem₀ steps n = none := by rw [motionAt, h]
  by_cases hc : mouseControllerCount ≤ c
  · refine I.step_silent h hdisc hmotion (by rw [mouseReceive_of_le hc]) fun c' hc' => ?_
    rw [mouseReceive_of_le hc]
    exact hc'
  · refine I.step_silent h hdisc hmotion (by rw [mouseReceive, if_neg hc]) fun c' hc' => ?_
    rw [mouseReceive, if_neg hc]
    dsimp only
    rw [Nat.testBit_or, hc', Bool.true_or]

theorem step_disconnected (I : CursorInv width height mem₀ steps n) {c : ℕ}
    (h : steps n = .receive c .disconnected) :
    CursorInv width height mem₀ steps (n + 1) ∧
      (cursorAt mem₀ steps (n + 1)).mouse.cursor.pending =
        (cursorAt mem₀ steps n).mouse.cursor.pending.filter fun m => decide (m.1 ≠ c) := by
  obtain ⟨happ, hwait⟩ := record_disconnect h
  rw [← I.pending] at hwait
  by_cases hc : mouseControllerCount ≤ c
  · -- the driver ignores the number, and nothing pending has it
    have hat : cursorAt mem₀ steps (n + 1) = cursorAt mem₀ steps n := by
      rw [cursorAt_receive h, mouseReceive_of_le hc]
    have hall : (cursorAt mem₀ steps n).mouse.cursor.pending.filter (fun m => decide (m.1 ≠ c)) =
        (cursorAt mem₀ steps n).mouse.cursor.pending := by
      refine List.filter_eq_self.mpr fun m hm => decide_eq_true ?_
      have hm' := pending_controller hm
      omega
    rw [hall] at hwait
    rw [hall, hat]
    refine ⟨⟨?_, ?_, ?_, ?_, ?_, ?_⟩, rfl⟩
    · rw [hat]; exact I.head
    · rw [hat]; exact I.tail
    · rw [hat]; exact I.screen
    · rw [hat]; exact I.connected
    · rw [hat, hwait]
    · rw [hat, happ]; exact I.position
  have hcursor : (mouseReceive (cursorAt mem₀ steps n).mouse c .disconnected).cursor =
      mouseCursorCancel (cursorAt mem₀ steps n).mouse.cursor c := by
    rw [mouseReceive, if_neg hc]
  have hshared : (mouseReceive (cursorAt mem₀ steps n).mouse c .disconnected).shared.connected =
      (cursorAt mem₀ steps n).mouse.shared.connected &&& (2 ^ 32 - 1 - 1 <<< c) := by
    rw [mouseReceive, if_neg hc]
  have hloop := mouseCursorCancelLoop_eq c mouseCursorQueueSize _ _ I.tail I.head
    (Nat.le_of_lt (ringCount_lt (by decide)))
  have hpend := pending_cancel I.tail I.head c (Nat.not_le.mp hc)
  rw [cursorAt_receive h]
  dsimp only
  rw [hcursor, hpend]
  refine ⟨⟨?_, ?_, ?_, ?_, ?_, ?_⟩, rfl⟩
  · rw [cursorAt_receive h, hcursor, mouseCursorCancel, hloop]; exact I.head
  · rw [cursorAt_receive h, hcursor, mouseCursorCancel, hloop]; exact I.tail
  · rw [cursorAt_receive h]; exact I.screen
  · rw [cursorAt_receive h, hcursor, hpend, hshared]
    intro m hm
    obtain ⟨hm, hne⟩ := List.mem_filter.mp hm
    exact testBit_disconnect (Nat.not_le.mp hc) (pending_controller hm) (of_decide_eq_true hne) (I.connected m hm)
  · rw [cursorAt_receive h, hcursor, hpend, hwait]
  · rw [cursorAt_receive h, happ]; exact I.position

theorem step_data (I : CursorInv width height mem₀ steps n) {c length : ℕ} {bytes : ℕ → UInt8}
    (h : steps n = .receive c (.data bytes length))
    (hconn : c < mouseControllerCount →
      (cursorAt mem₀ steps n).mouse.shared.connected.testBit c = true) :
    CursorInv width height mem₀ steps (n + 1) := by
  have hdisc : ∀ c', (steps n).disconnects c' = false := by
    rw [h]
    exact fun _ => rfl
  by_cases hc : mouseControllerCount ≤ c
  · have hmotion : motionAt mem₀ steps n = none := by
      rw [motionAt, h]
      exact if_neg fun hn => absurd hn.1 (Nat.not_lt.mpr hc)
    refine I.step_silent h hdisc hmotion (by rw [mouseReceive_of_le hc]) fun c' hc' => ?_
    rw [mouseReceive_of_le hc]
    exact hc'
  have hcursor : (mouseReceive (cursorAt mem₀ steps n).mouse c (.data bytes length)).cursor =
      mouseCursorEnqueue (cursorAt mem₀ steps n).mouse.cursor c bytes length := by
    rw [mouseReceive, if_neg hc]
  have hshared : (mouseReceive (cursorAt mem₀ steps n).mouse c
      (.data bytes length)).shared.connected = (cursorAt mem₀ steps n).mouse.shared.connected := by
    rw [mouseReceive, if_neg hc]
    dsimp only
    rw [mouseQueueReport]
    split_ifs <;> rfl
  have hwait := (@record_keep mem₀ _ _ (by rw [h]; rfl) hdisc).2
  have happ := (@record_keep mem₀ _ _ (by rw [h]; rfl) hdisc).1
  obtain ⟨hh, ht, hpend⟩ := enqueue_spec I.head I.tail (Nat.not_le.mp hc) bytes length
  have hmotion : motionAt mem₀ steps n =
      acceptedMotion (cursorAt mem₀ steps n).mouse.cursor c bytes length := by rw [motionAt, h]; rfl
  rw [← hmotion] at hpend
  constructor
  · rw [cursorAt_receive h, hcursor]; exact hh
  · rw [cursorAt_receive h, hcursor]; exact ht
  · rw [cursorAt_receive h]; exact I.screen
  · rw [cursorAt_receive h]
    dsimp only
    rw [hcursor, hpend, hshared]
    intro m hm
    rcases List.mem_append.mp hm with hm | hm
    · exact I.connected m hm
    · rw [hmotion, Option.mem_toList, acceptedMotion] at hm
      split_ifs at hm with hacc
      rw [← Option.some.inj hm]
      exact hconn hacc.1
  · rw [cursorAt_receive h]
    dsimp only
    rw [hcursor, hpend, hwait, I.pending]
  · rw [cursorAt_receive h, happ]; exact I.position

theorem step_service (I : CursorInv width height mem₀ steps n) {busy : ℕ}
    (h : steps n = .service busy) :
    CursorInv width height mem₀ steps (n + 1) ∧
      (busy ≠ 0 → (cursorAt mem₀ steps (n + 1)).mouse.cursor.pending =
          (cursorAt mem₀ steps n).mouse.cursor.pending ∧
        cursorPosition (cursorAt mem₀ steps (n + 1)).mem =
          cursorPosition (cursorAt mem₀ steps n).mem) := by
  have hdisc : ∀ c', (steps n).disconnects c' = false := by
    rw [h]
    exact fun _ => rfl
  have hmotion : motionAt mem₀ steps n = none := by rw [motionAt, h]
  obtain ⟨hscreen, hposition⟩ := I.screen.lock busy
  set s : CursorSystem := { cursorAt mem₀ steps n with
    mem := Function.update (cursorAt mem₀ steps n).mem i915BusyWord busy } with hs
  have hat : cursorAt mem₀ steps (n + 1) = mouseCursorService s := by
    rw [cursorAt, h]
    rfl
  have hbusy : s.mem i915BusyWord = busy :=
    Function.update_self i915BusyWord busy (cursorAt mem₀ steps n).mem
  change cursorPosition s.mem = _ at hposition
  obtain ⟨hshared, ht, hh, hS, hrefused, hdrained⟩ := mouseCursorService_spec (s := s) hscreen I.tail
    I.head I.connected fun m hm => waiting_small (I.pending ▸ hm)
  rw [hbusy] at hrefused hdrained
  rw [hat]
  by_cases hb : busy = 0
  · obtain ⟨happ, hwait⟩ := record_drain (by rw [h]; exact decide_eq_true hb) hmotion hdisc
    obtain ⟨hpend, hpos⟩ := hdrained hb
    refine ⟨⟨?_, ?_, ?_, ?_, ?_, ?_⟩, fun h => absurd hb h⟩
    · rw [hat]; exact hh
    · rw [hat]; exact ht
    · rw [hat]; exact hS
    · rw [hat, hpend]; exact fun m hm => absurd hm List.not_mem_nil
    · rw [hat, hpend, hwait]
    · rw [hat, hpos, happ, List.map_append, List.foldl_append, ← I.position, ← I.pending, hposition]
  · obtain ⟨happ, hwait⟩ := record_keep (by rw [h]; exact decide_eq_false hb) hdisc
    rw [hmotion, Option.toList_none, List.append_nil] at hwait
    obtain ⟨hpend, hpos⟩ := hrefused hb
    rw [hposition] at hpos
    refine ⟨⟨?_, ?_, ?_, ?_, ?_, ?_⟩, fun _ => ⟨hpend, hpos⟩⟩
    · rw [hat]; exact hh
    · rw [hat]; exact ht
    · rw [hat]; exact hS
    · rw [hat, hpend, hshared]; exact I.connected
    · rw [hat, hpend, hwait]; exact I.pending
    · rw [hat, hpos, happ]; exact I.position

/-- **Every step** keeps the invariant. -/
theorem step (I : CursorInv width height mem₀ steps n)
    (hdata : ∀ c bytes length, steps n = .receive c (.data bytes length) →
      c < mouseControllerCount → (cursorAt mem₀ steps n).mouse.shared.connected.testBit c = true) :
    CursorInv width height mem₀ steps (n + 1) := by
  cases h : steps n with
  | service busy => exact (I.step_service h).1
  | receive c e =>
    cases e with
    | connected => exact I.step_connected h
    | disconnected => exact (I.step_disconnected h).1
    | data bytes length => exact I.step_data h (hdata c bytes length h)

end CursorInv

end Step

/-- **The position does not depend on batches and refusals.**  Along every run
whose reports come from connected controllers: a refused service keeps what is
pending and the position, a disconnect takes exactly the pending motions of its
controller away, and the motions accepted and not cancelled are those applied
so far, once and in order, followed by those pending. -/
theorem cursor_position {width height : ℕ} {mem₀ : ℕ → ℕ} (hscreen : OnScreen width height mem₀)
    {steps : ℕ → CursorStep}
    (hdata : ∀ n c bytes length, steps n = .receive c (.data bytes length) →
      c < mouseControllerCount → (cursorAt mem₀ steps n).mouse.shared.connected.testBit c = true)
    (n : ℕ) :
    let s := cursorAt mem₀ steps n
    let s' := cursorAt mem₀ steps (n + 1)
    (∀ busy, steps n = .service busy → busy ≠ 0 →
        s'.mouse.cursor.pending = s.mouse.cursor.pending ∧
          cursorPosition s'.mem = cursorPosition s.mem) ∧
      (∀ c, steps n = .receive c .disconnected →
        s'.mouse.cursor.pending = s.mouse.cursor.pending.filter fun m => decide (m.1 ≠ c)) ∧
      (∃ applied, keptMotions mem₀ steps n = applied ++ s.mouse.cursor.pending ∧
        cursorPosition s.mem =
          (applied.map fun m => m.2).foldl (clampMotion width height) (cursorPosition mem₀)) ∧
      (s.mouse.cursor.tail = s.mouse.cursor.head →
        cursorPosition s.mem = ((keptMotions mem₀ steps n).map fun m => m.2).foldl
          (clampMotion width height) (cursorPosition mem₀)) ∧
      s.mem cursorX < width ∧ s.mem cursorY < height := by
  have I : CursorInv width height mem₀ steps n := by
    induction n with
    | zero => exact CursorInv.zero hscreen
    | succ n ih => exact ih.step (hdata n)
  have hkept : keptMotions mem₀ steps n =
      appliedMotions mem₀ steps n ++ (cursorAt mem₀ steps n).mouse.cursor.pending := by
    rw [keptMotions_eq, I.pending]
  intro s s'
  refine ⟨fun busy h hb => (I.step_service h).2 hb, fun c h => (I.step_disconnected h).2,
    ⟨_, hkept, I.position⟩, fun hempty => ?_, I.screen.x, I.screen.y⟩
  have hnil : s.mouse.cursor.pending = [] := by
    rw [MouseCursorQueue.pending, hempty]
    exact congrArg _ (ringList_self I.head)
  rw [hkept, show (cursorAt mem₀ steps n).mouse.cursor.pending = [] from hnil, List.append_nil]
  exact I.position

/-- A screen of 640 by 480 with the cursor at (10, 10). -/
def screen640 : ℕ → ℕ := fun a =>
  if a = i915Status then i915Drawn
  else if a = cursorEnabled then 1
  else if a = cursorPhysical then 0x100000
  else if a = i915Width then 640
  else if a = i915Height then 480
  else if a = cursorX ∨ a = cursorY then 10
  else 0

/-- A mouse connects, moves by (5, -128), is refused once and then drained. -/
def refusedOnce : ℕ → CursorStep
  | 0 => .receive 0 .connected
  | 1 => .receive 0 (.data (fun i => if i = 1 then 5 else 0x80) 3)
  | 2 => .service 1
  | _ => .service 0

theorem cursor_position_refusedOnce :
    OnScreen 640 480 screen640 ∧
      (cursorAt screen640 refusedOnce 4).mouse.cursor.tail =
        (cursorAt screen640 refusedOnce 4).mouse.cursor.head ∧
      cursorPosition (cursorAt screen640 refusedOnce 4).mem = (15, 0) ∧
      ((keptMotions screen640 refusedOnce 4).map fun m => m.2).foldl (clampMotion 640 480) (10, 10) =
        (15, 0) := by
  have hscreen : OnScreen 640 480 screen640 :=
    ⟨by decide, by decide, by decide, by decide, by decide⟩
  have hdata : ∀ n c bytes length, refusedOnce n = .receive c (.data bytes length) →
      c < mouseControllerCount →
      (cursorAt screen640 refusedOnce n).mouse.shared.connected.testBit c = true := by
    intro n c bytes length h _
    match n with
    | 0 => exact absurd h (by simp [refusedOnce])
    | 1 =>
      obtain ⟨rfl, -⟩ := CursorStep.receive.inj h
      decide
    | 2 => exact absurd h (by simp [refusedOnce])
    | n + 3 => exact absurd h (by simp [refusedOnce])
  have hempty : (cursorAt screen640 refusedOnce 4).mouse.cursor.tail =
      (cursorAt screen640 refusedOnce 4).mouse.cursor.head := by decide
  have hpos : cursorPosition (cursorAt screen640 refusedOnce 4).mem = (15, 0) := by decide
  have hfold := (cursor_position hscreen hdata 4).2.2.2.1 hempty
  rw [hpos] at hfold
  exact ⟨hscreen, hempty, hpos, hfold.symm⟩

end VirtualKernel
