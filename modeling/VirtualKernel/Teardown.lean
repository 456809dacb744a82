/-
`process_destroy` gives back what the process object names.

`procItems p w` are the items that the object at `p` with the words `w` holds.
The object need not be complete: a field that is 0 (or `0FFFFFFFFh`) names
nothing, and `process_destroy` passes over it.  So one lemma,
`processDestroy_spec`, serves processes that were created and processes whose
creation stopped half way.
-/
import VirtualKernel.ResourceSpaces
import Mathlib.Algebra.Order.Group.Multiset
import Mathlib.Tactic.Abel

namespace VirtualKernel

open Lib

/-- The item that a field names, unless it has the value `none`. -/
def itemIf (v none : ℕ) (x : Item) : Items := if v = none then 0 else {x}

@[simp] theorem itemIf_self (none : ℕ) (x : Item) : itemIf none none x = 0 := if_pos rfl

theorem itemIf_of_ne {v none : ℕ} (h : v ≠ none) (x : Item) : itemIf v none x = {x} := if_neg h

/-- The items of the process object at `p` with the words `w`. -/
def procItems (p : ℕ) (w : ℕ → ℕ) : Items :=
  {.block p} +
  itemIf (w procPageDir) 0 (.dir (w procPageDir)) +
  itemIf (w procSlotIndex) noIndex (.slot (w procSlotIndex)) +
  itemIf (w procLdtBase) 0 (.block (w procLdtBase)) +
  itemIf (w procLdtBitmap) 0 (.block (w procLdtBitmap)) +
  itemIf (w procLdtSelector) 0 (.gdt (w procLdtSelector / 8)) +
  itemIf (w procKstackTop) 0 (.block (sub32 (w procKstackTop) pageSize)) +
  itemIf (w procTssBase) 0 (.block (w procTssBase)) +
  itemIf (w procTssSelector) 0 (.gdt (w procTssSelector / 8)) +
  itemIf (w procTableIndex) noIndex (.entry (w procTableIndex) p)

/-- Selectors in the object have no privilege bits. -/
def SelectorsPlain (w : ℕ → ℕ) : Prop :=
  w procTssSelector % 8 = 0 ∧ w procLdtSelector % 8 = 0

theorem itemIf_ne_task {v none sel : ℕ} {x : Item} (hx : x ≠ .task sel) :
    Item.task sel ∉ itemIf v none x := by
  unfold itemIf
  split_ifs
  · exact Multiset.notMem_zero _
  · rw [Multiset.mem_singleton]
    exact hx.symm

/-- No object holds a queued task: that is the scheduler's account. -/
theorem task_not_mem_procItems (p : ℕ) (w : ℕ → ℕ) (sel : ℕ) : Item.task sel ∉ procItems p w := by
  unfold procItems
  simp only [Multiset.mem_add, Multiset.mem_singleton, not_or]
  refine ⟨⟨⟨⟨⟨⟨⟨⟨⟨?_, ?_⟩, ?_⟩, ?_⟩, ?_⟩, ?_⟩, ?_⟩, ?_⟩, ?_⟩, ?_⟩
  · exact Item.noConfusion
  all_goals exact itemIf_ne_task (by simp)

section Teardown

variable {k k' : Kernel} {O : ℕ → Prop} {T : Items} {p : ℕ}

theorem block_not_mem {x : Items} (H : Holds k O (T + {.block p} + x)) : Item.block p ∉ T :=
  (nodup_add_singleton.mp (Multiset.nodup_add.mp H.nodup).1).2

/-- One field: the resource it names is released, and the field is cleared.
`release` may also write the word at `off'`. -/
theorem releaseField_spec {off z none : ℕ} {release : ℕ → KM Unit} {x : Item}
    (H : Holds k O (T + {.block p} + itemIf (k.mem p off) none x))
    (hrel : Holds k O (T + {.block p} + {x}) → Runs (release (k.mem p off)) k fun _ k' =>
      Frame T k k' ∧ Holds k' O (T + {.block p}) ∧ ∀ o, o ≠ z → k'.mem p o = k.mem p o) :
    Runs (releaseField p off none release) k fun _ k' => Frame T k k' ∧
      Holds k' O (T + {.block p}) ∧ ∀ o, o ≠ off → o ≠ z → k'.mem p o = k.mem p o := by
  have hp := block_not_mem H
  refine runs_modifyGet_bind (runs_ite (fun hv => ?_) fun hv => ?_)
  · have hv : k.mem p off = none := hv
    rw [hv, itemIf_self, add_zero] at H
    exact runs_pure ⟨.refl _ _, H, fun _ _ _ => rfl⟩
  · have hv : k.mem p off ≠ none := hv
    rw [itemIf_of_ne hv] at H
    refine runs_bind (hrel H) ?_
    rintro - k₁ ⟨F₁, H₁, hw₁⟩
    refine runs_modify ⟨F₁.trans (Frame.setMem hp _), H₁.setMem _ _, fun o ho ho' => ?_⟩
    rw [← hw₁ o ho']
    simp [Kernel.setMem, Function.update_of_ne ho]

/-- A release that does not touch the object. -/
theorem release_of_frame {m : KM Unit} {off' : ℕ}
    (h : Runs m k fun _ k' => Frame (T + {.block p}) k k' ∧ Holds k' O (T + {.block p})) :
    Runs m k fun _ k' => Frame T k k' ∧ Holds k' O (T + {.block p}) ∧
      ∀ o, o ≠ off' → k'.mem p o = k.mem p o := by
  refine h.mono ?_
  rintro - k' ⟨F, H⟩
  exact ⟨F.left, H, fun o _ => by rw [F.mem p (mem_add_singleton.mpr (Or.inr rfl))]⟩

theorem graphicsReleaseProcess_spec (H : Holds k O T) :
    Runs (graphicsReleaseProcess p) k fun _ k' => Frame T k k' ∧ Holds k' O T ∧ k'.mem = k.mem := by
  refine runs_modify ?_
  dsimp only
  split_ifs
  · exact ⟨.refl _ _, H, rfl⟩
  · exact ⟨⟨.refl _ _, fun _ _ => rfl, fun _ _ => rfl, fun _ _ _ => rfl, rfl, rfl, rfl, rfl, rfl⟩,
      H.congr_state rfl rfl rfl rfl rfl rfl rfl rfl rfl, rfl⟩

/-- One field in a row of fields.  The words outside `S` are those of `w`, and
the items of `B` stay as they were in `k₀`. -/
theorem releaseField_step {B : Items} {k₀ : Kernel} {w : ℕ → ℕ} {S : List ℕ} {off z none : ℕ}
    {release : ℕ → KM Unit} {x : Item} {f : Unit → KM Unit} {Q : Unit → Kernel → Prop}
    (hB : ∀ y ∈ B, y ∈ T) (F : Frame B k₀ k)
    (H : Holds k O (T + itemIf (w off) none x + {.block p})) (hw : ∀ o ∉ S, k.mem p o = w o)
    (hoff : off ∉ S)
    (hrel : Holds k O (T + {.block p} + {x}) → Runs (release (w off)) k fun _ k' =>
      Frame T k k' ∧ Holds k' O (T + {.block p}) ∧ ∀ o, o ≠ z → k'.mem p o = k.mem p o)
    (hnext : ∀ k', Frame B k₀ k' → Holds k' O (T + {.block p}) →
      (∀ o ∉ off :: z :: S, k'.mem p o = w o) → Runs (f ()) k' Q) :
    Runs (releaseField p off none release >>= f) k Q := by
  have hwoff := hw off hoff
  refine runs_bind (releaseField_spec (O := O) (T := T) (z := z) (x := x) ?_ ?_) ?_
  · rw [hwoff, add_right_comm]
    exact H
  · rw [hwoff]
    exact hrel
  · rintro ⟨⟩ k' ⟨F', H', hw'⟩
    refine hnext k' (F.trans (F'.mono hB)) H' fun o ho => ?_
    simp only [List.mem_cons, not_or] at ho
    rw [hw' o ho.1 ho.2.1, hw o ho.2.2]

/-- **`process_destroy` after the process has left the scheduler.** -/
theorem processTeardown_spec (H : Holds k O (T + procItems p (k.mem p)))
    (hsel : SelectorsPlain (k.mem p)) :
    Runs (processTeardown p) k fun _ k' => Frame T k k' ∧ Holds k' O T := by
  set w := k.mem p with hw
  obtain ⟨htss, hldt⟩ := hsel
  have hitems : T + procItems p w = T + itemIf (w procPageDir) 0 (.dir (w procPageDir)) +
      itemIf (w procSlotIndex) noIndex (.slot (w procSlotIndex)) +
      itemIf (w procLdtBase) 0 (.block (w procLdtBase)) +
      itemIf (w procLdtBitmap) 0 (.block (w procLdtBitmap)) +
      itemIf (w procLdtSelector) 0 (.gdt (w procLdtSelector / 8)) +
      itemIf (w procKstackTop) 0 (.block (sub32 (w procKstackTop) pageSize)) +
      itemIf (w procTssBase) 0 (.block (w procTssBase)) +
      itemIf (w procTssSelector) 0 (.gdt (w procTssSelector / 8)) + {.block p} +
      itemIf (w procTableIndex) noIndex (.entry (w procTableIndex) p) := by
    simp only [procItems]
    abel
  rw [hitems] at H
  -- the process table first
  have hentry : ∀ T₀, Holds k O (T₀ + {.block p} +
      itemIf (w procTableIndex) noIndex (.entry (w procTableIndex) p)) →
      Runs (processUnregister p) k fun _ k' => Frame T₀ k k' ∧
        Holds k' O (T₀ + {.block p}) ∧ ∀ o ∉ [procTableIndex], k'.mem p o = w o := by
    intro T₀ H
    by_cases hidx : w procTableIndex = noIndex
    · rw [hidx, itemIf_self, add_zero] at H
      refine (processUnregister_none hidx).mono ?_
      rintro - k' rfl
      exact ⟨.refl _ _, H, fun _ _ => rfl⟩
    · rw [itemIf_of_ne hidx] at H
      refine (processUnregister_spec H rfl).mono ?_
      rintro - k' ⟨F, H', hm⟩
      refine ⟨F, H', fun o ho => ?_⟩
      rw [hm, Function.update_self, Function.update_of_ne (by simpa using ho)]
  refine runs_bind (hentry _ H) ?_
  rintro - k₀ ⟨F₀, H₀, hw₀⟩
  refine runs_bind (graphicsReleaseProcess_spec H₀) ?_
  rintro - k₁ ⟨G₁, H₁, hm₁⟩
  have hB : ∀ {X Y : Items}, (∀ y ∈ T, y ∈ X) → ∀ y ∈ T, y ∈ X + Y := fun h y hy =>
    Multiset.mem_add.mpr (Or.inl (h y hy))
  have hB₁ : ∀ y ∈ T, y ∈ T := fun _ => id
  have F₁ : Frame T k k₁ := (F₀.mono (by repeat' (first | exact hB₁ | apply hB))).trans
    (G₁.mono (by repeat' (first | exact hB₁ | apply hB)))
  have hw₁ : ∀ o ∉ [procTableIndex], k₁.mem p o = w o := by
    rw [hm₁]
    exact hw₀
  have hmul : ∀ {sel : ℕ}, sel % 8 = 0 → sel / 8 * 8 = sel := fun h =>
    Nat.div_mul_cancel (Nat.dvd_of_mod_eq_zero h)
  -- then the fields, one by one
  refine releaseField_step (z := procTssSelector) (by repeat' (first | exact hB₁ | apply hB)) F₁
    H₁ hw₁ (by decide) (fun h => release_of_frame ?_) fun k₂ F₂ H₂ hw₂ => ?_
  · rw [← hmul htss]
    exact (gdtFreeSelector_spec h).mono fun _ _ h => ⟨h.1, h.2.1⟩
  refine releaseField_step (z := procTssBase) (by repeat' (first | exact hB₁ | apply hB)) F₂
    H₂ hw₂ (by decide) (fun h => release_of_frame (kHeapFree_spec h)) fun k₃ F₃ H₃ hw₃ => ?_
  refine releaseField_step (z := procKstackTop) (by repeat' (first | exact hB₁ | apply hB)) F₃
    H₃ hw₃ (by decide) (fun h => release_of_frame (kHeapFree_spec h)) fun k₄ F₄ H₄ hw₄ => ?_
  refine releaseField_step (z := procLdtSelector) (by repeat' (first | exact hB₁ | apply hB)) F₄
    H₄ hw₄ (by decide) (fun h => release_of_frame ?_) fun k₅ F₅ H₅ hw₅ => ?_
  · rw [← hmul hldt]
    exact (gdtFreeSelector_spec h).mono fun _ _ h => ⟨h.1, h.2.1⟩
  refine releaseField_step (z := procLdtBitmap) (by repeat' (first | exact hB₁ | apply hB)) F₅
    H₅ hw₅ (by decide) (fun h => release_of_frame (kHeapFree_spec h)) fun k₆ F₆ H₆ hw₆ => ?_
  refine releaseField_step (z := procLdtBase) (by repeat' (first | exact hB₁ | apply hB)) F₆
    H₆ hw₆ (by decide) (fun h => release_of_frame (kHeapFree_spec h)) fun k₇ F₇ H₇ hw₇ => ?_
  refine releaseField_step (z := procSlotBase) (by repeat' (first | exact hB₁ | apply hB)) F₇
    H₇ hw₇ (by decide) (fun h => ?_) fun k₈ F₈ H₈ hw₈ => ?_
  · -- the slot base is cleared as well
    have hp := block_not_mem h
    refine runs_bind (processSlotFree_spec h) ?_
    rintro - k' ⟨F, H', hm⟩
    refine runs_modify ⟨F.left.trans (Frame.setMem hp _), H'.setMem _ _, fun o ho => ?_⟩
    simp [Kernel.setMem, Function.update_of_ne ho, hm]
  refine releaseField_step (z := procPageDir) hB₁ F₈ H₈ hw₈ (by decide)
    (fun h => release_of_frame ?_) fun k₉ F₉ H₉ _ => ?_
  · exact (kDestroyPageDirectory_spec h).mono fun _ _ h => ⟨h.1, h.2.1⟩
  exact (kHeapFree_spec H₉).mono fun _ _ h => ⟨F₉.trans h.1, h.2⟩

/-- **`process_destroy`** of a process that is not the running task: it leaves
the scheduler, if it was queued, and everything its object names is given
back. -/
theorem processDestroy_spec {Q : Items} (H : Holds k O (T + procItems p (k.mem p) + Q))
    (hsel : SelectorsPlain (k.mem p)) (hlt : k.mem p procTssSelector < 2 ^ 16)
    (hQ : Q = {.task (k.mem p procTssSelector)} ∧ k.tr ≠ k.mem p procTssSelector ∨
      Q = 0 ∧ Item.task (k.mem p procTssSelector) ∉ T) :
    Runs (processDestroy p) k fun _ k' => Frame T k k' ∧ Holds k' O T := by
  have hblock : Item.block p ∈ T + procItems p (k.mem p) := by
    simp [procItems]
  have hp : p ≠ 0 := H.block_ne_zero (Multiset.mem_add.mpr (Or.inl hblock))
  rw [processDestroy, if_neg hp]
  rcases hQ with ⟨rfl, hrun⟩ | ⟨rfl, hnot⟩
  · refine runs_bind (kSchedulerRemoveProcess_spec H hp rfl hrun) ?_
    rintro eax k₁ ⟨rfl, H₁, F₁, hm, -, -⟩
    rw [if_neg one_ne_zero]
    rw [← hm] at H₁ hsel
    exact (processTeardown_spec H₁ hsel).mono fun _ _ h => ⟨F₁.left.trans h.1, h.2⟩
  · rw [add_zero] at H
    have hnot' : Item.task (k.mem p procTssSelector) ∉ T + procItems p (k.mem p) := by
      rw [Multiset.mem_add, not_or]
      exact ⟨hnot, task_not_mem_procItems _ _ _⟩
    refine runs_bind (kSchedulerRemoveProcess_none H hp rfl hlt hnot') ?_
    rintro eax k₁ ⟨rfl, rfl⟩
    rw [if_neg one_ne_zero]
    exact processTeardown_spec H hsel

end Teardown

end VirtualKernel
