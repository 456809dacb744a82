/-
Operations on the account of physical pages.

`PageInv` speaks about the page functions `own` and `heap` and not about
memory, so each change of a mapping is one change of one owner: a page is
allocated (`PageInv.alloc`), put into a mapping (`PageInv.place`,
`PageInv.placeHeap`), released (`PageInv.release`, `PageInv.freePte`), or left
behind by a mapping that is overwritten (`PageInv.drop`, `PageInv.dropHeap`).
-/
import VirtualKernel.PagingInv

namespace VirtualKernel

open Lib

namespace PageInv

variable {own own' : ℕ → ℕ → ℕ → Option ℕ} {heap heap' : ℕ → Option ℕ} {used : ℕ → Bool} {next : ℕ}
  {O D D' : ℕ → Prop} {pend : Option ℕ}

/-- The account only depends on the entries of live directories. -/
theorem congr (H : PageInv own heap used next O D pend) (hD : ∀ d, D' d ↔ D d)
    (ho : ∀ d i j, D d → own' d i j = own d i j) (hh : ∀ j, heap' j = heap j) :
    PageInv own' heap' used next O D' pend := by
  have hat : ∀ x n, PageAt own' heap' O D' pend x n ↔ PageAt own heap O D pend x n := by
    intro x n
    cases x with
    | other => exact Iff.rfl
    | pending => exact Iff.rfl
    | pte d i j =>
      refine (and_congr_left' (hD d)).trans (and_congr_right fun hd => ?_)
      rw [ho d i j hd]
    | heap j =>
      simp only [PageAt, hh]
  exact
    { ledger := H.ledger.congr hat fun _ => Iff.rfl
      ok := fun x n hx => H.ok x n ((hat x n).mp hx)
      reserved := H.reserved
      hint := H.hint }

/-- A directory without owned entries may come or go. -/
theorem congr_dirs (H : PageInv own heap used next O D pend)
    (hD : ∀ d i j n, own d i j = some n → (D' d ↔ D d)) : PageInv own heap used next O D' pend := by
  have hat : ∀ x n, PageAt own heap O D' pend x n ↔ PageAt own heap O D pend x n := by
    intro x n
    cases x with
    | other => exact Iff.rfl
    | pending => exact Iff.rfl
    | pte d i j => exact and_congr_left fun h => hD d i j n h
    | heap j => exact Iff.rfl
  exact
    { ledger := H.ledger.congr hat fun _ => Iff.rfl
      ok := fun x n hx => H.ok x n ((hat x n).mp hx)
      reserved := H.reserved
      hint := H.hint }

theorem used_of_not_allocatable (H : PageInv own heap used next O D pend) {n : ℕ}
    (hn : ¬Allocatable n) : used n = true :=
  (H.ledger.exact n).mpr ⟨.other, H.reserved n hn⟩

/-- A free page becomes pending. -/
theorem alloc (H : PageInv own heap used next O D none) {n : ℕ} (hn : used n = false)
    (hnext : ∀ m, mainRamStart / pageSize ≤ m → m < n → used m = true) :
    PageInv own heap (Function.update used n true) (n + 1) O D (some n) where
  ledger := by
    refine H.ledger.alloc (c := .pending) (n := n) (by simp [hn]) (fun x m => ?_) fun m => ?_
    · cases x <;> simp [PageAt, eq_comm]
    · by_cases hm : m = n
      · simp [hm]
      · simp [hm]
  ok := by
    intro x m hx hne
    cases x with
    | other => exact absurd rfl hne
    | pending =>
      have hm : n = m := by simpa [PageAt] using hx
      by_contra hna
      rw [H.used_of_not_allocatable (hm ▸ hna)] at hn
      exact Bool.noConfusion hn
    | pte d i j => exact H.ok (.pte d i j) m hx hne
    | heap j => exact H.ok (.heap j) m hx hne
  reserved := H.reserved
  hint := by
    intro m h1 h2
    by_cases hm : m = n
    · simp [hm]
    · rw [Function.update_of_ne hm]
      exact hnext m h1 (by omega)

/-- The hint after a page has been freed. -/
theorem hint_free (hint : ∀ n, mainRamStart / pageSize ≤ n → n < next → used n = true) (n m : ℕ)
    (h1 : mainRamStart / pageSize ≤ m) (h2 : m < if n < next then n else next) :
    Function.update used n false m = true := by
  have hm : m ≠ n ∧ m < next := by split_ifs at h2 <;> omega
  rw [Function.update_of_ne hm.1]
  exact hint m h1 hm.2

/-- The pending page is freed. -/
theorem release {n : ℕ} (H : PageInv own heap used next O D (some n)) :
    PageInv own heap (Function.update used n false) (if n < next then n else next) O D none where
  ledger := by
    refine H.ledger.free (c := .pending) (n := n) rfl (fun x m => ?_) fun m => ?_
    · cases x <;> simp [PageAt]
      exact Eq.symm
    · by_cases hm : m = n
      · simp [hm]
      · simp [hm]
  ok := by
    intro x m hx hne
    cases x with
    | other => exact absurd rfl hne
    | pending => simp [PageAt] at hx
    | pte d i j => exact H.ok (.pte d i j) m hx hne
    | heap j => exact H.ok (.heap j) m hx hne
  reserved := H.reserved
  hint := hint_free H.hint n

/-- The pending page is kept by whoever asked for it. -/
theorem keep {n : ℕ} (H : PageInv own heap used next O D (some n)) :
    PageInv own heap used next (fun m => O m ∨ m = n) D none where
  ledger := by
    refine H.ledger.transfer (c := .pending) (d := .other) (n := n) rfl (fun x m => ?_) fun m => ?_
    · cases x <;> simp [PageAt]
      exact Eq.symm
    · exact Iff.rfl
  ok := by
    intro x m hx hne
    cases x with
    | other => exact absurd rfl hne
    | pending => simp [PageAt] at hx
    | pte d i j => exact H.ok (.pte d i j) m hx hne
    | heap j => exact H.ok (.heap j) m hx hne
  reserved := fun m hm => Or.inl (H.reserved m hm)
  hint := H.hint

/-- A page that was kept is on its way again. -/
theorem takeBack {n : ℕ} (H : PageInv own heap used next O D none) (hn : O n)
    (ha : Allocatable n) : PageInv own heap used next (fun m => O m ∧ m ≠ n) D (some n) where
  ledger := by
    refine H.ledger.transfer (c := .other) (d := .pending) (n := n) hn (fun x m => ?_) fun m => ?_
    · cases x <;> simp [PageAt]
      exact eq_comm
    · exact Iff.rfl
  ok := by
    intro x m hx hne
    cases x with
    | other => exact absurd rfl hne
    | pending => exact Option.some.inj hx ▸ ha
    | pte d i j => exact H.ok (.pte d i j) m hx hne
    | heap j => exact H.ok (.heap j) m hx hne
  reserved := by
    intro m hm
    refine ⟨H.reserved m hm, ?_⟩
    rintro rfl
    exact hm ha
  hint := H.hint

/-- The functions `own` and `heap` with one entry cleared or set. -/
def setOwn (own : ℕ → ℕ → ℕ → Option ℕ) (d i j : ℕ) (v : Option ℕ) (d' i' j' : ℕ) : Option ℕ :=
  if d' = d ∧ i' = i ∧ j' = j then v else own d' i' j'

/-- An entry is overwritten or unmapped: its page stays used, for no reason
that the account knows. -/
theorem drop (H : PageInv own heap used next O D pend) {d : ℕ} (hd : D d) (i j : ℕ) :
    PageInv (setOwn own d i j none) heap used next (fun n => O n ∨ own d i j = some n) D pend := by
  have hdrop : ∀ d' i' j' n, setOwn own d i j none d' i' j' = some n ↔
      own d' i' j' = some n ∧ ¬(d' = d ∧ i' = i ∧ j' = j) := by
    intro d' i' j' n
    by_cases h : d' = d ∧ i' = i ∧ j' = j <;> simp [setOwn, h]
  cases ho : own d i j with
  | none =>
    refine { ledger := H.ledger.congr (fun x n => ?_) fun _ => Iff.rfl, ok := ?_,
             reserved := fun n hn => Or.inl (H.reserved n hn), hint := H.hint }
    · cases x with
      | other => simp [PageAt]
      | pending => exact Iff.rfl
      | pte d' i' j' =>
        refine and_congr_right fun _ => (hdrop d' i' j' n).trans (and_iff_left_of_imp ?_)
        rintro h ⟨rfl, rfl, rfl⟩
        rw [ho] at h
        cases h
      | heap j' => exact Iff.rfl
    · intro x n hx hne
      cases x with
      | other => exact absurd rfl hne
      | pending => exact H.ok .pending n hx hne
      | pte d' i' j' => exact H.ok (.pte d' i' j') n ⟨hx.1, ((hdrop _ _ _ _).mp hx.2).1⟩ (by simp)
      | heap j' => exact H.ok (.heap j') n hx hne
  | some m =>
    refine { ledger := H.ledger.transfer (c := .pte d i j) (d := .other) (n := m) ⟨hd, ho⟩
               (fun x n => ?_) fun _ => Iff.rfl, ok := ?_,
             reserved := fun n hn => Or.inl (H.reserved n hn), hint := H.hint }
    · cases x with
      | other => simp [PageAt, eq_comm]
      | pending => simp [PageAt]
      | pte d' i' j' =>
        simp only [PageAt, hdrop, PageOwner.pte.injEq, reduceCtorEq, false_and, or_false]
        constructor
        · rintro ⟨h1, h2, h3⟩
          exact ⟨⟨h1, h2⟩, fun h => h3 h.1⟩
        · rintro ⟨⟨h1, h2⟩, h3⟩
          refine ⟨h1, h2, fun h => h3 ⟨h, ?_⟩⟩
          obtain ⟨rfl, rfl, rfl⟩ := h
          rw [ho] at h2
          exact (Option.some.inj h2).symm
      | heap j' => simp [PageAt]
    · intro x n hx hne
      cases x with
      | other => exact absurd rfl hne
      | pending => exact H.ok .pending n hx hne
      | pte d' i' j' => exact H.ok (.pte d' i' j') n ⟨hx.1, ((hdrop _ _ _ _).mp hx.2).1⟩ (by simp)
      | heap j' => exact H.ok (.heap j') n hx hne

/-- The pending page is mapped at an entry that owned nothing. -/
theorem place {n : ℕ} (H : PageInv own heap used next O D (some n)) {d : ℕ} (hd : D d) {i j : ℕ}
    (ho : own d i j = none) :
    PageInv (setOwn own d i j (some n)) heap used next O D none := by
  have hset : ∀ d' i' j' m, setOwn own d i j (some n) d' i' j' = some m ↔
      own d' i' j' = some m ∨ (d' = d ∧ i' = i ∧ j' = j) ∧ m = n := by
    intro d' i' j' m
    by_cases h : d' = d ∧ i' = i ∧ j' = j
    · obtain ⟨rfl, rfl, rfl⟩ := h
      simp [setOwn, ho, eq_comm]
    · simp [setOwn, h]
  refine { ledger := H.ledger.transfer (c := .pending) (d := .pte d i j) (n := n) rfl
             (fun x m => ?_) fun _ => Iff.rfl, ok := ?_, reserved := H.reserved, hint := H.hint }
  · cases x with
    | other => simp [PageAt]
    | pending => simp [PageAt, eq_comm]
    | pte d' i' j' =>
      simp only [PageAt, hset, reduceCtorEq, false_and, not_false_eq_true, and_true,
        PageOwner.pte.injEq]
      constructor
      · rintro ⟨h1, h2 | h2⟩
        · exact Or.inl ⟨h1, h2⟩
        · exact Or.inr h2
      · rintro (⟨h1, h2⟩ | ⟨h1, h2⟩)
        · exact ⟨h1, Or.inl h2⟩
        · exact ⟨h1.1 ▸ hd, Or.inr ⟨h1, h2⟩⟩
    | heap j' => simp [PageAt]
  · intro x m hx hne
    cases x with
    | other => exact absurd rfl hne
    | pending => simp [PageAt] at hx
    | pte d' i' j' =>
      rcases (hset _ _ _ _).mp hx.2 with h | ⟨-, rfl⟩
      · exact H.ok (.pte d' i' j') m ⟨hx.1, h⟩ (by simp)
      · exact H.ok .pending m rfl (by simp)
    | heap j' => exact H.ok (.heap j') m hx hne

/-- The pending page is mapped into the kernel heap. -/
theorem placeHeap {n : ℕ} (H : PageInv own heap used next O D (some n)) {j : ℕ}
    (hj : heap j = none) : PageInv own (Function.update heap j (some n)) used next O D none := by
  have hset : ∀ j' m, Function.update heap j (some n) j' = some m ↔
      heap j' = some m ∨ j' = j ∧ m = n := by
    intro j' m
    by_cases h : j' = j
    · subst h
      simp [hj, eq_comm]
    · simp [h]
  refine { ledger := H.ledger.transfer (c := .pending) (d := .heap j) (n := n) rfl
             (fun x m => ?_) fun _ => Iff.rfl, ok := ?_, reserved := H.reserved, hint := H.hint }
  · cases x with
    | other => simp [PageAt]
    | pending => simp [PageAt, eq_comm]
    | pte d' i' j' => simp [PageAt]
    | heap j' => simp [PageAt, hset]
  · intro x m hx hne
    cases x with
    | other => exact absurd rfl hne
    | pending => simp [PageAt] at hx
    | pte d' i' j' => exact H.ok (.pte d' i' j') m hx hne
    | heap j' =>
      rcases (hset _ _).mp hx with h | ⟨-, rfl⟩
      · exact H.ok (.heap j') m h (by simp)
      · exact H.ok .pending m rfl (by simp)

/-- The page of an entry is freed with the entry. -/
theorem freePte (H : PageInv own heap used next O D pend) {d i j n : ℕ} (hd : D d)
    (ho : own d i j = some n) :
    PageInv (setOwn own d i j none) heap (Function.update used n false)
      (if n < next then n else next) O D pend := by
  have hdrop : ∀ d' i' j' m, setOwn own d i j none d' i' j' = some m ↔
      own d' i' j' = some m ∧ ¬(d' = d ∧ i' = i ∧ j' = j) := by
    intro d' i' j' m
    by_cases h : d' = d ∧ i' = i ∧ j' = j <;> simp [setOwn, h]
  refine { ledger := H.ledger.free (c := .pte d i j) (n := n) ⟨hd, ho⟩ (fun x m => ?_) fun m => ?_,
           ok := ?_, reserved := H.reserved, hint := hint_free H.hint n }
  · cases x with
    | other => simp [PageAt]
    | pending => simp [PageAt]
    | pte d' i' j' =>
      simp only [PageAt, hdrop, PageOwner.pte.injEq]
      constructor
      · rintro ⟨h1, h2, h3⟩
        exact ⟨⟨h1, h2⟩, fun h => h3 h.1⟩
      · rintro ⟨⟨h1, h2⟩, h3⟩
        refine ⟨h1, h2, fun h => h3 ⟨h, ?_⟩⟩
        obtain ⟨rfl, rfl, rfl⟩ := h
        exact Option.some.inj (h2.symm.trans ho)
    | heap j' => simp [PageAt]
  · by_cases hm : m = n
    · simp [hm]
    · simp [hm]
  · intro x m hx hne
    cases x with
    | other => exact absurd rfl hne
    | pending => exact H.ok .pending m hx hne
    | pte d' i' j' => exact H.ok (.pte d' i' j') m ⟨hx.1, ((hdrop _ _ _ _).mp hx.2).1⟩ (by simp)
    | heap j' => exact H.ok (.heap j') m hx hne

/-- A heap page is unmapped: it stays used. -/
theorem dropHeap (H : PageInv own heap used next O D pend) (j : ℕ) :
    PageInv own (Function.update heap j none) used next (fun n => O n ∨ heap j = some n) D
      pend := by
  have hdrop : ∀ j' m, Function.update heap j none j' = some m ↔ heap j' = some m ∧ j' ≠ j := by
    intro j' m
    by_cases h : j' = j <;> simp [h]
  have hok : ∀ x n, PageAt own (Function.update heap j none)
      (fun n => O n ∨ heap j = some n) D pend x n → x ≠ .other → Allocatable n := by
    intro x n hx hne
    cases x with
    | other => exact absurd rfl hne
    | pending => exact H.ok .pending n hx hne
    | pte d i j' => exact H.ok (.pte d i j') n hx hne
    | heap j' => exact H.ok (.heap j') n ((hdrop _ _).mp hx).1 (by simp)
  cases hj : heap j with
  | none =>
    refine { ledger := H.ledger.congr (fun x n => ?_) fun _ => Iff.rfl, ok := hj ▸ hok,
             reserved := fun n hn => Or.inl (H.reserved n hn), hint := H.hint }
    cases x with
    | other => simp [PageAt]
    | pending => exact Iff.rfl
    | pte d i j' => exact Iff.rfl
    | heap j' =>
      refine (hdrop j' n).trans (and_iff_left_of_imp ?_)
      rintro h rfl
      rw [hj] at h
      cases h
  | some m =>
    refine { ledger := H.ledger.transfer (c := .heap j) (d := .other) (n := m) hj
               (fun x n => ?_) fun _ => Iff.rfl, ok := hj ▸ hok,
             reserved := fun n hn => Or.inl (H.reserved n hn), hint := H.hint }
    cases x with
    | other => simp [PageAt, eq_comm]
    | pending => simp [PageAt]
    | pte d i j' => simp [PageAt]
    | heap j' =>
      simp only [PageAt, hdrop, PageOwner.heap.injEq, reduceCtorEq, false_and, or_false]
      constructor
      · rintro ⟨h1, h2⟩
        exact ⟨h1, fun h => h2 h.1⟩
      · rintro ⟨h1, h2⟩
        refine ⟨h1, fun h => h2 ⟨h, ?_⟩⟩
        subst h
        exact Option.some.inj (h1.symm.trans hj)

end PageInv

end VirtualKernel
