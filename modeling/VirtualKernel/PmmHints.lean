/-
The search hint of the page allocator.

`pmm_alloc_page` starts its scan at `pmm_next_page`.  It finds the lowest free page
exactly when no free page lies below this hint (`allocLowest_iff`).
`pmm_alloc_page`, `pmm_free_page` and `pmm_mark_range_used` keep the hint good, but
`pmm_mark_range_free` leaves it alone: freeing a range below the hint hides the
pages of the range (`markRangeFree_iff`).
-/
import VirtualKernel.Paging

namespace VirtualKernel

open Lib

/-- The pages of `[MAIN_RAM_START, MAIN_RAM_END)`, by number. -/
def MainPage (n : ℕ) : Prop := mainRamStart / pageSize ≤ n ∧ n < mainRamEnd / pageSize

/-- No free page lies below the hint. -/
def HintOk (r : Ram) : Prop := ∀ n, MainPage n → n < r.pmmNextPage → r.used n = true

/-- `pmm_alloc_page` takes the lowest free page, and returns 0 only if there is none. -/
def AllocLowest (r : Ram) : Prop :=
  ((pmmAllocPage r).1 = 0 → (∀ n, MainPage n → r.used n = true) ∧ (pmmAllocPage r).2.used = r.used) ∧
    ((pmmAllocPage r).1 ≠ 0 → ∃ n, MainPage n ∧ (pmmAllocPage r).1 = n * pageSize ∧
      r.used n = false ∧ (∀ m, MainPage m → m < n → r.used m = true) ∧
      (pmmAllocPage r).2.used = Function.update r.used n true)

section Alloc

variable {r : Ram}

/-- The scan from the hint on. -/
theorem pmmAllocPage_scan (hhint : mainRamStart / pageSize ≤ r.pmmNextPage) :
    ((pmmAllocPage r) = (0, r) ∧ ∀ n, r.pmmNextPage ≤ n → MainPage n → r.used n = true) ∨
      ∃ n, MainPage n ∧ r.pmmNextPage ≤ n ∧ r.used n = false ∧
        (∀ m, r.pmmNextPage ≤ m → m < n → r.used m = true) ∧
        pmmAllocPage r = (n * pageSize,
          { r with used := Function.update r.used n true, pmmNextPage := n + 1 }) := by
  rw [pmmAllocPage]
  split
  · rename_i hnone
    refine Or.inl ⟨rfl, fun n hn hmain => ?_⟩
    have hskip := List.find?_eq_none.mp hnone n (by
      rw [List.mem_range'_1]
      have hlt := hmain.2
      omega)
    simpa using hskip
  · rename_i n hfind
    obtain ⟨hfree, hmem, hbefore⟩ := List.find?_range'_eq_some.mp hfind
    rw [List.mem_range'_1] at hmem
    refine Or.inr ⟨n, ⟨hhint.trans hmem.1, by omega⟩, hmem.1, by simpa using hfree, ?_, rfl⟩
    intro m hm hlt
    have hskip := hbefore m hm hlt
    simpa using hskip

/-- **The lowest free page** is found exactly when no free page lies below the hint. -/
theorem allocLowest_iff (hhint : mainRamStart / pageSize ≤ r.pmmNextPage) :
    AllocLowest r ↔ HintOk r := by
  rcases pmmAllocPage_scan hhint with ⟨hrun, hall⟩ | ⟨n, hmain, hn, hfree, hbefore, hrun⟩
  · rw [AllocLowest, hrun]
    constructor
    · intro h m hm _
      exact (h.1 rfl).1 m hm
    · intro h
      refine ⟨fun _ => ⟨fun m hm => ?_, rfl⟩, fun hne => absurd rfl hne⟩
      by_cases hlt : m < r.pmmNextPage
      · exact h m hm hlt
      · exact hall m (Nat.not_lt.mp hlt) hm
  · have hne : n * pageSize ≠ 0 := by
      have hlow := hmain.1
      rw [show mainRamStart / pageSize = 256 from rfl] at hlow
      show n * 4096 ≠ 0
      omega
    rw [AllocLowest, hrun]
    constructor
    · intro h m hm hlt
      obtain ⟨n', -, hpage, -, hlow, -⟩ := h.2 hne
      have heq : n = n' := Nat.eq_of_mul_eq_mul_right (by decide) hpage
      exact hlow m hm (by omega)
    · intro h
      refine ⟨fun h0 => absurd h0 hne, fun _ => ⟨n, hmain, rfl, hfree, fun m hm hlt => ?_, rfl⟩⟩
      by_cases hbelow : m < r.pmmNextPage
      · exact h m hm hbelow
      · exact hbefore m (Nat.not_lt.mp hbelow) hlt

/-- A free page at the hint is taken. -/
theorem pmmAllocPage_free (hmain : MainPage r.pmmNextPage)
    (hfree : r.used r.pmmNextPage = false) :
    pmmAllocPage r = (r.pmmNextPage * pageSize,
      { r with used := Function.update r.used r.pmmNextPage true
               pmmNextPage := r.pmmNextPage + 1 }) := by
  rcases pmmAllocPage_scan hmain.1 with ⟨-, hall⟩ | ⟨n, -, hn, -, hbefore, hrun⟩
  · have hused := hall _ (Nat.le_refl _) hmain
    rw [hfree] at hused
    exact absurd hused Bool.false_ne_true
  · have heq : r.pmmNextPage = n := by
      by_contra hne
      have hused := hbefore _ (Nat.le_refl _) (Nat.lt_of_le_of_ne hn hne)
      rw [hfree] at hused
      exact Bool.false_ne_true hused
    rw [← heq] at hrun
    exact hrun

/-! What the operations do to the hint. -/

theorem pmmAllocPage_hint (hhint : mainRamStart / pageSize ≤ r.pmmNextPage) (h : HintOk r) :
    HintOk (pmmAllocPage r).2 ∧ mainRamStart / pageSize ≤ (pmmAllocPage r).2.pmmNextPage := by
  rcases pmmAllocPage_scan hhint with ⟨hrun, -⟩ | ⟨n, hmain, hn, -, hbefore, hrun⟩
  · rw [hrun]
    exact ⟨h, hhint⟩
  · rw [hrun]
    refine ⟨fun m hm hlt => ?_, hmain.1.trans (Nat.le_succ n)⟩
    by_cases hmn : m = n
    · rw [hmn]
      exact Function.update_self _ _ _
    · have hold : r.used m = true := by
        by_cases hbelow : m < r.pmmNextPage
        · exact h m hm hbelow
        · exact hbefore m (Nat.not_lt.mp hbelow) (by
            have hle : m < n + 1 := hlt
            omega)
      show Function.update r.used n true m = true
      rw [Function.update_of_ne hmn]
      exact hold

theorem pmmFreePage_hint (h : HintOk r) {phys : ℕ} (hphys : phys = 0 ∨ MainPage (phys / pageSize))
    (hhint : mainRamStart / pageSize ≤ r.pmmNextPage) :
    HintOk (pmmFreePage phys r) ∧ mainRamStart / pageSize ≤ (pmmFreePage phys r).pmmNextPage := by
  rw [pmmFreePage]
  by_cases h0 : phys = 0
  · rw [if_pos h0]
    exact ⟨h, hhint⟩
  rw [if_neg h0]
  by_cases hlow : phys / pageSize < r.pmmNextPage
  · -- the hint goes down to the page
    simp only [if_pos hlow]
    refine ⟨fun m hm hlt => ?_, (hphys.resolve_left h0).1⟩
    have hlt' : m < phys / pageSize := hlt
    show Function.update r.used (phys / pageSize) false m = true
    rw [Function.update_of_ne (Nat.ne_of_lt hlt')]
    exact h m hm (hlt'.trans hlow)
  · simp only [if_neg hlow]
    refine ⟨fun m hm hlt => ?_, hhint⟩
    have hlt' : m < r.pmmNextPage := hlt
    show Function.update r.used (phys / pageSize) false m = true
    rw [Function.update_of_ne (by omega)]
    exact h m hm hlt'

theorem pmmMarkRangeUsed_hint (h : HintOk r) (start stop : ℕ) :
    HintOk (pmmMarkRangeUsed start stop r) := by
  intro m hm hlt
  rw [pmmMarkRangeUsed]
  dsimp only
  split_ifs
  · rfl
  · exact h m hm hlt

/-- **`pmm_mark_range_free`** keeps the hint good exactly when its range does not
begin below the hint. -/
theorem markRangeFree_iff (h : HintOk r) {start stop : ℕ} (hstart : start % pageSize = 0)
    (hstop : stop % pageSize = 0) (hlow : mainRamStart ≤ start) (hhigh : stop ≤ mainRamEnd) :
    HintOk (pmmMarkRangeFree start stop r) ↔
      stop ≤ start ∨ r.pmmNextPage ≤ start / pageSize := by
  have hlow' : mainRamStart / pageSize ≤ start / pageSize := Nat.div_le_div_right hlow
  have hhigh' : stop / pageSize ≤ mainRamEnd / pageSize := Nat.div_le_div_right hhigh
  simp only [pageSize] at hstart hstop
  constructor
  · intro hok
    by_contra hnot
    rw [not_or, Nat.not_le, Nat.not_le] at hnot
    -- the first page of the range is free and below the hint
    have hlt : start / pageSize < stop / pageSize := by
      simp only [pageSize]
      omega
    have hused := hok (start / pageSize) ⟨hlow', hlt.trans_le hhigh'⟩ hnot.2
    rw [pmmMarkRangeFree] at hused
    dsimp only at hused
    rw [if_pos ⟨Nat.le_refl _, hlt⟩] at hused
    exact Bool.false_ne_true hused
  · intro hcond m hm hlt
    have hlt' : m < r.pmmNextPage := hlt
    rw [pmmMarkRangeFree]
    dsimp only
    rw [if_neg]
    · exact h m hm hlt'
    · rintro ⟨hle, hgt⟩
      rcases hcond with hempty | hhint
      · have hdiv : stop / pageSize ≤ start / pageSize := Nat.div_le_div_right hempty
        omega
      · omega

end Alloc

/-! ### Runs -/

/-- The range of a call of `pmm_mark_range_free` or `pmm_mark_range_used`: a
page-aligned part of `[MAIN_RAM_START, MAIN_RAM_END)`. -/
structure MainRange (start stop : ℕ) : Prop where
  alignedStart : start % pageSize = 0
  alignedStop : stop % pageSize = 0
  low : mainRamStart ≤ start
  high : stop ≤ mainRamEnd

/-- A range that does not begin below the hint. -/
def RangeAbove (start stop : ℕ) (r : Ram) : Prop :=
  stop ≤ start ∨ r.pmmNextPage ≤ start / pageSize

/-- The memory between the calls of a run after `pmm_init`, with the pages handed
out so far; the calls of `pmm_mark_range_free` meet the condition `C`. -/
inductive PmmRun (C : ℕ → ℕ → Ram → Prop) : List ℕ → Ram → Prop
  | init {r : Ram} : r.pmmNextPage = mainRamStart / pageSize → PmmRun C [] (pmmInit r)
  | alloc {handed : List ℕ} {r : Ram} : PmmRun C handed r →
      PmmRun C ((pmmAllocPage r).1 :: handed) (pmmAllocPage r).2
  | free {handed : List ℕ} {r : Ram} {phys : ℕ} : PmmRun C handed r → phys ∈ handed →
      PmmRun C handed (pmmFreePage phys r)
  | markFree {handed : List ℕ} {r : Ram} {start stop : ℕ} : PmmRun C handed r →
      MainRange start stop → C start stop r → PmmRun C handed (pmmMarkRangeFree start stop r)
  | markUsed {handed : List ℕ} {r : Ram} {start stop : ℕ} : PmmRun C handed r →
      MainRange start stop → PmmRun C handed (pmmMarkRangeUsed start stop r)

section Run

variable {handed : List ℕ} {r : Ram}

/-- The hint is good, and the pages handed out are pages of main RAM. -/
structure PmmOk (handed : List ℕ) (r : Ram) : Prop where
  hint : HintOk r
  above : mainRamStart / pageSize ≤ r.pmmNextPage
  handed : ∀ p ∈ handed, p = 0 ∨ MainPage (p / pageSize)

theorem PmmRun.ok (h : PmmRun RangeAbove handed r) : PmmOk handed r := by
  induction h with
  | init hinit =>
    constructor
    · intro n hn hlt
      have hlt' : n < mainRamStart / pageSize := hinit ▸ hlt
      exact absurd hn.1 (Nat.not_le.mpr hlt')
    · exact Nat.le_of_eq hinit.symm
    · exact fun p hp => absurd hp List.not_mem_nil
  | @alloc handed r _ ih =>
    obtain ⟨hhint, habove⟩ := pmmAllocPage_hint ih.above ih.hint
    refine ⟨hhint, habove, fun p hp => ?_⟩
    rcases List.mem_cons.mp hp with rfl | hp
    · rcases pmmAllocPage_scan ih.above with ⟨hrun, -⟩ | ⟨n, hmain, -, -, -, hrun⟩
      · rw [hrun]
        exact Or.inl rfl
      · rw [hrun, Nat.mul_div_cancel n (by decide)]
        exact Or.inr hmain
    · exact ih.handed p hp
  | free _ hmem ih =>
    obtain ⟨hhint, habove⟩ := pmmFreePage_hint ih.hint (ih.handed _ hmem) ih.above
    exact ⟨hhint, habove, ih.handed⟩
  | markFree _ hrange hcond ih =>
    exact ⟨(markRangeFree_iff ih.hint hrange.alignedStart hrange.alignedStop hrange.low hrange.high).mpr hcond,
      ih.above, ih.handed⟩
  | markUsed _ _ ih => exact ⟨pmmMarkRangeUsed_hint ih.hint _ _, ih.above, ih.handed⟩

/-- **The allocator finds every free page**, in every run in which no range is freed
that begins below the hint; and a range that begins there hides a free page. -/
theorem alloc_lowest (h : PmmRun RangeAbove handed r) : AllocLowest r ∧
    ∀ start stop, MainRange start stop →
      (AllocLowest (pmmMarkRangeFree start stop r) ↔ RangeAbove start stop r) := by
  have H := h.ok
  refine ⟨(allocLowest_iff H.above).mpr H.hint, fun start stop hrange => ?_⟩
  have habove : mainRamStart / pageSize ≤ (pmmMarkRangeFree start stop r).pmmNextPage := H.above
  rw [allocLowest_iff habove]
  exact markRangeFree_iff H.hint hrange.alignedStart hrange.alignedStop hrange.low hrange.high

end Run

/-! ### A page that is not found -/

/-- The memory as the image has it. -/
def imageRam : Ram where
  used := fun _ => false
  pmmNextPage := mainRamStart / pageSize
  frame := fun _ _ => 0
  pageTableNext := pageTablePoolBase
  pageTableFreeList := 0

/-- After `pmm_init` and one call of `pmm_alloc_page`. -/
def takenRam : Ram := (pmmAllocPage (pmmInit imageRam)).2

/-- The page is given back through `pmm_mark_range_free`. -/
def hiddenRam : Ram := pmmMarkRangeFree 0x100000 0x101000 takenRam

theorem takenRam_eq : pmmAllocPage (pmmInit imageRam) = (0x100000,
    { pmmInit imageRam with
      used := Function.update (pmmInit imageRam).used 256 true, pmmNextPage := 257 }) := by
  have hmain : MainPage (pmmInit imageRam).pmmNextPage := by
    constructor
    · exact Nat.le_refl _
    · decide
  exact pmmAllocPage_free hmain (by decide)

theorem takenRam_run {C : ℕ → ℕ → Ram → Prop} : PmmRun C [0x100000] takenRam := by
  have h : PmmRun C [(pmmAllocPage (pmmInit imageRam)).1] takenRam :=
    (PmmRun.init (r := imageRam) rfl).alloc
  rw [takenRam_eq] at h
  exact h

theorem alloc_lowest_takenRam : AllocLowest takenRam ∧
    ∀ start stop, MainRange start stop →
      (AllocLowest (pmmMarkRangeFree start stop takenRam) ↔ RangeAbove start stop takenRam) :=
  alloc_lowest takenRam_run

/-- The first page is free, and the next call of `pmm_alloc_page` returns the second. -/
theorem alloc_skips : PmmRun (fun _ _ _ => True) [0x100000] hiddenRam ∧
    hiddenRam.used (0x100000 / pageSize) = false ∧ (pmmAllocPage hiddenRam).1 = 0x101000 ∧
    ¬ AllocLowest hiddenRam := by
  have hhint : hiddenRam.pmmNextPage = 257 := by
    rw [hiddenRam, takenRam, takenRam_eq]
    rfl
  have hfirst : hiddenRam.used 256 = false := by
    rw [hiddenRam, takenRam, takenRam_eq]
    rfl
  have hsecond : hiddenRam.used 257 = false := by
    rw [hiddenRam, takenRam, takenRam_eq]
    decide
  have hmain : MainPage hiddenRam.pmmNextPage := by
    rw [hhint]
    exact ⟨by decide, by decide⟩
  refine ⟨takenRam_run.markFree ⟨rfl, rfl, Nat.le_refl _, by decide⟩ trivial, hfirst, ?_, ?_⟩
  · rw [pmmAllocPage_free hmain (by rw [hhint, hsecond]), hhint]
    rfl
  · intro h
    -- the page 256 lies below the hint
    have hused := (allocLowest_iff hmain.1).mp h 256 ⟨by decide, by decide⟩ (by rw [hhint]; decide)
    rw [hfirst] at hused
    exact Bool.false_ne_true hused

end VirtualKernel
