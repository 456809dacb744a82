/-
The pages of the hardware cursor.

`allocate_cursor_pages` needs four pages in a row.  It takes up to 64 pages one by one,
looks for a run among what it has, and gives back what it does not need.

* **`pmmAllocPage_freePages`** — the allocator takes the lowest free page;
* **`cursorTrials_spec`** — the trials take an initial segment of the free pages;
* **`allocateCursorPages_exact`** — exactly the pages that are returned become used, and
  a run among the 64 lowest free pages is found.
-/
import VirtualKernel.PmmHints
import VirtualKernel.Lib.FirstFit

namespace VirtualKernel

open Lib

/-! ### The driver -/

abbrev noCursorPages : ℕ := 0xFFFFFFFF

/-- The test of `intel915_find_cursor_pages` at `i`. -/
def cursorRun (pages : List ℕ) (i : ℕ) : Bool :=
  let base := pages.getD i 0
  base ≠ 0 ∧ base % 4096 = 0 ∧ base ≤ 0xFFFFC000 ∧ pages.getD (i + 1) 0 = base + 4096 ∧
    pages.getD (i + 2) 0 = base + 8192 ∧ pages.getD (i + 3) 0 = base + 12288

/-- `intel915_find_cursor_pages`. -/
def intel915FindCursorPages (pages : List ℕ) : ℕ :=
  if pages.length < 4 then noCursorPages
  else ((List.range (pages.length - 3)).find? (cursorRun pages)).getD noCursorPages

/-- The variables of `allocate_cursor_pages` after its first loop, and memory. -/
structure CursorTrials where
  pages : List ℕ
  found : ℕ
  base : ℕ
  ram : Ram

/-- The first loop of `allocate_cursor_pages`, with `n` pages still to try. -/
def cursorTrials : ℕ → List ℕ → Ram → CursorTrials
  | 0, pages, r => ⟨pages, noCursorPages, 0, r⟩
  | n + 1, pages, r =>
    let (physical, r) := pmmAllocPage r
    if physical = 0 then ⟨pages, noCursorPages, 0, r⟩
    else
      let pages := pages ++ [physical]
      let found := intel915FindCursorPages pages
      if found ≠ noCursorPages then ⟨pages, found, pages.getD found 0, r⟩
      else cursorTrials n pages r

/-- A page that the second loop gives back. -/
def released (found base i : ℕ) : Bool := base = 0 ∨ i < found ∨ add32 found 4 ≤ i

/-- The first `count` turns of the second loop of `allocate_cursor_pages`. -/
def cursorRelease (pages : List ℕ) (found base : ℕ) : ℕ → Ram → Ram
  | 0, r => r
  | count + 1, r =>
    let r := cursorRelease pages found base count r
    if released found base count then pmmFreePage (pages.getD count 0) r else r

/-- `allocate_cursor_pages`. -/
def allocateCursorPages (r : Ram) : ℕ × Ram :=
  let t := cursorTrials 64 [] r
  (t.base, cursorRelease t.pages t.found t.base t.pages.length t.ram)

/-! ### The allocator -/

/-- Pages outside main memory are marked used, and no free page lies below the hint. -/
structure PmmHinted (r : Ram) : Prop where
  outside : ∀ n, ¬MainPage n → r.used n = true
  hint : ∀ n < r.pmmNextPage, r.used n = true

/-- The free pages, by number. -/
def freePages (r : Ram) : List ℕ := freeBelow (mainRamEnd / pageSize) r.used

section Allocator

variable {r : Ram} {n : ℕ}

theorem PmmHinted.mainPage (h : PmmHinted r) (hfree : r.used n = false) : MainPage n := by
  by_contra hn
  rw [h.outside n hn] at hfree
  cases hfree

/-- The numbers of the pages of main memory. -/
theorem mainPage_bounds (h : MainPage n) : 256 ≤ n ∧ n < 259968 := h

/-- **The allocator takes the lowest free page**, or there is none. -/
theorem pmmAllocPage_freePages (h : PmmHinted r) :
    (freePages r = [] ∧ pmmAllocPage r = (0, r)) ∨
      ∃ n r', pmmAllocPage r = (n * pageSize, r') ∧ freePages r = n :: freePages r' ∧ PmmHinted r' ∧
        r.used n = false ∧ r'.used = Function.update r.used n true := by
  rw [pmmAllocPage]
  split
  · rename_i hnone
    refine Or.inl ⟨freeBelow_eq_nil fun i hi => ?_, rfl⟩
    by_cases hlow : i < r.pmmNextPage
    · exact h.hint i hlow
    · have hskip := List.find?_eq_none.mp hnone i (by
        rw [List.mem_range'_1]
        omega)
      simpa using hskip
  · rename_i n hfind
    obtain ⟨hfree, hmem, hbefore⟩ := List.find?_range'_eq_some.mp hfind
    rw [List.mem_range'_1] at hmem
    have hfree' : r.used n = false := by simpa using hfree
    have hlow : ∀ i < n, r.used i = true := by
      intro i hi
      by_cases hbelow : i < r.pmmNextPage
      · exact h.hint i hbelow
      · have hskip := hbefore i (Nat.not_lt.mp hbelow) hi
        simpa using hskip
    refine Or.inr ⟨n, _, rfl, freeBelow_cons (by omega) hfree' hlow, ⟨?_, ?_⟩, hfree', rfl⟩
    · intro m hm
      have hne : m ≠ n := by
        rintro rfl
        exact hm (h.mainPage hfree')
      show Function.update r.used n true m = true
      rw [Function.update_of_ne hne, h.outside m hm]
    · intro m hm
      show Function.update r.used n true m = true
      by_cases hmn : m = n
      · rw [hmn, Function.update_self]
      · have hlt : m < n + 1 := hm
        rw [Function.update_of_ne hmn, hlow m (by omega)]

end Allocator

/-! ### The search for a run -/

section Search

variable {ps : List ℕ}

/-- The addresses of pages. -/
def addresses (ps : List ℕ) : List ℕ := ps.map (· * pageSize)

theorem addresses_getD {i : ℕ} (hi : i < ps.length) : (addresses ps).getD i 0 = ps[i] * pageSize := by
  rw [addresses, List.getD_eq_getElem _ _ (by rwa [List.length_map]), List.getElem_map]

/-- The test at `i`, on page numbers. -/
theorem cursorRun_addresses (hps : ∀ n ∈ ps, MainPage n) {i : ℕ} (hi : i + 3 < ps.length) :
    cursorRun (addresses ps) i = true ↔
      ps[i + 1] = ps[i] + 1 ∧ ps[i + 2] = ps[i] + 2 ∧ ps[i + 3] = ps[i] + 3 := by
  have hbounds := mainPage_bounds (hps ps[i] (List.getElem_mem _))
  rw [cursorRun, addresses_getD (by omega), addresses_getD (by omega), addresses_getD (by omega),
    addresses_getD hi, decide_eq_true_eq]
  simp only [pageSize]
  omega

/-- What a search finds, and what it means to find nothing. -/
theorem intel915FindCursorPages_cases (pages : List ℕ) :
    (intel915FindCursorPages pages = noCursorPages ∧
        ∀ i, i + 3 < pages.length → cursorRun pages i = false) ∨
      (intel915FindCursorPages pages + 3 < pages.length ∧
        cursorRun pages (intel915FindCursorPages pages) = true) := by
  rw [intel915FindCursorPages]
  split_ifs with hlen
  · exact Or.inl ⟨rfl, fun i hi => by omega⟩
  · cases hfind : (List.range (pages.length - 3)).find? (cursorRun pages) with
    | none =>
      refine Or.inl ⟨rfl, fun i hi => ?_⟩
      have hskip := List.find?_eq_none.mp hfind i (List.mem_range.mpr (by omega))
      simpa using hskip
    | some i =>
      have hmem := List.mem_range.mp (List.mem_of_find?_eq_some hfind)
      refine Or.inr ⟨?_, List.find?_some hfind⟩
      show i + 3 < pages.length
      omega

end Search

/-! ### The two loops -/

section Loops

variable {r₀ r : Ram} {ps : List ℕ}

/-- The pages `ps` have been taken from the memory `r₀`: they are its lowest free pages. -/
structure Taken (r₀ : Ram) (ps : List ℕ) (r : Ram) : Prop where
  prefixed : freePages r₀ = ps ++ freePages r
  used : ∀ n, r.used n = (r₀.used n || decide (n ∈ ps))
  ok : PmmHinted r

/-- One more page. -/
theorem Taken.snoc (h : Taken r₀ ps r) :
    (freePages r₀ = ps ∧ pmmAllocPage r = (0, r)) ∨
      ∃ n r', pmmAllocPage r = (n * pageSize, r') ∧ n * pageSize ≠ 0 ∧ Taken r₀ (ps ++ [n]) r' := by
  rcases pmmAllocPage_freePages h.ok with ⟨hnil, hrun⟩ | ⟨n, r', hrun, hcons, hok, hfree, hused⟩
  · exact Or.inl ⟨by rw [h.prefixed, hnil, List.append_nil], hrun⟩
  · have hbounds := mainPage_bounds (h.ok.mainPage hfree)
    refine Or.inr ⟨n, r', hrun, by simp only [pageSize]; omega, ⟨?_, ?_, hok⟩⟩
    · rw [h.prefixed, hcons, List.append_assoc, List.singleton_append]
    · intro m
      rw [hused]
      by_cases hm : m = n
      · simp [hm]
      · rw [Function.update_of_ne hm, h.used]
        simp [hm]

theorem Taken.mainPage (h : Taken r₀ ps r) (hok : PmmHinted r₀) : ∀ n ∈ ps, MainPage n := by
  intro n hn
  have hmem : n ∈ freePages r₀ := by
    rw [h.prefixed]
    exact List.mem_append_left _ hn
  exact hok.mainPage (mem_freeBelow.mp hmem).2

/-- What the first loop leaves: a run that it found, or no run among the lowest free pages. -/
structure TrialsDone (r₀ : Ram) (t : CursorTrials) (qs : List ℕ) : Prop where
  pages : t.pages = addresses qs
  taken : Taken r₀ qs t.ram
  length : qs.length ≤ 64
  result : (t.found = intel915FindCursorPages (addresses qs) ∧ t.found ≠ noCursorPages ∧
      t.base = (addresses qs).getD t.found 0) ∨
    (intel915FindCursorPages (addresses qs) = noCursorPages ∧ t.base = 0 ∧
      (qs.length = 64 ∨ freePages r₀ = qs))

/-- **The trials take an initial segment of the free pages**, until a run is found, there
are 64 of them, or no page is left. -/
theorem cursorTrials_spec : ∀ (n : ℕ) (ps : List ℕ) (r : Ram), Taken r₀ ps r →
    ps.length + n = 64 → intel915FindCursorPages (addresses ps) = noCursorPages →
    ∃ qs, TrialsDone r₀ (cursorTrials n (addresses ps) r) qs := by
  intro n
  induction n with
  | zero =>
    intro ps r h hlen hnone
    exact ⟨ps, rfl, h, by omega, Or.inr ⟨hnone, rfl, Or.inl (by omega)⟩⟩
  | succ n ih =>
    intro ps r h hlen hnone
    rw [cursorTrials]
    rcases h.snoc with ⟨hall, hrun⟩ | ⟨a, r', hrun, hne, h'⟩
    · rw [hrun]
      exact ⟨ps, rfl, h, by omega, Or.inr ⟨hnone, rfl, Or.inr hall⟩⟩
    · have happend : addresses ps ++ [a * pageSize] = addresses (ps ++ [a]) := by
        simp [addresses]
      rw [hrun]
      have hlen' : (ps ++ [a]).length + n = 64 := by
        rw [List.length_append, List.length_singleton]
        omega
      dsimp only
      rw [if_neg hne, happend]
      by_cases hfound : intel915FindCursorPages (addresses (ps ++ [a])) = noCursorPages
      · rw [if_neg (not_not.mpr hfound)]
        exact ih (ps ++ [a]) r' h' hlen' hfound
      · rw [if_pos hfound]
        exact ⟨ps ++ [a], rfl, h', by omega, Or.inl ⟨rfl, hfound, rfl⟩⟩

/-- **The second loop** frees the pages that are not kept, and nothing else. -/
theorem cursorRelease_used {qs : List ℕ} (hmain : ∀ n ∈ qs, MainPage n) (found base : ℕ) :
    ∀ count ≤ qs.length, ∀ n, (cursorRelease (addresses qs) found base count r).used n = true ↔
      r.used n = true ∧ ∀ i, (hi : i < qs.length) → i < count → released found base i = true →
        qs[i] ≠ n := by
  intro count
  induction count with
  | zero =>
    intro _ n
    simp [cursorRelease]
  | succ count ih =>
    intro hcount n
    have hlt : count < qs.length := hcount
    have hprev := ih hlt.le n
    have hbounds := mainPage_bounds (hmain qs[count] (List.getElem_mem hlt))
    rw [cursorRelease]
    by_cases hrel : released found base count = true
    · have hne : qs[count] * pageSize ≠ 0 := by
        simp only [pageSize]
        omega
      have hdiv : qs[count] * pageSize / pageSize = qs[count] := Nat.mul_div_cancel _ (by decide)
      rw [if_pos hrel, addresses_getD hlt, pmmFreePage, if_neg hne, hdiv]
      dsimp only
      by_cases hn : n = qs[count]
      · rw [hn, Function.update_self]
        constructor
        · intro h
          cases h
        · intro h
          exact absurd rfl (h.2 count hlt (Nat.lt_succ_self _) hrel)
      · rw [Function.update_of_ne hn, hprev]
        constructor
        · rintro ⟨hu, hall⟩
          refine ⟨hu, fun i hi hic hri => ?_⟩
          rcases Nat.lt_succ_iff_lt_or_eq.mp hic with hlt' | rfl
          · exact hall i hi hlt' hri
          · exact fun h => hn h.symm
        · rintro ⟨hu, hall⟩
          exact ⟨hu, fun i hi hic hri => hall i hi (by omega) hri⟩
    · rw [if_neg hrel, hprev]
      constructor
      · rintro ⟨hu, hall⟩
        refine ⟨hu, fun i hi hic hri => ?_⟩
        rcases Nat.lt_succ_iff_lt_or_eq.mp hic with hlt' | rfl
        · exact hall i hi hlt' hri
        · exact absurd hri hrel
      · rintro ⟨hu, hall⟩
        exact ⟨hu, fun i hi hic hri => hall i hi (by omega) hri⟩

end Loops

/-! ### The whole call -/

section Call

variable {r : Ram} {qs : List ℕ}

/-- The pages of the trials are free pages, in ascending order. -/
theorem Taken.sorted {r₀ : Ram} (h : Taken r₀ qs r) : qs.Pairwise (· < ·) := by
  have hall := freeBelow_sorted (mainRamEnd / pageSize) r₀.used
  rw [← freePages, h.prefixed] at hall
  exact (List.pairwise_append.mp hall).1

theorem Taken.free {r₀ : Ram} (h : Taken r₀ qs r) {n : ℕ} (hn : n ∈ qs) : r₀.used n = false := by
  have hmem : n ∈ freePages r₀ := by
    rw [h.prefixed]
    exact List.mem_append_left _ hn
  exact (mem_freeBelow.mp hmem).2

/-- After the call a page is used if it was, or if it is one of those that are kept. -/
theorem TrialsDone.used_iff (hok : PmmHinted r) (h : TrialsDone r (cursorTrials 64 [] r) qs) (n : ℕ) :
    (allocateCursorPages r).2.used n = true ↔ r.used n = true ∨ ∃ i, ∃ hi : i < qs.length,
      released (cursorTrials 64 [] r).found (cursorTrials 64 [] r).base i = false ∧ qs[i] = n := by
  have hlen : (addresses qs).length = qs.length := by rw [addresses, List.length_map]
  rw [allocateCursorPages]
  dsimp only
  rw [h.pages, hlen, cursorRelease_used (h.taken.mainPage hok) _ _ _ le_rfl, h.taken.used,
    Bool.or_eq_true, decide_eq_true_eq]
  constructor
  · rintro ⟨hn | hn, hkept⟩
    · exact Or.inl hn
    · obtain ⟨i, hi, rfl⟩ := List.getElem_of_mem hn
      refine Or.inr ⟨i, hi, ?_, rfl⟩
      by_contra hrel
      exact hkept i hi hi (by simpa using hrel) rfl
  · rintro (hn | ⟨i, hi, hrel, rfl⟩)
    · refine ⟨Or.inl hn, fun j hj _ _ => ?_⟩
      rintro rfl
      rw [h.taken.free (List.getElem_mem hj)] at hn
      cases hn
    · refine ⟨Or.inr (List.getElem_mem hi), fun j hj _ hrelj hjn => ?_⟩
      -- the pages are different, so `j` is `i`
      have hnodup : qs.Nodup := h.taken.sorted.imp fun hab => ne_of_lt hab
      have hji : j = i := (List.Nodup.getElem_inj_iff hnodup).mp hjn
      rw [hji, hrel] at hrelj
      cases hrelj

/-- A run that was found. -/
theorem TrialsDone.run (hok : PmmHinted r) {t : CursorTrials} (h : TrialsDone r t qs)
    (hbase : t.base ≠ 0) :
    ∃ i, ∃ hi : i + 3 < qs.length, t.found = i ∧ t.base = qs[i] * pageSize ∧
      qs[i + 1] = qs[i] + 1 ∧ qs[i + 2] = qs[i] + 2 ∧ qs[i + 3] = qs[i] + 3 := by
  rcases h.result with ⟨hfound, hne, hb⟩ | ⟨-, h0, -⟩
  · rcases intel915FindCursorPages_cases (addresses qs) with ⟨hnone, -⟩ | ⟨hlt, hrun⟩
    · exact absurd (hfound.trans hnone) hne
    · rw [← hfound, addresses, List.length_map] at hlt
      rw [← hfound, cursorRun_addresses (h.taken.mainPage hok) hlt] at hrun
      exact ⟨t.found, hlt, rfl, by rw [hb, addresses_getD (by omega)], hrun⟩
  · exact absurd h0 hbase

/-- If no run was found there is none among the 64 lowest free pages. -/
theorem TrialsDone.complete (hok : PmmHinted r) {t : CursorTrials} (h : TrialsDone r t qs)
    {n : ℕ} (hn : ∀ j < 4, n + j ∈ (freePages r).take 64) : t.base ≠ 0 := by
  rcases h.result with ⟨hfound, hne, hb⟩ | ⟨hnone, -, hend⟩
  · rcases intel915FindCursorPages_cases (addresses qs) with ⟨hnone, -⟩ | ⟨hlt, -⟩
    · exact absurd (hfound.trans hnone) hne
    · rw [← hfound, addresses, List.length_map] at hlt
      have hbounds := mainPage_bounds (h.taken.mainPage hok qs[t.found] (List.getElem_mem _))
      rw [hb, addresses_getD (by omega)]
      simp only [pageSize]
      omega
  · -- the trials saw the 64 lowest pages, so they saw the run
    have hsub : ∀ j < 4, n + j ∈ qs := by
      intro j hj
      have hmem := hn j hj
      rcases hend with h64 | hall
      · rwa [h.taken.prefixed, List.take_append_of_le_length (by omega),
          List.take_of_length_le (by omega)] at hmem
      · rw [hall] at hmem
        exact List.mem_of_mem_take hmem
    obtain ⟨i, hi, hi0⟩ := List.getElem_of_mem (hsub 0 (by decide))
    rw [Nat.add_zero] at hi0
    obtain ⟨h₁, e₁⟩ := getElem_succ_of_mem h.taken.sorted hi (by
      rw [hi0]
      exact hsub 1 (by decide))
    obtain ⟨h₂, e₂⟩ := getElem_succ_of_mem h.taken.sorted h₁ (by
      rw [e₁, hi0]
      exact hsub 2 (by decide))
    obtain ⟨h₃, e₃⟩ := getElem_succ_of_mem h.taken.sorted h₂ (by
      rw [e₂, e₁, hi0]
      exact hsub 3 (by decide))
    have hrun : cursorRun (addresses qs) i = true := by
      rw [cursorRun_addresses (h.taken.mainPage hok) h₃]
      exact ⟨e₁, by rw [e₂, e₁], by rw [e₃, e₂, e₁]⟩
    rcases intel915FindCursorPages_cases (addresses qs) with ⟨-, hall⟩ | ⟨hlt, -⟩
    · rw [hall i (by rwa [addresses, List.length_map])] at hrun
      cases hrun
    · rw [hnone, addresses, List.length_map] at hlt
      have hlen := h.length
      simp only [noCursorPages] at hlt
      omega

end Call

/-- **The cursor page allocator takes exactly what it returns.**  Pages outside main memory
are used and no free page lies below the hint.  If a base is returned, its four pages were
free and are used, and no other page changes; if 0 is returned, no page changes; and a
base is returned whenever there are four pages in a row among the 64 lowest free ones. -/
theorem allocateCursorPages_exact {r : Ram} (hout : ∀ n, ¬MainPage n → r.used n = true)
    (hhint : ∀ n < r.pmmNextPage, r.used n = true) :
    ((allocateCursorPages r).1 ≠ 0 → ∃ n, (allocateCursorPages r).1 = n * pageSize ∧
      (∀ j < 4, r.used (n + j) = false ∧ (allocateCursorPages r).2.used (n + j) = true) ∧
      ∀ m, (∀ j < 4, m ≠ n + j) → (allocateCursorPages r).2.used m = r.used m) ∧
    ((allocateCursorPages r).1 = 0 → (allocateCursorPages r).2.used = r.used) ∧
    ((∃ n, ∀ j < 4, n + j ∈ (freePages r).take 64) → (allocateCursorPages r).1 ≠ 0) := by
  have hok : PmmHinted r := ⟨hout, hhint⟩
  have hstart : Taken r [] r :=
    ⟨(List.nil_append _).symm, fun n => by simp only [List.not_mem_nil, decide_false, Bool.or_false],
      hok⟩
  have hnone : intel915FindCursorPages (addresses []) = noCursorPages := if_pos (by decide)
  obtain ⟨qs, hdone⟩ := cursorTrials_spec 64 [] r hstart (by decide) hnone
  have hdone' : TrialsDone r (cursorTrials 64 [] r) qs := hdone
  have hused := hdone'.used_iff hok
  refine ⟨?found, ?none, ?complete⟩
  case found =>
    intro hbase
    obtain ⟨i, hi, hfound, hb, e₁, e₂, e₃⟩ := hdone'.run hok hbase
    have hlen := hdone'.length
    -- the four pages of the run, by their place in the list
    have hplace : ∀ j < 4, ∃ h : i + j < qs.length, qs[i + j] = qs[i] + j := by
      intro j hj
      refine ⟨by omega, ?_⟩
      obtain rfl | rfl | rfl | rfl : j = 0 ∨ j = 1 ∨ j = 2 ∨ j = 3 := by omega
      · rfl
      · exact e₁
      · exact e₂
      · exact e₃
    have hkept : ∀ k, released (cursorTrials 64 [] r).found (cursorTrials 64 [] r).base k = false ↔
        ∃ j < 4, k = i + j := by
      intro k
      have hsum : add32 i 4 = i + 4 := add32_of_lt (by omega)
      rw [hfound, released, hsum, decide_eq_false_iff_not]
      constructor
      · intro h
        exact ⟨k - i, by omega, by omega⟩
      · rintro ⟨j, hj, rfl⟩ h
        rcases h with h | h | h
        · exact hbase h
        · omega
        · omega
    refine ⟨qs[i], hb, fun j hj => ?_, fun m hm => ?_⟩
    · obtain ⟨hij, heq⟩ := hplace j hj
      refine ⟨heq ▸ hdone'.taken.free (List.getElem_mem hij), ?_⟩
      exact (hused _).mpr (Or.inr ⟨i + j, hij, (hkept _).mpr ⟨j, hj, rfl⟩, heq⟩)
    · rw [Bool.eq_iff_iff, hused]
      constructor
      · rintro (h | ⟨k, hk, hrel, rfl⟩)
        · exact h
        · obtain ⟨j, hj, rfl⟩ := (hkept k).mp hrel
          exact absurd (hplace j hj).2 (hm j hj)
      · exact Or.inl
  case none =>
    intro hbase
    funext m
    have hrel : ∀ k, released (cursorTrials 64 [] r).found (cursorTrials 64 [] r).base k = true := by
      intro k
      rw [released, decide_eq_true_eq]
      exact Or.inl hbase
    rw [Bool.eq_iff_iff, hused]
    constructor
    · rintro (h | ⟨k, -, hk, -⟩)
      · exact h
      · rw [hrel k] at hk
        cases hk
    · exact Or.inl
  case complete =>
    rintro ⟨n, hn⟩
    exact hdone'.complete hok hn

/-- A memory with four free pages, the last ones. -/
def fourFree : Ram where
  used n := decide (n < 259964 ∨ 259968 ≤ n)
  pmmNextPage := 259964
  frame _ _ := 0
  pageTableNext := pageTablePoolBase
  pageTableFreeList := 0

/-- The last four pages of main memory. -/
theorem allocateCursorPages_exact_last :
    ∃ n, (allocateCursorPages fourFree).1 = n * pageSize ∧
      (∀ j < 4, fourFree.used (n + j) = false ∧
        (allocateCursorPages fourFree).2.used (n + j) = true) ∧
      ∀ m, (∀ j < 4, m ≠ n + j) → (allocateCursorPages fourFree).2.used m = fourFree.used m := by
  have hout : ∀ n, ¬MainPage n → fourFree.used n = true := by
    intro n hn
    rw [fourFree, decide_eq_true_eq]
    by_contra h
    exact hn (show 256 ≤ n ∧ n < 259968 by omega)
  have hhint : ∀ n < fourFree.pmmNextPage, fourFree.used n = true := by
    intro n hn
    rw [fourFree, decide_eq_true_eq]
    exact Or.inl hn
  exact (allocateCursorPages_exact hout hhint).1 (by decide +kernel)

end VirtualKernel
