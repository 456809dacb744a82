/-
What `process_prepare_test_task` leaves behind when it fails.

The routine maps the code page first.  When the stack page cannot be mapped
then, only the stack page is given back: the code page stays mapped and used
(`HalfLoads`).  In every other case a failure leaves the used pages and the
address space as they were (`prepare_clean`).
-/
import VirtualKernel.PrepareTask
import VirtualKernel.MapPage

namespace VirtualKernel

open Lib

/-- The used pages and the translations of the directory `d` are the same. -/
structure SameMemory (d : ℕ) (r r' : Ram) : Prop where
  used : ∀ n, r'.used n = r.used n
  translation : ∀ v < 2 ^ 32, getPhysicalAddress d v r' = getPhysicalAddress d v r

theorem SameMemory.refl (d : ℕ) (r : Ram) : SameMemory d r r := ⟨fun _ => rfl, fun _ _ => rfl⟩

/-- A second page can be mapped at `stack` after one has been mapped at `code`. -/
def Ram.StackMappable (r : Ram) (d code stack : ℕ) : Prop :=
  stack < userSpaceLimit ∧ stack % pageSize = 0 ∧ r.FreePages 2 ∧
    (stack / 2 ^ 22 = code / 2 ^ 22 ∨ r.TableReady d (stack / 2 ^ 22)
      (if (tableOf r d (code / 2 ^ 22)).isSome then 1 else 2))

/-- The code page of an image can be mapped at `entry`, and the stack page
cannot. -/
structure HalfLoads (k : Kernel) (p source size entry : ℕ) : Prop where
  source_ne : source ≠ 0
  size_le : 1 ≤ size ∧ size ≤ pageSize
  entryAt : entryAddress k p = some entry
  fits : entry % pageSize + size ≤ pageSize
  code : k.ram.Mappable (k.mem p procPageDir) (pageAddr entry)
  stack : ¬k.ram.StackMappable (k.mem p procPageDir) (pageAddr entry)
    (add32 (k.mem p procSlotBase) (userStackOffset + userStackSize - pageSize))

section Clean

variable {k k' : Kernel} {O O' : ℕ → Prop} {T : Items} {p d c : ℕ}

/-- Between the calls no directory translates `KERNEL_TEMP_PAGE`. -/
theorem Holds.temp_unmapped (H : Holds k O T) (hd : Item.dir d ∈ T) {v : ℕ}
    (hv : v / pageSize = kernelTempPage / pageSize) : getPhysicalAddress d v k.ram = none := by
  have hi : v / 2 ^ 22 = tempPde := by
    simp only [pageSize, kernelTempPage, tempPde] at hv ⊢
    omega
  have hj : pteIndex v = tempPte := by
    simp only [pteIndex, pageSize, kernelTempPage, tempPte] at hv ⊢
    omega
  have hd0 : d ≠ 0 := by
    have h := (H.ram.tables.node_bounds (x := .dir d) ⟨hd, rfl⟩).1
    simp only [pageTablePoolBase] at h
    omega
  obtain ⟨t, ht⟩ := Option.isSome_iff_exists.mp H.windows.temp
  obtain ⟨-, -, hps, hta⟩ := ktableOf_eq_some.mp ht
  by_cases hp : present (k.ram.frame d (v / 2 ^ 22)) = true
  · have hpde : k.ram.frame d (v / 2 ^ 22) = k.ram.frame pageDirBase tempPde := by
      rw [hi] at hp ⊢
      rcases H.ram.tables.dir_pde d hd tempPde (by decide) with h | ⟨-, h⟩
      · rw [h, kernelCopy] at hp ⊢
        split_ifs at hp ⊢
        · rfl
        · cases hp
      · -- user tables lie below the kernel's half
        rw [tableOf, if_neg fun h' => absurd h'.1 (by decide)] at h
        cases h
    rw [getPhysicalAddress_table hd0 hp (by rw [hpde]; exact hps) (by rw [hpde, hj, hta]),
      H.windows.closed t ht]
    rfl
  · exact getPhysicalAddress_absent (by simpa using hp)

/-- A page that could not be mapped changes nothing. -/
theorem Holds.sameMemory (H : Holds k O T) (H' : Holds k' O' T) (hd : Item.dir d ∈ T)
    (hU : Undone k.ram k'.ram) : SameMemory d k.ram k'.ram := by
  refine ⟨fun n => by rw [hU.used], fun v hv => ?_⟩
  by_cases hvt : v / pageSize = kernelTempPage / pageSize
  · rw [H.temp_unmapped hd hvt, H'.temp_unmapped hd hvt]
  have hi : v / 2 ^ 22 < 1024 := by omega
  have htab := H.ram.tables
  have hdir : NodeAt k.ram (dirsOf T) (.dir d) d := ⟨hd, rfl⟩
  -- nodes of the pool lie outside main RAM
  have hnode : ∀ {x a}, NodeAt k.ram (dirsOf T) x a → ∀ n, Allocatable n → a ≠ n * pageSize :=
    fun hx n hn h => htab.allocatable_not_node hn (h ▸ hx)
  refine getPhysicalAddress_congr (hU.frame d _ (hnode hdir) fun h => ?_) fun hp hps => ?_
  · have hnode := htab.node_inj hdir (show NodeAt k.ram (dirsOf T) (.ktable tempPde) d from h)
    cases hnode
  · rcases htab.dir_pde d hd _ hi with hpde | ⟨-, hs⟩
    · -- a table of the kernel's
      have hk : ktableOf k.ram (v / 2 ^ 22) = some (pageAddr (k.ram.frame d (v / 2 ^ 22))) := by
        rw [hpde, kernelCopy] at hp hps ⊢
        split_ifs at hp hps ⊢ with hc
        · exact if_pos ⟨hi, hp, by rw [hps]; exact Bool.false_ne_true⟩
        · cases hp
      have hknode : NodeAt k.ram (dirsOf T) (.ktable (v / 2 ^ 22)) _ := hk
      refine hU.frame _ _ (hnode hknode) fun h hj => hvt ?_
      have hidx := Node.ktable.inj (htab.node_inj hknode
        (show NodeAt k.ram (dirsOf T) (.ktable tempPde) _ from h))
      simp only [pteIndex, kernelTempPage, tempPde, pageSize] at hj hidx ⊢
      omega
    · obtain ⟨t, ht⟩ := Option.isSome_iff_exists.mp hs
      have hta : pageAddr (k.ram.frame d (v / 2 ^ 22)) = t := (tableOf_eq_some.mp ht).2.2.2.2
      have htnode : NodeAt k.ram (dirsOf T) (.table d (v / 2 ^ 22)) t := ⟨hd, ht⟩
      rw [hta]
      refine hU.frame t _ (hnode htnode) fun h => ?_
      have hnode := htab.node_inj htnode (show NodeAt k.ram (dirsOf T) (.ktable tempPde) t from h)
      cases hnode

/-- What can be mapped after a page has been mapped. -/
theorem Holds.stackMappable {code stack flags : ℕ} (H : Holds k O (T + {.dir d}))
    (H' : Holds k' O' (T + {.dir d})) {C : ℕ → Prop} (hM : PageMapped C (dirsOf (T + {.dir d})) c d
      (code / 2 ^ 22) (code / 2 ^ 12 % 2 ^ 10) flags k.ram k'.ram) :
    k'.ram.Mappable d stack ↔ k.ram.StackMappable d code stack := by
  obtain ⟨n, hn, hu, -⟩ := hM.used
  have hpages : k'.ram.FreePages 1 ↔ k.ram.FreePages 2 := Ram.freePages_put hn hu
  -- a table was taken for the code page, unless there was one
  have htables : k'.ram.FreeTables 1 ↔
      k.ram.FreeTables (if (tableOf k.ram d (code / 2 ^ 22)).isSome then 1 else 2) := by
    obtain ⟨t, ht⟩ := Option.isSome_iff_exists.mp hM.table
    have hused : ∀ x, k'.ram.PoolUsed x ↔ k.ram.PoolUsed x ∨ x = t := fun x => by
      rw [H.mapped_used H' hM x, ht, Option.some.injEq, eq_comm]
    cases hs : tableOf k.ram d (code / 2 ^ 22) with
    | none =>
      rw [if_neg (by simp)]
      exact Ram.freeTables_put (H.new_table H' hM hs ht) hused
    | some t' =>
      simp only [Option.isSome_some, if_true]
      have htt : t' = t := Option.some.inj ((hM.keep t' hs).symm.trans ht)
      have hin : k.ram.PoolUsed t := (H.pool_used t).mpr
        ⟨.table d _, mem_add_singleton.mpr (Or.inr rfl), by rw [hs, htt]⟩
      have hsame : ∀ x, k'.ram.PoolUsed x ↔ k.ram.PoolUsed x := fun x => by
        rw [hused x, or_iff_left_of_imp]
        rintro rfl
        exact hin
      exact ⟨fun h => h.congr fun x => (hsame x).symm, fun h => h.congr hsame⟩
  -- the stack page may use the table of the code page
  have htable : k'.ram.TableReady d (stack / 2 ^ 22) 1 ↔ stack / 2 ^ 22 = code / 2 ^ 22 ∨
      k.ram.TableReady d (stack / 2 ^ 22)
        (if (tableOf k.ram d (code / 2 ^ 22)).isSome then 1 else 2) := by
    by_cases hi : stack / 2 ^ 22 = code / 2 ^ 22
    · rw [hi]
      exact ⟨fun _ => Or.inl rfl, fun _ => Or.inl hM.table⟩
    · have htab : tableOf k'.ram d (stack / 2 ^ 22) = tableOf k.ram d (stack / 2 ^ 22) := by
        rw [tableOf, tableOf, hM.pde _ hi]
      rw [or_iff_right hi, Ram.TableReady, Ram.TableReady, htables, htab, hM.pde _ hi]
  constructor
  · intro h
    exact ⟨h.low, h.aligned, hpages.mp h.page, htable.mp h.table⟩
  · rintro ⟨h1, h2, h3, h4⟩
    exact ⟨h1, h2, hpages.mpr h3, htable.mpr h4⟩

/-- **What `process_prepare_test_task` leaves behind.** -/
theorem processPrepareTestTask_half {source size : ℕ} {image : ℕ → ℕ}
    (H : Holds k O (T + {.dir (k.mem p procPageDir)})) (hp : p ≠ 0) :
    Runs (processPrepareTestTask p source size image) k fun r k' =>
      (∀ entry, HalfLoads k p source size entry →
        r = 0 ∧ ∃ n, k.ram.used n = false ∧ k'.ram.used n = true) ∧
      ((∀ entry, ¬HalfLoads k p source size entry) → r = 0 →
        SameMemory (k.mem p procPageDir) k.ram k'.ram) := by
  have hin : Item.dir (k.mem p procPageDir) ∈ T + {.dir (k.mem p procPageDir)} := by simp
  refine runs_get_bind ?_
  dsimp only
  -- the routine refuses before it allocates, or fails at the first or at the second page
  by_cases hargs : p = 0 ∨ source = 0 ∨ size = 0 ∨ pageSize < size
  · rw [if_pos hargs]
    refine runs_pure ⟨fun entry h => ?_, fun _ _ => .refl _ _⟩
    have h1 := h.source_ne
    have h2 := h.size_le
    omega
  rw [if_neg hargs]
  cases hentry : entryAddress k p with
  | none =>
    refine runs_pure ⟨fun entry h => ?_, fun _ _ => .refl _ _⟩
    rw [h.entryAt] at hentry
    cases hentry
  | some edx =>
    have hedx : ∀ {entry}, HalfLoads k p source size entry → entry = edx := fun h =>
      Option.some.inj (h.entryAt.symm.trans hentry)
    dsimp only
    by_cases hfits : pageSize < edx % pageSize + size
    · rw [if_pos hfits]
      refine runs_pure ⟨fun entry h => ?_, fun _ _ => .refl _ _⟩
      have h1 := h.fits
      rw [hedx h] at h1
      omega
    rw [if_neg hfits]
    generalize hfl : pagePresentRwUser ||| pageOwned = flags
    have hfl : flags.testBit 9 = true := by
      rw [← hfl]
      decide
    refine runs_bind ((kAllocMapPage_spec H (pageAddr edx) hfl _).and
      (kAllocMapPage_exact H hfl _)) ?_
    rintro r k₁ ⟨⟨F₁, -, ⟨rfl, H', -, -, hU⟩ | ⟨rfl, H₁, hM⟩⟩, hcode⟩
    · -- the code page cannot be mapped
      rw [if_neg Bool.false_ne_true]
      refine runs_pure ⟨fun entry h => ?_, fun _ _ => H.sameMemory H' hin hU⟩
      have hm := h.code
      rw [hedx h] at hm
      exact absurd (hcode.mpr hm) Bool.false_ne_true
    rw [if_pos rfl]
    obtain ⟨n, hn, hu, -⟩ := hM.used
    refine runs_bind ((kAllocMapPage_spec H₁ _ hfl _).and (kAllocMapPage_exact H₁ hfl _)) ?_
    rintro r k₂ ⟨⟨F₂, -, ⟨rfl, -, -, -, hU⟩ | ⟨rfl, -⟩⟩, hstack⟩
    · -- the stack page cannot be mapped
      rw [if_neg Bool.false_ne_true]
      refine runs_pure ⟨fun _ _ => ⟨rfl, n, hn, ?_⟩, fun hno => absurd ?_ (hno edx)⟩
      · rw [hU.used, hu, Function.update_self]
      · refine ⟨fun h => hargs (Or.inr (Or.inl h)), by omega, hentry, by omega, hcode.mp rfl,
          fun h => ?_⟩
        exact Bool.false_ne_true (hstack.mpr ((H.stackMappable H₁ hM).mpr h))
    · rw [if_pos rfl]
      refine runs_pure ⟨fun entry h => ?_, fun _ h => absurd h one_ne_zero⟩
      have hno := h.stack
      rw [hedx h] at hno
      exact absurd ((H.stackMappable H₁ hM).mp (hstack.mp rfl)) hno

end Clean

/-- What the invariant gives. -/
theorem Inv.prepare_half {w : World} {O : ℕ → Prop} {B : Items} {P : Multiset ℕ} (H : Inv w O B P)
    {p : ℕ} (hp : Live w.k p) (source size : ℕ) (image : ℕ → ℕ) :
    Runs (processPrepareTestTask p source size image) w.k fun r k' =>
      (∀ entry, HalfLoads w.k p source size entry →
        r = 0 ∧ ∃ n, w.k.ram.used n = false ∧ k'.ram.used n = true) ∧
      ((∀ entry, ¬HalfLoads w.k p source size entry) → r = 0 →
        SameMemory (w.k.mem p procPageDir) w.k.ram k'.ram) := by
  obtain ⟨rest, -, hsplit⟩ := items_split 0 (H.dir_mem (H.live_iff.mp hp))
  rw [zero_add, zero_add] at hsplit
  have hH := H.holds
  rw [hsplit] at hH
  exact processPrepareTestTask_half hH hp.1

/-- **When a failure is clean.**  After boot and any calls and interrupts, a
call of `process_prepare_test_task` for a live process that returns 0 leaves the
used pages and the translations of the process's directory as they were, if and
only if it is not the case that the code page can be mapped and the stack page
after it cannot. -/
theorem prepare_clean {w₀ w : World} (h₀ : Booted w₀) (h : Reach Careful w₀ w) {p : ℕ}
    (hp : Live w.k p) (source size : ℕ) (image : ℕ → ℕ) :
    (∀ k', (processPrepareTestTask p source size image).run w.k = some (0, k') →
      SameMemory (w.k.mem p procPageDir) w.k.ram k'.ram) ↔
      ∀ entry, ¬HalfLoads w.k p source size entry := by
  obtain ⟨O, B, P, H⟩ := reach_inv h₀ h
  obtain ⟨r, k', hrun, hhalf, hclean⟩ := H.prepare_half hp source size image
  constructor
  · intro hsame entry hl
    obtain ⟨rfl, n, hn, hn'⟩ := hhalf entry hl
    have hu := (hsame k' hrun).used n
    rw [hn, hn'] at hu
    cases hu
  · intro hno k'' hk
    rw [hrun] at hk
    obtain ⟨rfl, rfl⟩ := Prod.mk.inj (Option.some.inj hk)
    exact hclean hno rfl

/-- The first process there is. -/
theorem prepare_clean_first : ∃ w₀ w p, Booted w₀ ∧ Reach Careful w₀ w ∧ Live w.k p ∧
    ((∀ k', (processPrepareTestTask p 1 1 fun _ => 0).run w.k = some (0, k') →
      SameMemory (w.k.mem p procPageDir) w.k.ram k'.ram) ↔
      ∀ entry, ¬HalfLoads w.k p 1 1 entry) := by
  obtain ⟨w₀, _, w, B, P, p, -, -, -, hpop, -, -⟩ := exists_created (n := 0) (by decide)
  have hp : Live w.k p := hpop.inv.live_iff.mpr (Multiset.mem_cons_self p P)
  exact ⟨w₀, w, p, hpop.booted, hpop.reach, hp,
    prepare_clean hpop.booted hpop.reach hp 1 1 fun _ => 0⟩

/-- The process in slot 76 is loaded by half. -/
theorem exists_halfLoads : ∃ w₀ w p entry, Booted w₀ ∧ Reach Careful w₀ w ∧ Live w.k p ∧
    HalfLoads w.k p 1 1 entry := by
  obtain ⟨w₀, _, w, B, P, p, -, -, -, hpop, fresh, -⟩ := exists_created (n := 76) (by decide)
  have hpP := Multiset.mem_cons_self p P
  have hd := hpop.inv.dir_mem hpP
  refine ⟨w₀, w, p, slotBase 76, hpop.booted, hpop.reach, hpop.inv.live_iff.mpr hpP, by decide,
    by decide, fresh.entry, by decide, ?_, ?_⟩
  · refine ⟨by decide, by decide, hpop.room.pages.mono (by decide), ?_⟩
    refine hpop.inv.holds.tableReady hd (by decide) ?_ (hpop.room.tables.mono (by decide))
    rw [hpop.inv.pdes.copy_eq (by decide)]
    decide
  · rw [fresh.base]
    rintro ⟨-, -, -, h | h⟩
    · exact absurd h (by decide)
    · refine hpop.inv.holds.not_tableReady hd (by decide) ?_ h
      rw [hpop.inv.pdes.copy_eq (by decide)]
      decide

theorem not_prepare_clean : ¬∀ w₀ w p, Booted w₀ → Reach Careful w₀ w → Live w.k p →
    ∀ source size image k', (processPrepareTestTask p source size image).run w.k = some (0, k') →
      SameMemory (w.k.mem p procPageDir) w.k.ram k'.ram := by
  intro hall
  obtain ⟨w₀, w, p, entry, h₀, h, hp, hl⟩ := exists_halfLoads
  obtain ⟨O, B, P, H⟩ := reach_inv h₀ h
  obtain ⟨r, k', hrun, hhalf, -⟩ := H.prepare_half hp 1 1 fun _ => 0
  obtain ⟨rfl, n, hn, hn'⟩ := hhalf entry hl
  have hu := (hall w₀ w p h₀ h hp 1 1 _ k' hrun).used n
  rw [hn, hn'] at hu
  cases hu

end VirtualKernel
