/-
User mappings are private and can be undone.

The directories that `create_page_directory` makes share the kernel's tables by
reference: only the user bit of a directory entry tells a private table from a shared
one.  `MappingRun` starts with the kernel's directory as `map_page` leaves it and calls
`create_page_directory`, `map_user_page` and `unmap_page` in any order.

* **`tableInv_mapUserPage`** — a call of `map_user_page` on a live directory: it maps one
  page for user access and every other translation stays, or nothing changes;
* **`tableInv_unmapUserPage`** — `unmap_page` behind a user table clears one page;
* **`MappingCalls.supervisor`** — no sequence of calls changes a supervisor translation;
* **`user_mappings_private`** — all of it, for every state of a run.
-/
import VirtualKernel.MapPage
import Mathlib.Logic.Relation

namespace VirtualKernel

open Lib

/-! ### Translations and access -/

/-- A directory whose translations count: a live one or the kernel's. -/
abbrev Space (D : ℕ → Prop) (d : ℕ) : Prop := D d ∨ d = pageDirBase

/-- `PAGE_USER` is set at every level of the walk. -/
def userAccess (d w : ℕ) (r : Ram) : Bool :=
  let pde := r.frame d (w / 2 ^ 22)
  present pde && userBit pde && (psBit pde || userBit (r.frame (pageAddr pde) (pteIndex w)))

/-- User mode may read at `w`: the address is mapped, with `PAGE_USER` at every level. -/
def userReads (d w : ℕ) (r : Ram) : Bool := (getPhysicalAddress d w r).isSome && userAccess d w r

/-- User mode may write at `w`: the write bit is set at every level, too. -/
def userWrites (d w : ℕ) (r : Ram) : Bool :=
  let pde := r.frame d (w / 2 ^ 22)
  userReads d w r && writeBit pde && (psBit pde || writeBit (r.frame (pageAddr pde) (pteIndex w)))

/-- The supervisor translation of an address. -/
def supervisorAddress (d w : ℕ) (r : Ram) : Option ℕ :=
  if userAccess d w r then none else getPhysicalAddress d w r

/-- The two entries that decide the translation of `w` in `d` are the same. -/
structure SameWalk (d w : ℕ) (r r' : Ram) : Prop where
  pde : r'.frame d (w / 2 ^ 22) = r.frame d (w / 2 ^ 22)
  pte : present (r.frame d (w / 2 ^ 22)) = true → psBit (r.frame d (w / 2 ^ 22)) = false →
    r'.frame (pageAddr (r.frame d (w / 2 ^ 22))) (pteIndex w) =
      r.frame (pageAddr (r.frame d (w / 2 ^ 22))) (pteIndex w)

/-- The translation of `w` in `d` is the same, for the kernel and for the user. -/
structure SameAddress (d w : ℕ) (r r' : Ram) : Prop where
  address : getPhysicalAddress d w r' = getPhysicalAddress d w r
  supervisor : supervisorAddress d w r' = supervisorAddress d w r

section Walk

variable {r r' r'' : Ram} {D : ℕ → Prop} {c d w : ℕ}

theorem SameWalk.userAccess (h : SameWalk d w r r') : userAccess d w r' = userAccess d w r := by
  rw [VirtualKernel.userAccess, VirtualKernel.userAccess, h.pde]
  cases hp : present (r.frame d (w / 2 ^ 22)) with
  | false => rfl
  | true =>
    cases hps : psBit (r.frame d (w / 2 ^ 22)) with
    | true => rfl
    | false => rw [h.pte hp hps]

theorem SameWalk.sameAddress (h : SameWalk d w r r') : SameAddress d w r r' := by
  have haddr : getPhysicalAddress d w r' = getPhysicalAddress d w r :=
    getPhysicalAddress_congr h.pde h.pte
  refine ⟨haddr, ?_⟩
  rw [supervisorAddress, supervisorAddress, h.userAccess, haddr]

/-- An address that is mapped for the user or not at all has no supervisor translation. -/
theorem supervisorAddress_user (h : userAccess d w r = true) : supervisorAddress d w r = none :=
  if_pos h

theorem supervisorAddress_none (h : getPhysicalAddress d w r = none) :
    supervisorAddress d w r = none := by
  rw [supervisorAddress, h]
  exact ite_self none

/-- The page behind a present entry is a table of the kernel or a user table of this
directory. -/
theorem table_behind (H : TableInv r D c) (hd : Space D d) (hw : w < 2 ^ 32)
    (hp : present (r.frame d (w / 2 ^ 22)) = true)
    (hps : psBit (r.frame d (w / 2 ^ 22)) = false) :
    ktableOf r (w / 2 ^ 22) = some (pageAddr (r.frame d (w / 2 ^ 22))) ∨
      D d ∧ tableOf r d (w / 2 ^ 22) = some (pageAddr (r.frame d (w / 2 ^ 22))) := by
  have hi : w / 2 ^ 22 < 1024 := by omega
  rcases hd with hd | rfl
  · rcases H.dir_pde d hd _ hi with hcopy | ⟨-, hsome⟩
    · -- the entry is shared with the kernel's directory
      have hsame : r.frame d (w / 2 ^ 22) = r.frame pageDirBase (w / 2 ^ 22) := by
        rw [hcopy] at hp ⊢
        unfold kernelCopy at hp ⊢
        split_ifs at hp ⊢ with h
        · rfl
        · cases hp
      rw [hsame] at hp hps ⊢
      exact Or.inl (ktableOf_eq_some.mpr ⟨hi, hp, hps, rfl⟩)
    · obtain ⟨t, ht⟩ := Option.isSome_iff_exists.mp hsome
      rw [(tableOf_eq_some.mp ht).2.2.2.2]
      exact Or.inr ⟨hd, ht⟩
  · exact Or.inl (ktableOf_eq_some.mpr ⟨hi, hp, hps, rfl⟩)

/-- What a change of memory has to leave alone for a translation to stay. -/
theorem sameWalk_of_frames (H : TableInv r D c) (hd : Space D d) (hw : w < 2 ^ 32)
    (hdir : r'.frame d (w / 2 ^ 22) = r.frame d (w / 2 ^ 22))
    (hktable : ∀ k, ktableOf r (w / 2 ^ 22) = some k →
      r'.frame k (pteIndex w) = r.frame k (pteIndex w))
    (htable : ∀ t, D d → tableOf r d (w / 2 ^ 22) = some t →
      r'.frame t (pteIndex w) = r.frame t (pteIndex w)) : SameWalk d w r r' := by
  refine ⟨hdir, fun hp hps => ?_⟩
  rcases table_behind H hd hw hp hps with hk | ⟨hdd, ht⟩
  · exact hktable _ hk
  · exact htable _ hdd ht

/-- The offset in a page. -/
theorem and_offset_lt (w : ℕ) : w &&& 0xFFF < 0x1000 := by
  rw [show w &&& 0xFFF = w % 2 ^ 12 from Nat.and_two_pow_sub_one_eq_mod w 12]
  exact Nat.mod_lt _ (by decide)

/-- A live directory is not the null pointer. -/
theorem dir_ne_zero (H : TableInv r D c) (hd : D d) : d ≠ 0 := by
  have h := (H.node_bounds (x := .dir d) ⟨hd, rfl⟩).1
  simp only [pageTablePoolBase] at h
  omega

/-- The translation and the access behind a user table. -/
theorem address_of_table {t e : ℕ} (hd : d ≠ 0) (ht : tableOf r d (w / 2 ^ 22) = some t)
    (he : r.frame t (pteIndex w) = e) :
    getPhysicalAddress d w r =
        (if present e = true then some (pageAddr e ||| (w &&& 0xFFF)) else none) ∧
      userAccess d w r = userBit e := by
  obtain ⟨-, hp, hu, hps, rfl⟩ := tableOf_eq_some.mp ht
  refine ⟨getPhysicalAddress_table hd hp hps he, ?_⟩
  rw [userAccess, hp, hu, hps, he]
  rfl

end Walk

/-! ### One entry of a user table -/

section Entry

variable {r : Ram} {D : ℕ → Prop} {c pd v t e : ℕ}

/-- Writing the entry of one page leaves every other translation alone. -/
theorem setPte_others (H : TableInv r D c) (hpd : D pd)
    (ht : tableOf r pd (v / 2 ^ 22) = some t) {d w : ℕ} (hd : Space D d) (hw : w < 2 ^ 32)
    (hother : ¬(d = pd ∧ w / pageSize = v / pageSize)) :
    SameAddress d w r (r.setWord t (pteIndex v) e) := by
  refine SameWalk.sameAddress (sameWalk_of_frames H hd hw ?_ ?_ ?_)
  · have hne : d ≠ t := by
      rcases hd with hd | rfl
      · exact (H.table_ne_dir hpd hd ht).symm
      · exact (H.node_ne_pageDirBase (x := .table pd (v / 2 ^ 22)) ⟨hpd, ht⟩).symm
    rw [Ram.frame_setWord_of_ne r _ _ hne]
  · intro k hk
    rw [Ram.frame_setWord_of_ne r _ _ (H.table_ne_ktable hpd ht hk).symm]
  · intro t' hdd ht'
    by_cases htt : t' = t
    · -- the same table: another entry of it
      subst htt
      obtain ⟨hdir, hi⟩ := H.table_inj hpd hdd ht ht'
      have hj : pteIndex w ≠ pteIndex v := fun hj => hother ⟨hdir, same_page_iff.mpr ⟨hi, hj⟩⟩
      rw [Ram.frame_setWord_self, Function.update_of_ne hj]
    · rw [Ram.frame_setWord_of_ne r _ _ htt]

/-- The translation of the page whose entry has been written. -/
theorem setPte_page (H : TableInv r D c) (hpd : D pd) (ht : tableOf r pd (v / 2 ^ 22) = some t)
    {w : ℕ} (hw : w / pageSize = v / pageSize) :
    getPhysicalAddress pd w (r.setWord t (pteIndex v) e) =
        (if present e = true then some (pageAddr e ||| (w &&& 0xFFF)) else none) ∧
      userAccess pd w (r.setWord t (pteIndex v) e) = userBit e := by
  obtain ⟨hi, hj⟩ := same_page_iff.mp hw
  have hne : pd ≠ t := (H.table_ne_dir hpd hpd ht).symm
  have ht' : tableOf (r.setWord t (pteIndex v) e) pd (w / 2 ^ 22) = some t := by
    rw [hi, tableOf_congr (Ram.frame_setWord_of_ne r _ _ hne), ht]
  refine address_of_table (dir_ne_zero H hpd) ht' ?_
  rw [hj, Ram.frame_setWord_self, Function.update_self]

/-- A page behind a user table has no supervisor translation. -/
theorem supervisorAddress_table (H : TableInv r D c) (hpd : D pd)
    (ht : tableOf r pd (v / 2 ^ 22) = some t) {w : ℕ} (hw : w / 2 ^ 22 = v / 2 ^ 22) :
    supervisorAddress pd w r = none := by
  have hj : pteIndex w < 1024 := Nat.mod_lt _ (by decide)
  rw [← hw] at ht
  obtain ⟨haddr, hacc⟩ := address_of_table (dir_ne_zero H hpd) ht rfl
  rcases H.user_pte pd _ t hpd ht _ hj with hzero | ⟨-, huser⟩
  · rw [hzero] at haddr
    exact supervisorAddress_none haddr
  · exact supervisorAddress_user (hacc.trans huser)

end Entry

/-! ### What the calls do -/

/-- From `r` to `r'` only the page of `v` in `pd` was mapped or unmapped; no supervisor
translation changed. -/
structure OtherPages (D : ℕ → Prop) (pd v : ℕ) (r r' : Ram) : Prop where
  address : ∀ d w, Space D d → w < 2 ^ 32 → ¬(d = pd ∧ w / pageSize = v / pageSize) →
    getPhysicalAddress d w r' = getPhysicalAddress d w r
  supervisor : ∀ d w, Space D d → w < 2 ^ 32 →
    supervisorAddress d w r' = supervisorAddress d w r

/-- `map_user_page(pd, v, p, flags)` has mapped the page of `v` to `p`. -/
structure MapsUserPage (D : ℕ → Prop) (pd v p : ℕ) (r r' : Ram) : Prop where
  page : ∀ w < 2 ^ 32, w / pageSize = v / pageSize →
    getPhysicalAddress pd w r' = some (p + w % pageSize) ∧ userAccess pd w r' = true
  others : OtherPages D pd v r r'

/-- `unmap_page(pd, v)` has unmapped the page of `v`. -/
structure UnmapsUserPage (D : ℕ → Prop) (pd v : ℕ) (r r' : Ram) : Prop where
  page : ∀ w < 2 ^ 32, w / pageSize = v / pageSize → getPhysicalAddress pd w r' = none
  others : OtherPages D pd v r r'

section Calls

variable {r r₁ : Ram} {D : ℕ → Prop} {c pd v p t : ℕ}

/-- Writing a user entry, or clearing it, behind a user table. -/
theorem setPte_otherPages (H : TableInv r D c) (hpd : D pd)
    (ht : tableOf r pd (v / 2 ^ 22) = some t) {e : ℕ}
    (he : e = 0 ∨ present e = true ∧ userBit e = true) :
    TableInv (r.setWord t (pteIndex v) e) D c ∧
      (∀ d, D d → (r.setWord t (pteIndex v) e).frame d = r.frame d) ∧
      OtherPages D pd v r (r.setWord t (pteIndex v) e) := by
  have hj : pteIndex v < 1024 := Nat.mod_lt _ (by decide)
  have H' := (H.setPte hpd ht hj he).1
  have hdirs : ∀ d, D d → (r.setWord t (pteIndex v) e).frame d = r.frame d :=
    fun d hd => Ram.frame_setWord_of_ne r _ _ (H.table_ne_dir hpd hd ht).symm
  have ht' : tableOf (r.setWord t (pteIndex v) e) pd (v / 2 ^ 22) = some t := by
    rw [tableOf_congr (hdirs pd hpd), ht]
  refine ⟨H', hdirs, ?_, ?_⟩
  · intro d w hd hw hother
    exact (setPte_others H hpd ht hd hw hother).address
  · intro d w hd hw
    by_cases hpage : d = pd ∧ w / pageSize = v / pageSize
    · obtain ⟨rfl, hpage⟩ := hpage
      have hi := (same_page_iff.mp hpage).1
      rw [supervisorAddress_table H' hpd ht' hi, supervisorAddress_table H hpd ht hi]
    · exact (setPte_others H hpd ht hd hw hpage).supervisor

/-- A new user table, still empty, changes no translation. -/
theorem linkTable_sameAddress (H : TableInv r D c) (F : FreshTable r D t r₁) (hpd : D pd) {i : ℕ}
    (hi : i < 512) (habs : present (r.frame pd i) = false) {d w : ℕ} (hd : Space D d)
    (hw : w < 2 ^ 32) : SameAddress d w r (r₁.setWord pd i (t ||| pagePresentRwUser)) := by
  obtain ⟨-, hlink, -⟩ := H.linkTable F hpd hi habs
  set r₂ := r₁.setWord pd i (t ||| pagePresentRwUser) with hr₂
  have hnew : r₂.frame t = fun _ => 0 := by
    rw [hr₂, Ram.frame_setWord_of_ne r₁ _ _ (F.ne_dir hpd), F.frame_self]
  by_cases hentry : d = pd ∧ w / 2 ^ 22 = i
  · -- nothing was mapped behind the absent entry, and nothing is behind the empty table
    obtain ⟨rfl, rfl⟩ := hentry
    have hbefore : getPhysicalAddress d w r = none := getPhysicalAddress_absent habs
    have hafter : getPhysicalAddress d w r₂ = none :=
      (address_of_table (dir_ne_zero H hpd) hlink (congrFun hnew _)).1
    refine ⟨hafter.trans hbefore.symm, ?_⟩
    rw [supervisorAddress_none hafter, supervisorAddress_none hbefore]
  · -- every other walk meets neither the entry written nor the new table
    have hkeep : ∀ a, a ≠ pd → a ≠ t → r₂.frame a = r.frame a := by
      intro a hap hat
      rw [hr₂, Ram.frame_setWord_of_ne r₁ _ _ hap, F.frame_of_ne hat]
    refine SameWalk.sameAddress (sameWalk_of_frames H hd hw ?_ ?_ ?_)
    · by_cases hdp : d = pd
      · subst hdp
        have hiw : w / 2 ^ 22 ≠ i := fun h => hentry ⟨rfl, h⟩
        rw [hr₂, Ram.frame_setWord_self, Function.update_of_ne hiw,
          F.frame_of_ne (F.ne_dir hpd).symm]
      · have hdt : d ≠ t := by
          rcases hd with hd | rfl
          · exact (F.ne_dir hd).symm
          · exact F.ne_pageDirBase.symm
        rw [hkeep d hdp hdt]
    · intro k hk
      have hkd : k ≠ pd := by
        rintro rfl
        have h := H.node_inj (x := .ktable (w / 2 ^ 22)) (y := .dir k) hk ⟨hpd, rfl⟩
        cases h
      rw [hkeep k hkd (F.ne_ktable hk).symm]
    · intro t' hdd ht'
      rw [hkeep t' (H.table_ne_dir hdd hpd ht') (F.ne_table hdd ht').symm]

/-- A new directory changes no translation of the others. -/
theorem openDir_sameAddress (H : TableInv r D c) (F : FreshTable r D t r₁) (f : ℕ → ℕ) {d w : ℕ}
    (hd : Space D d) (hw : w < 2 ^ 32) : SameAddress d w r (r₁.setPage t f) := by
  have hkeep : ∀ a, a ≠ t → (r₁.setPage t f).frame a = r.frame a := by
    intro a hat
    rw [Ram.frame_setPage_of_ne r₁ _ hat, F.frame_of_ne hat]
  refine SameWalk.sameAddress (sameWalk_of_frames H hd hw ?_ ?_ ?_)
  · have hdt : d ≠ t := by
      rcases hd with hd | rfl
      · exact (F.ne_dir hd).symm
      · exact F.ne_pageDirBase.symm
    rw [hkeep d hdt]
  · intro k hk
    rw [hkeep k (F.ne_ktable hk).symm]
  · intro t' hdd ht'
    rw [hkeep t' (F.ne_table hdd ht').symm]

/-- A user entry that has been written maps its page. -/
theorem setPte_maps (H : TableInv r D c) (hpd : D pd) (ht : tableOf r pd (v / 2 ^ 22) = some t)
    (hp : p % pageSize = 0) (hp32 : p < 2 ^ 32) (flags : ℕ) :
    MapsUserPage D pd v p r (r.setWord t (pteIndex v) (userPte p flags)) := by
  obtain ⟨hb1, hb2, -, hb4⟩ := userPte_bits p flags
  refine ⟨fun w _ hpage => ?_, (setPte_otherPages H hpd ht (Or.inr ⟨hb1, hb2⟩)).2.2⟩
  obtain ⟨haddr, hacc⟩ := setPte_page (e := userPte p flags) H hpd ht hpage
  rw [if_pos hb1, hb4, pageAddr_of_aligned hp hp32, or_offset hp] at haddr
  exact ⟨haddr, hacc.trans hb2⟩

/-- **`map_user_page`** on a live directory. -/
theorem tableInv_mapUserPage (H : TableInv r D c) (hpd : D pd) (hp32 : p < 2 ^ 32) (flags : ℕ) :
    mapUserPage pd v p flags r = (false, r) ∨
      ∃ r', mapUserPage pd v p flags r = (true, r') ∧ TableInv r' D c ∧
        (tableOf r' pd (v / 2 ^ 22)).isSome ∧
        (∀ d i, D d → (tableOf r d i).isSome → (tableOf r' d i).isSome) ∧
        p % pageSize = 0 ∧ MapsUserPage D pd v p r r' := by
  obtain ⟨hb1, hb2, -, -⟩ := userPte_bits p flags
  have hword : userPte p flags = 0 ∨
      present (userPte p flags) = true ∧ userBit (userPte p flags) = true := Or.inr ⟨hb1, hb2⟩
  rw [mapUserPage]
  by_cases hguard : pd = 0 ∨ userSpaceLimit ≤ v ∨ v % pageSize ≠ 0 ∨ p % pageSize ≠ 0
  · rw [if_pos hguard]
    exact Or.inl rfl
  rw [if_neg hguard]
  obtain ⟨hv, hp⟩ : v < userSpaceLimit ∧ p % pageSize = 0 := by omega
  have hi : v / 2 ^ 22 < 512 := by
    simp only [userSpaceLimit] at hv
    omega
  -- a table that is there, or a new one behind the absent entry
  by_cases hpde : present (r.frame pd (v / 2 ^ 22)) = true
  · rw [if_pos hpde]
    by_cases hsup : psBit (r.frame pd (v / 2 ^ 22)) = true ∨
        ¬userBit (r.frame pd (v / 2 ^ 22)) = true
    · rw [if_pos hsup]
      exact Or.inl rfl
    · rw [if_neg hsup]
      obtain ⟨hps, hus⟩ := not_or.mp hsup
      have ht : tableOf r pd (v / 2 ^ 22) = some (pageAddr (r.frame pd (v / 2 ^ 22))) :=
        if_pos ⟨hi, hpde, not_not.mp hus, hps⟩
      obtain ⟨H', hdirs, -⟩ := setPte_otherPages H hpd ht hword
      have htables : ∀ d i, D d → tableOf (r.setWord (pageAddr (r.frame pd (v / 2 ^ 22)))
          (pteIndex v) (userPte p flags)) d i = tableOf r d i :=
        fun d i hd => tableOf_congr (hdirs d hd) i
      refine Or.inr ⟨r.setWord (pageAddr (r.frame pd (v / 2 ^ 22))) (pteIndex v)
        (userPte p flags), rfl, H', ?_, fun d i hd h => ?_, hp, setPte_maps H hpd ht hp hp32 flags⟩
      · rw [htables pd _ hpd, ht]
        rfl
      · rw [htables d i hd]
        exact h
  · rw [if_neg hpde]
    have habs : present (r.frame pd (v / 2 ^ 22)) = false := Bool.eq_false_of_not_eq_true hpde
    rcases allocPageTable_spec H with ⟨hnone, -, -⟩ | ⟨t, r₁, hsome, F⟩
    · rw [hnone]
      exact Or.inl rfl
    rw [hsome]
    obtain ⟨H₂, ht₂, hframe, -⟩ := H.linkTable F hpd hi habs
    -- linking the table changes no translation; the entry in it then maps one page
    have hsame := fun d w => linkTable_sameAddress (d := d) (w := w) H F hpd hi habs
    set r₂ := r₁.setWord pd (v / 2 ^ 22) (t ||| pagePresentRwUser) with hr₂
    obtain ⟨H', hdirs, -⟩ := setPte_otherPages H₂ hpd ht₂ hword
    have hmaps := setPte_maps H₂ hpd ht₂ hp hp32 flags
    refine Or.inr ⟨r₂.setWord t (pteIndex v) (userPte p flags), rfl, H', ?_, fun d i hd h => ?_,
      hp, ⟨hmaps.page, ?_, ?_⟩⟩
    · rw [tableOf_congr (hdirs pd hpd), ht₂]
      rfl
    · rw [tableOf_congr (hdirs d hd)]
      by_cases hentry : d = pd ∧ i = v / 2 ^ 22
      · rw [hentry.1, hentry.2, ht₂]
        rfl
      · by_cases hdp : d = pd
        · subst hdp
          have hiv : i ≠ v / 2 ^ 22 := fun hiv => hentry ⟨rfl, hiv⟩
          have hword : r₂.frame d i = r.frame d i := by
            rw [hr₂, Ram.frame_setWord_self, Function.update_of_ne hiv,
              F.frame_of_ne (F.ne_dir hpd).symm]
          rw [tableOf, hword]
          exact h
        · rw [hframe.tableOf_eq ⟨hd, hdp⟩]
          exact h
    · intro d w hd hw hother
      exact (hmaps.others.address d w hd hw hother).trans (hsame d w hd hw).address
    · intro d w hd hw
      exact (hmaps.others.supervisor d w hd hw).trans (hsame d w hd hw).supervisor

/-- An allocation that fails changes nothing. -/
theorem allocPageTable_fails (h : (allocPageTable r).1 = none) : (allocPageTable r).2 = r := by
  rw [allocPageTable] at h ⊢
  by_cases hlist : r.pageTableFreeList ≠ 0
  · rw [if_pos hlist] at h
    cases h
  · rw [if_neg hlist] at h ⊢
    by_cases hend : pageTablePoolEnd ≤ r.pageTableNext
    · rw [if_pos hend]
    · rw [if_neg hend] at h
      cases h

/-- A call that fails changes nothing, whatever its arguments. -/
theorem mapUserPage_fails {flags : ℕ} (h : (mapUserPage pd v p flags r).1 = false) :
    (mapUserPage pd v p flags r).2 = r := by
  rw [mapUserPage] at h ⊢
  by_cases hguard : pd = 0 ∨ userSpaceLimit ≤ v ∨ v % pageSize ≠ 0 ∨ p % pageSize ≠ 0
  · rw [if_pos hguard]
  rw [if_neg hguard] at h ⊢
  by_cases hpde : present (r.frame pd (v / 2 ^ 22)) = true
  · rw [if_pos hpde] at h ⊢
    by_cases hsup : psBit (r.frame pd (v / 2 ^ 22)) = true ∨
        ¬userBit (r.frame pd (v / 2 ^ 22)) = true
    · rw [if_pos hsup]
    · rw [if_neg hsup] at h
      cases h
  · rw [if_neg hpde] at h ⊢
    have hfails := allocPageTable_fails (r := r)
    rcases halloc : allocPageTable r with ⟨_ | t, r₁⟩
    · rw [halloc] at hfails
      exact hfails rfl
    · rw [halloc] at h
      cases h

/-- **`unmap_page`** on an address behind a user table: the result is the page that was
mapped. -/
theorem tableInv_unmapUserPage (H : TableInv r D c) (hpd : D pd)
    (htable : (tableOf r pd (v / 2 ^ 22)).isSome) :
    ∃ r', unmapPage pd v r = ((getPhysicalAddress pd v r).map pageAddr, r') ∧
      TableInv r' D c ∧ (∀ d, D d → r'.frame d = r.frame d) ∧ UnmapsUserPage D pd v r r' := by
  obtain ⟨t, ht⟩ := Option.isSome_iff_exists.mp htable
  obtain ⟨-, hpde, -, hps, haddr⟩ := tableOf_eq_some.mp ht
  have hd0 := dir_ne_zero H hpd
  set e := r.frame t (pteIndex v) with he
  have hgpa := (address_of_table hd0 ht he.symm).1
  have hguard : ¬(pd = 0 ∨ ¬present (r.frame pd (v / 2 ^ 22)) = true ∨
      psBit (r.frame pd (v / 2 ^ 22)) = true) := by
    rw [hpde, hps]
    simp [hd0]
  have hdef : unmapPage pd v r = if ¬present e = true then (none, r)
      else (some (pageAddr e), r.setWord t (pteIndex v) 0) := by
    rw [unmapPage]
    dsimp only
    rw [if_neg hguard, haddr]
  by_cases hpe : present e = true
  · rw [if_neg (not_not.mpr hpe)] at hdef
    obtain ⟨H', hdirs, hothers⟩ := setPte_otherPages H hpd ht (e := 0) (Or.inl rfl)
    refine ⟨_, ?_, H', hdirs, fun w _ hpage => ?_, hothers⟩
    · rw [hdef, hgpa, if_pos hpe, Option.map_some, pageAddr_or _ (and_offset_lt v),
        pageAddr_of_aligned (pageAddr_aligned e) (pageAddr_lt e)]
    · exact (setPte_page (e := 0) H hpd ht hpage).1
  · -- the page had been unmapped before
    rw [if_pos hpe] at hdef
    refine ⟨r, ?_, H, fun _ _ => rfl, fun w _ hpage => ?_, fun _ _ _ _ _ => rfl, fun _ _ _ _ => rfl⟩
    · rw [hdef, hgpa, if_neg hpe]
      rfl
    · obtain ⟨hi, hj⟩ := same_page_iff.mp hpage
      rw [← hi] at ht
      have h := (address_of_table (w := w) hd0 ht (by rw [hj])).1
      rw [h, if_neg hpe]

end Calls

/-! ### Runs -/

/-- The memory, the directories that `create_page_directory` has made, and the pages
that `map_user_page` has mapped at some time. -/
structure AddressSpaces where
  ram : Ram
  dirs : ℕ → Prop
  mapped : ℕ → ℕ → Prop

/-- One call.  `pmm` stands for any change of the allocator of physical pages. -/
inductive MappingCall : AddressSpaces → AddressSpaces → Prop
  | create {s : AddressSpaces} : MappingCall s
      { s with ram := (createPageDirectory s.ram).2
               dirs := fun d => s.dirs d ∨ (createPageDirectory s.ram).1 = some d }
  | map {s : AddressSpaces} {pd v p flags : ℕ} : s.dirs pd → v < 2 ^ 32 → p < 2 ^ 32 →
      MappingCall s
        { s with ram := (mapUserPage pd v p flags s.ram).2
                 mapped := fun d n => s.mapped d n ∨
                   (mapUserPage pd v p flags s.ram).1 = true ∧ d = pd ∧ n = v / pageSize }
  | unmap {s : AddressSpaces} {pd v : ℕ} : s.mapped pd (v / pageSize) → v < 2 ^ 32 →
      MappingCall s { s with ram := (unmapPage pd v s.ram).2 }
  | pmm {s : AddressSpaces} (used : ℕ → Bool) (next : ℕ) :
      MappingCall s { s with ram := { s.ram with used := used, pmmNextPage := next } }

/-- Any number of calls. -/
abbrev MappingCalls : AddressSpaces → AddressSpaces → Prop := Relation.ReflTransGen MappingCall

/-- From the kernel's own directory, as `map_page` leaves it, on. -/
def MappingRun (s : AddressSpaces) : Prop :=
  ∃ r, MapRun SmallEntries r ∧ MappingCalls ⟨r, NoDirs, fun _ _ => False⟩ s

/-- The invariant of a run. -/
structure SpacesOk (s : AddressSpaces) : Prop where
  tables : TableInv s.ram s.dirs (kheapBase + 2 ^ 22)
  mapped : ∀ pd n, s.mapped pd n → s.dirs pd ∧ (tableOf s.ram pd (n / 2 ^ 10)).isSome

section Runs

variable {s s' : AddressSpaces}

/-- The entry of the directory behind the number of a page. -/
theorem page_pde (v : ℕ) : v / pageSize / 2 ^ 10 = v / 2 ^ 22 := by
  simp only [pageSize]
  omega

/-- What a call leaves alone. -/
structure KeepsSpaces (s s' : AddressSpaces) : Prop where
  ok : SpacesOk s'
  dirs : ∀ d, s.dirs d → s'.dirs d
  supervisor : ∀ d w, Space s.dirs d → w < 2 ^ 32 →
    supervisorAddress d w s'.ram = supervisorAddress d w s.ram

/-- **One call.** -/
theorem MappingCall.keeps (h : MappingCall s s') (H : SpacesOk s) : KeepsSpaces s s' := by
  cases h with
  | create =>
    rcases allocPageTable_spec H.tables with ⟨hnone, -, -⟩ | ⟨t, r₁, hsome, F⟩
    · -- no page left for a directory
      have hrun : createPageDirectory s.ram = (none, s.ram) := by
        rw [createPageDirectory, hnone]
      have hdirs : (fun d => s.dirs d ∨ (createPageDirectory s.ram).1 = some d) = s.dirs := by
        funext d
        rw [hrun]
        simp
      constructor
      · rw [hdirs, hrun]
        exact H
      · exact fun d hd => Or.inl hd
      · intro d w _ _
        rw [hrun]
    · -- the new directory has the kernel half and no user table
      have hrun : createPageDirectory s.ram = (some t, r₁.setPage t fun i =>
          if i < 1024 then kernelCopy r₁ i else r₁.frame t i) := by
        rw [createPageDirectory, hsome]
      have hdirs : (fun d => s.dirs d ∨ (createPageDirectory s.ram).1 = some d) =
          fun d => s.dirs d ∨ d = t := by
        funext d
        rw [hrun]
        simp [eq_comm]
      obtain ⟨Hopen, hframe, -⟩ := H.tables.openDir F
      constructor
      · rw [hdirs, hrun]
        refine ⟨Hopen, fun pd n hmap => ?_⟩
        obtain ⟨hpd, ht⟩ := H.mapped pd n hmap
        refine ⟨Or.inl hpd, ?_⟩
        rw [hframe.tableOf_eq hpd]
        exact ht
      · exact fun d hd => Or.inl hd
      · intro d w hd hw
        rw [hrun]
        exact (openDir_sameAddress H.tables F _ hd hw).supervisor
  | @map pd v p flags hpd hv hp =>
    rcases tableInv_mapUserPage (v := v) H.tables hpd hp flags with
      hrun | ⟨r', hrun, H', htable, htables, -, hmaps⟩
    · rw [hrun]
      refine ⟨⟨H.tables, fun d n hmap => H.mapped d n ?_⟩, fun d hd => hd, fun _ _ _ _ => rfl⟩
      rcases hmap with hmap | ⟨hfalse, -⟩
      · exact hmap
      · cases hfalse
    · rw [hrun]
      refine ⟨⟨H', fun d n hmap => ?_⟩, fun d hd => hd, hmaps.others.supervisor⟩
      rcases hmap with hmap | ⟨-, rfl, rfl⟩
      · obtain ⟨hd, ht⟩ := H.mapped d n hmap
        exact ⟨hd, htables d _ hd ht⟩
      · rw [page_pde]
        exact ⟨hpd, htable⟩
  | @unmap pd v hmapped hv =>
    obtain ⟨hpd, htable⟩ := H.mapped pd _ hmapped
    rw [page_pde] at htable
    obtain ⟨r', hrun, H', hdirs, hunmaps⟩ := tableInv_unmapUserPage H.tables hpd htable
    rw [hrun]
    refine ⟨⟨H', fun d n hmap => ?_⟩, fun d hd => hd, hunmaps.others.supervisor⟩
    obtain ⟨hd, ht⟩ := H.mapped d n hmap
    refine ⟨hd, ?_⟩
    rw [tableOf_congr (hdirs d hd)]
    exact ht
  | pmm used next =>
    exact ⟨⟨H.tables.congr_frame rfl rfl rfl, H.mapped⟩, fun d hd => hd, fun _ _ _ _ => rfl⟩

/-- **Any number of calls.** -/
theorem MappingCalls.keeps (h : MappingCalls s s') (H : SpacesOk s) : KeepsSpaces s s' := by
  induction h with
  | refl => exact ⟨H, fun _ hd => hd, fun _ _ _ _ => rfl⟩
  | @tail s₁ s₂ _ hcall ih =>
    have K := hcall.keeps ih.ok
    refine ⟨K.ok, fun d hd => K.dirs d (ih.dirs d hd), fun d w hd hw => ?_⟩
    have hd₁ : Space s₁.dirs d := hd.imp (ih.dirs d) id
    exact (K.supervisor d w hd₁ hw).trans (ih.supervisor d w hd hw)

theorem MappingRun.ok (h : MappingRun s) : SpacesOk s := by
  obtain ⟨r, hrun, hcalls⟩ := h
  have hstart : SpacesOk ⟨r, NoDirs, fun _ _ => False⟩ :=
    ⟨hrun.inv.tables, fun _ _ hmap => hmap.elim⟩
  exact (MappingCalls.keeps hcalls hstart).ok

/-- **User mappings are private and can be undone**, in every state that calls of
`create_page_directory`, `map_user_page` and `unmap_page` reach. -/
theorem user_mappings_private (h : MappingRun s) :
    (∀ pd v p flags, s.dirs pd → v < 2 ^ 32 → p < 2 ^ 32 →
      (mapUserPage pd v p flags s.ram).1 = true →
        MapsUserPage s.dirs pd v p s.ram (mapUserPage pd v p flags s.ram).2 ∧
        (unmapPage pd v (mapUserPage pd v p flags s.ram).2).1 = some p ∧
        UnmapsUserPage s.dirs pd v (mapUserPage pd v p flags s.ram).2
          (unmapPage pd v (mapUserPage pd v p flags s.ram).2).2) ∧
    (∀ pd v p flags, (mapUserPage pd v p flags s.ram).1 = false →
      (mapUserPage pd v p flags s.ram).2 = s.ram) ∧
    (∀ pd v, s.mapped pd (v / pageSize) → v < 2 ^ 32 →
      (unmapPage pd v s.ram).1 = (getPhysicalAddress pd v s.ram).map pageAddr ∧
        UnmapsUserPage s.dirs pd v s.ram (unmapPage pd v s.ram).2) ∧
    ∀ s', MappingCalls s s' → ∀ d w, Space s.dirs d → w < 2 ^ 32 →
      supervisorAddress d w s'.ram = supervisorAddress d w s.ram := by
  have H := h.ok
  refine ⟨?_, ?_, ?_, ?_⟩
  · intro pd v p flags hpd hv hp hsuccess
    rcases tableInv_mapUserPage (v := v) H.tables hpd hp flags with
      hrun | ⟨r', hrun, H', htable, -, haligned, hmaps⟩
    · rw [hrun] at hsuccess
      cases hsuccess
    · rw [hrun]
      obtain ⟨r'', hrun', -, -, hunmaps⟩ := tableInv_unmapUserPage H' hpd htable
      rw [hrun', (hmaps.page v hv rfl).1, Option.map_some, ← or_offset haligned,
        pageAddr_or _ (and_offset_lt v), pageAddr_of_aligned haligned hp]
      exact ⟨hmaps, rfl, hunmaps⟩
  · intro pd v p flags hfail
    exact mapUserPage_fails hfail
  · intro pd v hmapped _
    obtain ⟨hpd, htable⟩ := H.mapped pd _ hmapped
    rw [page_pde] at htable
    obtain ⟨r', hrun, -, -, hunmaps⟩ := tableInv_unmapUserPage H.tables hpd htable
    rw [hrun]
    exact ⟨rfl, hunmaps⟩
  · intro s' hcalls
    exact (MappingCalls.keeps hcalls H).supervisor

end Runs

/-- The first directory after booting. -/
def firstDirectory : AddressSpaces where
  ram := (createPageDirectory bootRam).2
  dirs := fun d => NoDirs d ∨ (createPageDirectory bootRam).1 = some d
  mapped := fun _ _ => False

theorem firstDirectory_run : MappingRun firstDirectory :=
  ⟨bootRam, bootRam_run, Relation.ReflTransGen.single MappingCall.create⟩

/-- Its first user page. -/
theorem user_mappings_private_firstDirectory :
    (createPageDirectory bootRam).1 = some pageTablePoolBase ∧
    MapsUserPage firstDirectory.dirs pageTablePoolBase mainRamStart 0x200000 firstDirectory.ram
      (mapUserPage pageTablePoolBase mainRamStart 0x200000 pagePresentRwUser firstDirectory.ram).2 :=
  ⟨rfl, ((user_mappings_private firstDirectory_run).1 _ _ _ pagePresentRwUser (Or.inr rfl)
    (by decide) (by decide) rfl).1⟩

end VirtualKernel
