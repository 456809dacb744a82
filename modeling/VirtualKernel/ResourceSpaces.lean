/-
Queued tasks and address spaces, as moves of items.

`scheduler_add_process` and `scheduler_remove_process` move one task item;
opening and destroying a page directory move one directory item.  The routines
that fill a directory keep the items and change that directory only.
-/
import VirtualKernel.ResourceSpec

namespace VirtualKernel

open Lib

section Tasks

variable {k k' : Kernel} {O : ℕ → Prop} {T : Items}

/-! ### Queued tasks -/

/-- Adding a selector that is not in the table fails or fills an empty
entry. -/
theorem schedulerAddProcess_cases {s : Sched} {p sel : ℕ}
    (hnew : ∀ i < maxTasks, s.taskTable i ≠ sel % 2 ^ 16) :
    schedulerAddProcess p sel s = (0, s) ∨ sel % 2 ^ 16 ≠ 0 ∧ ∃ i < maxTasks, s.taskTable i = 0 ∧
      schedulerAddProcess p sel s = (1, { s with
        taskTable := Function.update s.taskTable i (sel % 2 ^ 16)
        taskCount := add32 s.taskCount 1 }) := by
  unfold schedulerAddProcess
  dsimp only
  split_ifs with hg
  · exact Or.inl rfl
  split
  · exact Or.inl rfl
  · rename_i i hfind
    obtain ⟨hp, hmem, -⟩ := List.find?_range_eq_some.mp hfind
    have hi : i < maxTasks := List.mem_range.mp hmem
    have hne := hnew i hi
    rw [if_neg hne]
    refine Or.inr ⟨fun h => hg (Or.inr (Or.inl h)), i, hi, ?_, rfl⟩
    simp only [decide_eq_true_eq] at hp
    tauto

/-- Removing a process leaves the other words alone and clears at most the
entry of its selector. -/
theorem schedulerRemoveProcess_cases (p sel : ℕ) (s : Sched) :
    (schedulerRemoveProcess p sel s).2 = s ∨ ∃ i < maxTasks, s.taskTable i = sel % 2 ^ 16 ∧
      i ≠ s.currentIndex ∧ sel % 2 ^ 16 ≠ 0 ∧ (schedulerRemoveProcess p sel s).1 = 1 ∧
      (schedulerRemoveProcess p sel s).2.taskTable = Function.update s.taskTable i 0 ∧
      (schedulerRemoveProcess p sel s).2.kernelTssSelector = s.kernelTssSelector ∧
      (schedulerRemoveProcess p sel s).2.reapProcess = s.reapProcess := by
  unfold schedulerRemoveProcess
  dsimp only
  by_cases hp : p = 0
  · rw [if_pos hp]
    exact Or.inl rfl
  rw [if_neg hp]
  by_cases hdx : sel % 2 ^ 16 = 0
  · rw [if_pos hdx]
    exact Or.inl rfl
  rw [if_neg hdx]
  split
  · exact Or.inl rfl
  · rename_i i hfind
    obtain ⟨hti, hmem, -⟩ := List.find?_range_eq_some.mp hfind
    have hti : s.taskTable i = sel % 2 ^ 16 := by simpa using hti
    have hi : i < maxTasks := List.mem_range.mp hmem
    split_ifs with h1 h2 h3
    · exact Or.inl rfl
    · exact Or.inr ⟨i, hi, hti, h1, hdx, rfl, rfl, rfl, rfl⟩
    · exact Or.inr ⟨i, hi, hti, h1, hdx, rfl, rfl, rfl, rfl⟩
    · exact Or.inr ⟨i, hi, hti, h1, hdx, rfl, rfl, rfl, rfl⟩

/-- The account after the items of the task table have changed. -/
theorem Holds.of_task (H : Holds k O T) {s : Sched} {T' : Items} (hnd : T'.Nodup)
    (ht : TaskHolds s.taskTable T') (hs : SchedOk s k.tr)
    (hT : ∀ x, (∀ v, x ≠ .task v) → (x ∈ T' ↔ x ∈ T)) : Holds { k with sched := s } O T' where
  nodup := hnd
  heap := H.heap.congr fun p => hT _ (by simp)
  ram := by
    have hd : dirsOf T' = dirsOf T := funext fun d => propext (hT _ (by simp))
    rw [hd]
    exact H.ram
  windows := H.windows
  gdt := H.gdt.congr fun i => hT _ (by simp)
  slot := H.slot.congr fun i => hT _ (by simp)
  entry := H.entry.congr fun i p => hT _ (by simp)
  task := ht
  sched := hs

/-- **`scheduler_add_process`** of a process that is not queued. -/
theorem kSchedulerAddProcess_spec (H : Holds k O T) {p sel : ℕ}
    (hsel : k.mem p procTssSelector = sel) (hlt : sel < 2 ^ 16) (hnew : Item.task sel ∉ T) :
    Runs (kSchedulerAddProcess p) k fun eax k' =>
      eax = 0 ∧ k' = k ∨ eax = 1 ∧ Holds k' O (T + {.task sel}) ∧ Frame T k k' ∧
        k'.mem = k.mem ∧ k'.gdt = k.gdt ∧ k'.ram = k.ram := by
  refine runs_modifyGet_bind (runs_modifyGet ?_)
  dsimp only
  have hmod : sel % 2 ^ 16 = sel := Nat.mod_eq_of_lt hlt
  have hfresh : ∀ v i, i < maxTasks → k.sched.taskTable i = v → v ≠ 0 → Item.task v ∈ T :=
    fun v i hi h1 h2 => (H.task.task v h2).mp ⟨i, hi, h1⟩
  have hok := schedulerAddProcess_ok (p := p) H.sched fun i hi hnz he => by
    rw [hmod] at he
    exact hnew (hfresh sel i hi he (by rw [← he]; exact hnz))
  rw [hsel]
  by_cases hz : sel = 0
  · refine Or.inl ⟨?_, ?_⟩ <;> simp [schedulerAddProcess, hz]
  rcases schedulerAddProcess_cases (s := k.sched) (p := p) (fun i hi he => by
    rw [hmod] at he
    exact hnew (hfresh sel i hi he hz)) with h | ⟨hnz, i, hi, hti, h⟩
  · rw [h]
    exact Or.inl ⟨rfl, rfl⟩
  · rw [h] at hok ⊢
    obtain ⟨hok, -, hkeep⟩ := hok
    rw [hmod] at hok hkeep hnz ⊢
    refine Or.inr ⟨rfl, ?_, ?_, rfl, rfl, rfl⟩
    · refine H.of_task (nodup_add_singleton.mpr ⟨H.nodup, hnew⟩) ⟨fun v hv => ?_, fun v hv => ?_⟩ hok
        fun x hx => mem_add_singleton_of_ne (hx sel)
      · rcases mem_add_singleton.mp hv with h | h
        · exact H.task.range v h
        · obtain rfl := Item.task.inj h
          exact ⟨hz, hlt⟩
      · rw [mem_add_singleton, Item.task.injEq, ← H.task.task v hv]
        constructor
        · rintro ⟨j, hj, hjv⟩
          by_cases hji : j = i
          · subst hji
            exact Or.inr (hjv.symm.trans (Function.update_self _ _ _))
          · exact Or.inl ⟨j, hj, (Function.update_of_ne hji _ _).symm.trans hjv⟩
        · rintro (⟨j, hj, hjv⟩ | rfl)
          · refine ⟨j, hj, (Function.update_of_ne ?_ _ _).trans hjv⟩
            rintro rfl
            exact hv (hjv.symm.trans hti)
          · exact ⟨i, hi, Function.update_self _ _ _⟩
    · refine ⟨.refl _ _, fun _ _ => rfl, fun _ _ => rfl, fun j hj hjT => ?_, rfl, rfl, rfl, rfl, rfl⟩
      exact hkeep j (H.task.range _ hjT).1

/-- **`scheduler_remove_process`** of a queued process that is not running. -/
theorem kSchedulerRemoveProcess_spec {p sel : ℕ} (H : Holds k O (T + {.task sel})) (hp : p ≠ 0)
    (hsel : k.mem p procTssSelector = sel) (hrun : k.tr ≠ sel) :
    Runs (kSchedulerRemoveProcess p) k fun eax k' => eax = 1 ∧ Holds k' O T ∧ Frame T k k' ∧
      k'.mem = k.mem ∧ k'.gdt = k.gdt ∧ k'.ram = k.ram := by
  obtain ⟨hnd, hnot⟩ := nodup_add_singleton.mp H.nodup
  have hin : Item.task sel ∈ T + {.task sel} := mem_add_singleton.mpr (Or.inr rfl)
  obtain ⟨hz, hlt⟩ := H.task.range sel hin
  have hmod : sel % 2 ^ 16 = sel := Nat.mod_eq_of_lt hlt
  refine runs_modifyGet_bind (runs_modifyGet ?_)
  dsimp only
  rw [hsel]
  obtain ⟨hok, hcur, -, hret⟩ := schedulerRemoveProcess_ok (p := p) H.sched
  have hne : (schedulerRemoveProcess p sel k.sched).1 ≠ 0 := by
    rw [Ne, hret, hmod]
    rintro (h | ⟨-, h⟩)
    · exact hp h
    · exact hrun h.symm
  rcases schedulerRemoveProcess_cases p sel k.sched with
    hsame | ⟨i, hi, hti, hic, -, hone, htab, hkern, hreap⟩
  · -- the entry is there, so it is found
    exfalso
    obtain ⟨i, hi, hti⟩ := (H.task.task sel hz).mpr hin
    have hfind : ∃ i', (List.range maxTasks).find? (fun i => decide (k.sched.taskTable i = sel)) =
        some i' := by
      rw [← Option.isSome_iff_exists, List.find?_isSome]
      exact ⟨i, List.mem_range.mpr hi, by simpa using hti⟩
    obtain ⟨i', hfind⟩ := hfind
    obtain ⟨hti', -⟩ := List.find?_range_eq_some.mp hfind
    have hti' : k.sched.taskTable i' = sel := by simpa using hti'
    have htab := congrArg Sched.taskTable hsame
    unfold schedulerRemoveProcess at hne htab
    dsimp only at hne htab
    rw [hmod, if_neg hp, if_neg hz, hfind] at hne htab
    dsimp only at hne htab
    by_cases hcuri : i' = k.sched.currentIndex
    · rw [if_pos hcuri] at hne
      exact hne rfl
    · rw [if_neg hcuri] at htab
      have hcl : Function.update k.sched.taskTable i' 0 = k.sched.taskTable := by
        split_ifs at htab <;> exact htab
      have := congrFun hcl i'
      rw [Function.update_self, hti'] at this
      exact hz this.symm
  · rw [hmod] at hti
    refine ⟨hone, ?_, ?_, rfl, rfl, rfl⟩
    · refine H.of_task hnd ⟨fun v hv => H.task.range v (mem_add_singleton.mpr (Or.inl hv)),
        fun v hv => ?_⟩ hok fun x hx => (mem_add_singleton_of_ne (hx sel)).symm
      rw [htab]
      constructor
      · rintro ⟨j, hj, hjv⟩
        by_cases hji : j = i
        · rw [hji, Function.update_self] at hjv
          exact absurd hjv.symm hv
        · rw [Function.update_of_ne hji] at hjv
          refine (mem_add_singleton.mp ((H.task.task v hv).mp ⟨j, hj, hjv⟩)).resolve_right fun h => ?_
          obtain rfl := Item.task.inj h
          exact hji (H.sched.inj j hj i hi (hjv.trans hti.symm) (by rw [hjv]; exact hv))
      · intro hvT
        obtain ⟨j, hj, hjv⟩ := (H.task.task v hv).mpr (mem_add_singleton.mpr (Or.inl hvT))
        refine ⟨j, hj, (Function.update_of_ne ?_ _ _).trans hjv⟩
        rintro rfl
        rw [hti] at hjv
        exact hnot (hjv ▸ hvT)
    · refine ⟨.refl _ _, fun _ _ => rfl, fun _ _ => rfl, fun j hj hjT => ?_, hcur, hkern, hreap, rfl,
        rfl⟩
      dsimp only
      rw [htab]
      refine Function.update_of_ne ?_ _ _
      rintro rfl
      rw [hti] at hjT
      exact hnot hjT

/-- A process that is not queued is not in the way. -/
theorem kSchedulerRemoveProcess_none {p sel : ℕ} (H : Holds k O T) (hp : p ≠ 0)
    (hsel : k.mem p procTssSelector = sel) (hlt : sel < 2 ^ 16) (hnot : Item.task sel ∉ T) :
    Runs (kSchedulerRemoveProcess p) k fun eax k' => eax = 1 ∧ k' = k := by
  have hmod : sel % 2 ^ 16 = sel := Nat.mod_eq_of_lt hlt
  refine runs_modifyGet_bind (runs_modifyGet ?_)
  dsimp only
  rw [hsel]
  have heq : schedulerRemoveProcess p sel k.sched = (1, k.sched) := by
    unfold schedulerRemoveProcess
    dsimp only
    rw [if_neg hp, hmod]
    by_cases hz : sel = 0
    · rw [if_pos hz]
    · rw [if_neg hz]
      have hfind : (List.range maxTasks).find? (fun i => decide (k.sched.taskTable i = sel)) =
          none := by
        refine List.find?_eq_none.mpr fun i hi => ?_
        simp only [decide_eq_true_eq]
        exact fun h => hnot ((H.task.task sel hz).mp ⟨i, List.mem_range.mp hi, h⟩)
      rw [hfind]
  rw [heq]
  exact ⟨rfl, rfl⟩

end Tasks

section Spaces

variable {k k' : Kernel} {O : ℕ → Prop} {T : Items} {r r' : Ram} {D : ℕ → Prop} {c : ℕ}

/-! ### A page into a directory -/

/-- The memory after a new owned page has been mapped at entry `i`, `j` of the
directory `d`. -/
structure PageMapped (O D : ℕ → Prop) (c d i j flags : ℕ) (r r' : Ram) : Prop where
  inv : RamInv r' (fun m => O m ∨ ownedAt r d i j = some m) D none c
  frame : RamFrame (Others D d) r r'
  table : (tableOf r' d i).isSome
  keep : ∀ t, tableOf r d i = some t → tableOf r' d i = some t
  word : ∃ phys, ∀ t, tableOf r' d i = some t → r'.frame t j = userPte phys flags
  pde : ∀ i', i' ≠ i → r'.frame d i' = r.frame d i'
  owned : ∀ i' j', ¬(i' = i ∧ j' = j) → ownedAt r' d i' j' = ownedAt r d i' j'
  used : ∃ n, r.used n = false ∧ r'.used = Function.update r.used n true ∧ Allocatable n ∧
    ownedAt r' d i j = some n

/-- Why no page could be mapped at `virt` of the directory `d`. -/
inductive MapFailure (D : ℕ → Prop) (r : Ram) (d virt : ℕ) : Prop
  | badAddress (h : userSpaceLimit ≤ virt ∨ virt % pageSize ≠ 0)
  | noPage (h : ∀ n, Allocatable n → r.used n = true)
  | supervisor (hp : present (r.frame d (virt / 2 ^ 22)) = true)
      (ht : tableOf r d (virt / 2 ^ 22) = none)
  | noTable (hp : present (r.frame d (virt / 2 ^ 22)) = false) (h : ∀ a, pageTablePoolBase ≤ a →
      a < pageTablePoolEnd → a % pageSize = 0 → ∃ x, NodeAt r D x a)

/-- A page that could not be mapped has been given back. -/
structure Undone (r r' : Ram) : Prop where
  used : r'.used = r.used
  frame : OnlyScratch r r'

/-- **Allocating, filling and mapping one page.** -/
theorem allocMapPage_ram (H : RamInv r O D none c) (W : Windows r) {d : ℕ} (hd : D d)
    (virt : ℕ) {flags : ℕ} (hfl : flags.testBit 9 = true) (f : ℕ → ℕ) :
    (∃ r', allocMapPage d virt flags f r = (false, r') ∧ RamInv r' O D none c ∧ RamFrame D r r' ∧
      MapFailure D r d virt ∧ Undone r r') ∨
    ∃ r', allocMapPage d virt flags f r = (true, r') ∧
      PageMapped O D c d (virt / 2 ^ 22) (virt / 2 ^ 12 % 2 ^ 10) flags r r' := by
  rcases pmmAllocPage_cases H (fun r => (false, r)) (mapNewPage d virt flags f) with
    ⟨h, hfull⟩ | ⟨n, r₁, h, hn, hfree, hused, hf₁, hfl₁, hnx₁, H₁⟩
  · exact Or.inl ⟨r, h, H, .refl _ _, .noPage hfull, rfl, fun _ _ _ _ => rfl⟩
  have h : allocMapPage d virt flags f r = mapNewPage d virt flags f (n * pageSize) r₁ := h
  have F₁ : RamFrame D r r₁ := .of_frame hf₁
  obtain ⟨r₂, hfill, H₂, F₂, hs, hscratch⟩ := fillTempPage_spec H₁ (W.congr F₁) hn f
  have F := F₁.trans F₂
  have hundone : Undone r (pmmFreePage (n * pageSize) r₂) := by
    refine ⟨?_, hscratch.congr hf₁ (pmmFreePage_pending H₂).2⟩
    rw [pmmFreePage, if_neg hn.ne_zero, Nat.mul_div_cancel n (by decide)]
    dsimp only
    rw [hs.used, hused, Function.update_idem, ← hfree, Function.update_eq_self]
  rw [h, mapNewPage, hfill]
  dsimp only
  by_cases hbad : userSpaceLimit ≤ virt ∨ virt % pageSize ≠ 0
  · have hmap : mapUserPage d virt (n * pageSize) flags r₂ = (false, r₂) := if_pos (by tauto)
    rw [hmap]
    obtain ⟨H₃, hf₃⟩ := pmmFreePage_pending H₂
    exact Or.inl ⟨_, rfl, H₃, F.trans (.of_frame hf₃), .badAddress hbad, hundone⟩
  simp only [not_or, not_not, Nat.not_le] at hbad
  obtain ⟨hv, hva⟩ := hbad
  rcases mapUserPage_spec H₂.tables hd flags hv hva (Nat.mul_mod_left n pageSize) with
    ⟨hmap, hwhy⟩ | ⟨r₃, hmap, E⟩
  · rw [hmap]
    obtain ⟨H₃, hf₃⟩ := pmmFreePage_pending H₂
    refine Or.inl ⟨_, rfl, H₃, F.trans (.of_frame hf₃), ?_, hundone⟩
    rw [F.dir d hd, F.tableOf_eq hd] at hwhy
    rcases hwhy with ⟨hp, ht⟩ | ⟨hp, ht⟩
    · exact .supervisor hp ht
    · refine .noTable hp fun a ha1 ha2 ha3 => ?_
      obtain ⟨x, hx⟩ := allocPageTable_full H₂.tables ht ha1 ha2 ha3
      exact ⟨x, (nodeAt_congr F.kernel F.dir x a).mp hx⟩
  · rw [hmap]
    have hword : TableInv.ownedWord (userPte (n * pageSize) flags) = some n := by
      rw [ownedWord_userPte, hfl, hn.pageAddr_eq, Nat.mul_div_cancel n (by decide)]
      rfl
    have hI := H₂.entry_owned hd E hword
    rw [F.ownedAt_eq hd] at hI
    refine Or.inr ⟨r₃, rfl, hI, (F.mono fun _ h => h.1).trans E.frame, E.table,
      fun t ht => E.keep t ((F.tableOf_eq hd _).trans ht), ⟨_, E.word⟩, fun i' hi' => ?_,
      fun i' j' hij => ?_,
      n, hfree, by rw [E.alloc.used, hs.used, hused], hn, ?_⟩
    · rw [E.pde i' hi', F.dir d hd]
    · rw [E.owned d i' j' hd, PageInv.setOwn, if_neg (by tauto), F.ownedAt_eq hd]
    · rw [E.owned d _ _ hd, PageInv.setOwn, if_pos ⟨rfl, rfl, rfl⟩, hword]

/-- `process_install_syscall_gateway` differs only in a case that does not
occur. -/
theorem installGateway_eq (H : RamInv r O D none c) (W : Windows r) (d : ℕ) (f : ℕ → ℕ) :
    installGateway d f r =
      allocMapPage d userSyscallGatewayPage (pagePresentUser ||| pageOwned) f r := by
  rw [installGateway, allocMapPage]
  rcases pmmAllocPage_spec H with ⟨h, -⟩ | ⟨n, r₁, h, hn, -, -, hf₁, -, -, H₁⟩
  · rw [h]
    rfl
  · obtain ⟨r₂, hfill, -⟩ := fillTempPage_spec H₁ (W.congr (D := D) (.of_frame hf₁)) hn f
    rw [h]
    split
    · rename_i heq
      exact absurd (congrArg Prod.fst heq) hn.ne_zero
    · rename_i heq
      obtain ⟨rfl, rfl⟩ := Prod.mk.inj heq
      rw [hfill, mapNewPage, hfill]

/-! ### Directories as items -/

theorem dirsOf_add_dir (T : Items) (d : ℕ) :
    dirsOf (T + {.dir d}) = fun x => dirsOf T x ∨ x = d := by
  funext x
  refine propext (mem_add_singleton.trans (or_congr_right ?_))
  exact ⟨Item.dir.inj, fun h => by rw [h]⟩

theorem others_dirsOf {d : ℕ} (hd : Item.dir d ∉ T) : Others (dirsOf (T + {.dir d})) d = dirsOf T := by
  rw [dirsOf_add_dir]
  funext x
  refine propext ⟨fun h => h.1.resolve_right h.2, fun h => ⟨Or.inl h, ?_⟩⟩
  rintro rfl
  exact hd h

/-- The account after the memory below the heap has changed. -/
theorem Holds.of_ram (H : Holds k O T) {O' : ℕ → Prop} {T' : Items} (hnd : T'.Nodup)
    (hr : RamInv r O' (dirsOf T') none k.heap.committed) (hw : Windows r)
    (hT : ∀ x, (∀ d, x ≠ .dir d) → (x ∈ T' ↔ x ∈ T)) : Holds { k with ram := r } O' T' where
  nodup := hnd
  heap := H.heap.congr fun p => hT _ (by simp)
  ram := hr
  windows := hw
  gdt := H.gdt.congr fun i => hT _ (by simp)
  slot := H.slot.congr fun i => hT _ (by simp)
  entry := H.entry.congr fun i p => hT _ (by simp)
  task := H.task.congr fun v => hT _ (by simp)
  sched := H.sched

theorem Frame.of_ram (h : RamFrame (dirsOf T) k.ram r) : Frame T k { k with ram := r } :=
  ⟨h, fun _ _ => rfl, fun _ _ => rfl, fun _ _ _ => rfl, rfl, rfl, rfl, rfl, rfl⟩

/-- A routine of `Paging` changes nothing but the memory below the heap. -/
def OnlyRam (k k' : Kernel) : Prop := k' = { k with ram := k'.ram }

namespace OnlyRam

theorem mem (h : OnlyRam k k') : k'.mem = k.mem := by rw [h]

theorem gdt (h : OnlyRam k k') : k'.gdt = k.gdt := by rw [h]

theorem sched (h : OnlyRam k k') : k'.sched = k.sched := by rw [h]

theorem tr (h : OnlyRam k k') : k'.tr = k.tr := by rw [h]

theorem drivers (h : OnlyRam k k') : k'.drivers = k.drivers := by rw [h]

end OnlyRam

/-- **`create_page_directory`**: nothing, or one directory without tables. -/
theorem kCreatePageDirectory_spec (H : Holds k O T) :
    Runs (onRam createPageDirectory) k fun res k' =>
      res = none ∧ k' = k ∨ ∃ d, res = some d ∧ d ≠ 0 ∧ Holds k' O (T + {.dir d}) ∧ Frame T k k' ∧
        OnlyRam k k' ∧ ∀ i, tableOf k'.ram d i = none := by
  refine runs_modifyGet ?_
  dsimp only
  rcases createPageDirectory_spec H.ram with ⟨h, -⟩ | ⟨d, r', h, hd, hd0, -, hI, hF, -, hnone⟩
  · rw [h]
    exact Or.inl ⟨rfl, rfl⟩
  · rw [h]
    refine Or.inr ⟨d, rfl, hd0, ?_, Frame.of_ram hF, rfl, hnone⟩
    refine H.of_ram (nodup_add_singleton.mpr ⟨H.nodup, hd⟩) ?_ (H.windows.congr hF)
      fun x hx => mem_add_singleton_of_ne (hx d)
    rw [dirsOf_add_dir]
    exact hI

/-- **`destroy_page_directory`** of a directory that is held. -/
theorem kDestroyPageDirectory_spec {d : ℕ} (H : Holds k O (T + {.dir d})) :
    Runs (onRam fun r => ((), destroyPageDirectory d r)) k fun _ k' =>
      Frame T k k' ∧ Holds k' O T ∧ OnlyRam k k' := by
  obtain ⟨hnd, hd⟩ := nodup_add_singleton.mp H.nodup
  refine runs_modifyGet ?_
  dsimp only
  obtain ⟨hI, hF⟩ := destroyPageDirectory_spec H.ram (mem_add_singleton.mpr (Or.inr rfl))
  rw [others_dirsOf hd] at hI hF
  exact ⟨Frame.of_ram hF, H.of_ram hnd hI (H.windows.congr hF)
    fun x hx => (mem_add_singleton_of_ne (hx d)).symm, rfl⟩

/-- **Mapping one new page** in a directory that is held. -/
theorem kAllocMapPage_spec {d : ℕ} (H : Holds k O (T + {.dir d})) (virt : ℕ) {flags : ℕ}
    (hfl : flags.testBit 9 = true) (f : ℕ → ℕ) :
    Runs (onRam (allocMapPage d virt flags f)) k fun b k' => Frame T k k' ∧ OnlyRam k k' ∧
      (b = false ∧ Holds k' O (T + {.dir d}) ∧ Frame (T + {.dir d}) k k' ∧
          MapFailure (dirsOf (T + {.dir d})) k.ram d virt ∧ Undone k.ram k'.ram ∨
        b = true ∧ Holds k' (fun m => O m ∨
            ownedAt k.ram d (virt / 2 ^ 22) (virt / 2 ^ 12 % 2 ^ 10) = some m) (T + {.dir d}) ∧
          PageMapped O (dirsOf (T + {.dir d})) k.heap.committed d (virt / 2 ^ 22)
            (virt / 2 ^ 12 % 2 ^ 10) flags k.ram k'.ram) := by
  obtain ⟨-, hd⟩ := nodup_add_singleton.mp H.nodup
  have hin : dirsOf (T + {.dir d}) d := mem_add_singleton.mpr (Or.inr rfl)
  refine runs_modifyGet ?_
  dsimp only
  rcases allocMapPage_ram H.ram H.windows hin virt hfl f with
    ⟨r', h, hI, hF, hwhy, hundone⟩ | ⟨r', h, hM⟩
  · rw [h]
    have F : Frame (T + {.dir d}) k { k with ram := r' } := Frame.of_ram hF
    exact ⟨F.left, rfl, Or.inl ⟨rfl, H.of_ram H.nodup hI
      (H.windows.congr hF) fun _ _ => Iff.rfl, F, hwhy, hundone⟩⟩
  · rw [h]
    have hF := hM.frame
    rw [others_dirsOf hd] at hF
    exact ⟨Frame.of_ram hF, rfl, Or.inr ⟨rfl, H.of_ram H.nodup hM.inv
      (H.windows.congr hF) fun _ _ => Iff.rfl, hM⟩⟩

/-- **`v86_map_low_memory`** on a new directory. -/
theorem kV86MapLowMemory_spec {d : ℕ} (H : Holds k O (T + {.dir d}))
    (hnone : ∀ i, tableOf k.ram d i = none) :
    Runs (onRam (v86MapLowMemory d)) k fun b k' =>
      Frame T k k' ∧ OnlyRam k k' ∧ Holds k' O (T + {.dir d}) ∧
        (b = true → LowTaken k.ram d 160 k'.ram) ∧
        (b = false → LowShort (dirsOf (T + {.dir d})) k.ram d) := by
  obtain ⟨-, hd⟩ := nodup_add_singleton.mp H.nodup
  have hin : dirsOf (T + {.dir d}) d := mem_add_singleton.mpr (Or.inr rfl)
  obtain ⟨b, r', h, hI, hF, hok, hfail⟩ := v86MapLowMemory_spec H.ram H.windows hin fun j => by
    rw [ownedAt, hnone]
    rfl
  refine runs_modifyGet ?_
  dsimp only
  rw [h]
  rw [others_dirsOf hd] at hF
  exact ⟨Frame.of_ram hF, rfl, H.of_ram H.nodup hI (H.windows.congr hF)
    fun _ _ => Iff.rfl, hok, hfail⟩

end Spaces

end VirtualKernel
