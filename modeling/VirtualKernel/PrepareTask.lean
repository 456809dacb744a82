/-
Loading an image into a process that has just been created.

`process_prepare_test_task` maps the code page at the base of the slot and the
stack page below the top of its stack segment.  Slots 76 and 77 reach into the
4 MiB at `30000000h`, where the bootstrap has a supervisor entry that
`create_page_directory` copies: the stack page of the one and the code page of
the other cannot be mapped.  In every other slot the image is loaded as long as
two pages and two tables are left (`prepare_loads`).

There are runs that end with any number of processes of which the last one is
loaded (`exists_loaded`), and runs in which a loaded process runs
(`exists_loaded_running`).
-/
import VirtualKernel.Objects
import VirtualKernel.CreateRuns
import VirtualKernel.UserMappings

namespace VirtualKernel

open Lib

/-- The page of a slot that the image goes to. -/
def codePage (slot : ℕ) : ℕ := slotBase slot

/-- The page of a slot below the top of its stack segment. -/
def stackPage (slot : ℕ) : ℕ := slotBase slot + (userStackOffset + userStackSize - pageSize)

/-- The directory `d` maps a page of its own at `v`. -/
def Ram.Owns (r : Ram) (d v : ℕ) : Prop :=
  ∃ n, ownedAt r d (v / 2 ^ 22) (v / 2 ^ 12 % 2 ^ 10) = some n

/-- With the directory `d` user mode may write to the page of `v`. -/
def Ram.WritesPage (r : Ram) (d v : ℕ) : Prop :=
  ∀ w, w / pageSize = v / pageSize → userWrites d w r = true

/-! ### The layout of the slots -/

theorem slotBase_aligned (slot : ℕ) : slotBase slot % pageSize = 0 := by
  simp only [slotBase, processSlotSize, processAreaBase, pageSize]
  omega

theorem stackPage_aligned (slot : ℕ) : stackPage slot % pageSize = 0 := by
  simp only [stackPage, slotBase, processSlotSize, processAreaBase, userStackOffset, userStackSize,
    pageSize]
  omega

theorem stackPage_lt {slot : ℕ} (h : slot < processMaxCount) : stackPage slot < userSpaceLimit := by
  have hlt := slotBase_lt h
  simp only [stackPage, userStackOffset, userStackSize, pageSize, userSpaceLimit]
  omega

theorem codePage_lt {slot : ℕ} (h : slot < processMaxCount) : codePage slot < userSpaceLimit := by
  have hlt := slotBase_lt h
  simp only [codePage, userSpaceLimit]
  omega

theorem pageAddr_slotBase {slot : ℕ} (h : slot < processMaxCount) :
    pageAddr (slotBase slot) = codePage slot := by
  have hlt := slotBase_lt h
  exact pageAddr_of_aligned (slotBase_aligned slot) (by omega)

theorem add32_slotBase {slot : ℕ} (h : slot < processMaxCount) :
    add32 (slotBase slot) (userStackOffset + userStackSize - pageSize) = stackPage slot := by
  have hlt := slotBase_lt h
  simp only [stackPage, userStackOffset, userStackSize, pageSize]
  exact add32_of_lt (by omega)

/-- The two pages have different entries. -/
theorem codePage_ne_stackPage (slot : ℕ) :
    ¬(codePage slot / 2 ^ 22 = stackPage slot / 2 ^ 22 ∧
      codePage slot / 2 ^ 12 % 2 ^ 10 = stackPage slot / 2 ^ 12 % 2 ^ 10) := by
  simp only [codePage, stackPage, slotBase, processSlotSize, processAreaBase, userStackOffset,
    userStackSize, pageSize]
  omega

/-- What a new directory takes over from the bootstrap's entry `i`. -/
def bootCopy (i : ℕ) : ℕ :=
  if i ≠ 0 ∧ present (bootDirectory i) ∧ ¬userBit (bootDirectory i) then bootDirectory i else 0

/-- Outside the kernel's tables a directory takes over what the bootstrap has. -/
theorem KernelPdes.copy_eq {r : Ram} (h : KernelPdes r) {i : ℕ} (hi : ¬KernelTables i) :
    kernelCopy r i = bootCopy i := by
  rw [kernelCopy, bootCopy, (h i).resolve_right fun h => hi h.1]

/-- The slots keep clear of the kernel's tables. -/
theorem slot_entries : ∀ slot < processMaxCount, ¬KernelTables (codePage slot / 2 ^ 22) ∧
    ¬KernelTables (stackPage slot / 2 ^ 22) := by
  decide +kernel

/-- **Where the slots collide with the bootstrap's supervisor entries.** -/
theorem slot_collisions : ∀ slot < processMaxCount,
    (bootCopy (codePage slot / 2 ^ 22) = 0 ↔ slot ≠ 77) ∧
      (bootCopy (stackPage slot / 2 ^ 22) = 0 ↔ slot ≠ 76) := by
  decide +kernel

section Prepare

variable {k : Kernel} {O : ℕ → Prop} {T : Items} {p d slot a b c : ℕ}

/-! ### One page -/

/-- **No page can be mapped** where a directory has taken over an entry of the
kernel's. -/
theorem kAllocMapPage_blocked {virt flags : ℕ} (H : Holds k O (T + {.dir d}))
    (hv : virt < userSpaceLimit) (hfl : flags.testBit 9 = true) (f : ℕ → ℕ)
    (hcopy : kernelCopy k.ram (virt / 2 ^ 22) ≠ 0) :
    Runs (onRam (allocMapPage d virt flags f)) k fun r _ => r = false := by
  have hi : virt / 2 ^ 22 < 1024 := by
    simp only [userSpaceLimit] at hv
    omega
  refine (kAllocMapPage_exact H hfl f).mono ?_
  rintro r - hexact
  rw [← Bool.not_eq_true, hexact]
  exact fun hm => H.not_tableReady (by simp) hi hcopy hm.table

/-- A process may write to a page that has been mapped for it with `PAGE_RW`. -/
theorem PageMapped.userWrites {C D : ℕ → Prop} {c d i j flags v : ℕ} {r r' : Ram}
    (hM : PageMapped C D c d i j flags r r') (hd : D d) (hflags : flags.testBit 1 = true)
    (hi : v / 2 ^ 22 = i) (hj : pteIndex v = j) : userWrites d v r' = true := by
  obtain ⟨t, ht⟩ := Option.isSome_iff_exists.mp hM.table
  obtain ⟨phys, hword⟩ := hM.word
  have hpde := hM.inv.tables.user_pde d i t hd ht
  obtain ⟨-, hp, hu, hps, haddr⟩ := tableOf_eq_some.mp ht
  obtain ⟨hb1, hb2, -, -⟩ := userPte_bits phys flags
  have hb3 : writeBit (userPte phys flags) = true := by
    rw [writeBit, testBit_userPte _ _ (by decide), hflags, Bool.true_or]
  subst hi hj
  have hpte : r'.frame (pageAddr (r'.frame d (v / 2 ^ 22))) (pteIndex v) = userPte phys flags := by
    rw [haddr, hword t ht]
  have hphys := getPhysicalAddress_table (dir_ne_zero hM.inv.tables hd) hp hps hpte
  rw [if_pos hb1] at hphys
  rw [VirtualKernel.userWrites, userReads, hphys, userAccess, hpte, hp, hu, hps, hpde, hb2, hb3]
  rfl

/-! ### Both pages -/

/-- **`process_prepare_test_task`** of a process whose task is at the base of
its slot. -/
theorem processPrepareTestTask_entry {source size : ℕ} {image : ℕ → ℕ}
    (H : Holds k O (T + {.dir d})) (hp : p ≠ 0) (hdir : k.mem p procPageDir = d)
    (hslot : slot < processMaxCount) (hbase : k.mem p procSlotBase = slotBase slot)
    (hentry : entryAddress k p = some (slotBase slot)) (pdes : KernelPdes k.ram) (h1 : 1 ≤ size)
    (h2 : size ≤ pageSize) (room : Room a (b + 2) (c + 2) k) :
    Runs (processPrepareTestTask p source size image) k fun r k' =>
      (r = if source ≠ 0 ∧ slot ≠ 76 ∧ slot ≠ 77 then 1 else 0) ∧
        (r = 1 → k'.ram.Owns d (codePage slot) ∧ k'.ram.Owns d (stackPage slot) ∧
          k'.ram.WritesPage d (stackPage slot)) := by
  refine runs_get_bind ?_
  dsimp only
  by_cases hsource : source = 0
  · rw [if_pos (Or.inr (Or.inl hsource)), if_neg fun h => h.1 hsource]
    exact runs_pure ⟨rfl, fun h => absurd h zero_ne_one⟩
  rw [if_neg (by omega), hentry]
  have halign := slotBase_aligned slot
  dsimp only
  rw [if_neg (by rw [halign, Nat.zero_add]; omega), hdir, hbase, pageAddr_slotBase hslot,
    add32_slotBase hslot]
  generalize hfl : pagePresentRwUser ||| pageOwned = flags
  have hrw : flags.testBit 1 = true := by
    rw [← hfl]
    decide
  have hfl : flags.testBit 9 = true := by
    rw [← hfl]
    decide
  obtain ⟨hck, hsk⟩ := slot_entries slot hslot
  obtain ⟨hcode, hstack⟩ := slot_collisions slot hslot
  -- the code page
  by_cases h77 : slot = 77
  · rw [if_neg (c := source ≠ 0 ∧ slot ≠ 76 ∧ slot ≠ 77) fun h => h.2.2 h77]
    refine runs_bind (kAllocMapPage_blocked H (codePage_lt hslot) hfl _ ?_) ?_
    · rw [pdes.copy_eq hck]
      exact fun h => hcode.mp h h77
    · rintro r k₁ rfl
      exact runs_pure ⟨rfl, fun h => absurd h zero_ne_one⟩
  refine runs_bind ((kAllocMapPage_spec H (codePage slot) hfl _).and
    (kAllocMapPage_room (b := b + 1) (c := c + 1) H (codePage_lt hslot) halign hfl _ ?_ room)) ?_
  · rw [pdes.copy_eq hck]
    exact hcode.mpr h77
  rintro r k₁ ⟨⟨F₁, -, ⟨hr, -⟩ | ⟨-, H₁, hM₁⟩⟩, rfl, room₁⟩
  · cases hr
  rw [if_pos rfl]
  -- the stack page
  have hcopy₁ : kernelCopy k₁.ram (stackPage slot / 2 ^ 22) = bootCopy (stackPage slot / 2 ^ 22) := by
    rw [kernelCopy_congr F₁.ram.kernel, pdes.copy_eq hsk]
  by_cases h76 : slot = 76
  · rw [if_neg (c := source ≠ 0 ∧ slot ≠ 76 ∧ slot ≠ 77) fun h => h.2.1 h76]
    refine runs_bind (kAllocMapPage_blocked H₁ (stackPage_lt hslot) hfl _ ?_) ?_
    · rw [hcopy₁]
      exact fun h => hstack.mp h h76
    · rintro r k₂ rfl
      exact runs_pure ⟨rfl, fun h => absurd h zero_ne_one⟩
  · rw [if_pos ⟨hsource, h76, h77⟩]
    refine runs_bind ((kAllocMapPage_spec H₁ (stackPage slot) hfl _).and
      (kAllocMapPage_room H₁ (stackPage_lt hslot) (stackPage_aligned slot) hfl _ ?_ room₁)) ?_
    · rw [hcopy₁]
      exact hstack.mpr h76
    · rintro r k₂ ⟨⟨-, -, ⟨hr, -⟩ | ⟨-, -, hM₂⟩⟩, rfl, -⟩
      · cases hr
      · obtain ⟨m, -, -, -, hm⟩ := hM₁.used
        obtain ⟨n, -, -, -, hn⟩ := hM₂.used
        have hkept := hM₂.owned _ _ (codePage_ne_stackPage slot)
        have hin : dirsOf (T + {.dir d}) d := mem_add_singleton.mpr (Or.inr rfl)
        refine runs_pure ⟨rfl, fun _ => ⟨⟨m, hkept.trans hm⟩, ⟨n, hn⟩, fun v hv => ?_⟩⟩
        obtain ⟨hi, hj⟩ := same_page_iff.mp hv
        exact hM₂.userWrites hin hrw hi hj

end Prepare

/-! ### Processes that have not run -/

/-- `p` is still the process it was in `k`, and its task is at the same entry. -/
structure Unrun (k k' : Kernel) (p : ℕ) : Prop where
  live : Live k' p
  same : SameObject k k' p
  entry : entryAddress k' p = entryAddress k p

theorem Unrun.refl {k : Kernel} {p : ℕ} (h : Live k p) : Unrun k k p := ⟨h, fun _ _ => rfl, rfl⟩

/-- What the invariant and free memory give `process_prepare_test_task`. -/
theorem Inv.prepares {w : World} {O : ℕ → Prop} {B : Items} {P : Multiset ℕ} (H : Inv w O B P)
    (source : ℕ) (image : ℕ → ℕ) {p slot size : ℕ} (hp : Live w.k p) (hslot : slot < processMaxCount)
    (hbase : w.k.mem p procSlotBase = slotBase slot)
    (hentry : entryAddress w.k p = some (slotBase slot)) (h1 : 1 ≤ size) (h2 : size ≤ pageSize)
    (hpages : w.k.ram.FreePages 2) (htables : w.k.ram.FreeTables 2) :
    Runs (processPrepareTestTask p source size image) w.k fun r k' =>
      (r = if source ≠ 0 ∧ slot ≠ 76 ∧ slot ≠ 77 then 1 else 0) ∧
        (r = 1 → k'.ram.Owns (w.k.mem p procPageDir) (codePage slot) ∧
          k'.ram.Owns (w.k.mem p procPageDir) (stackPage slot) ∧
          k'.ram.WritesPage (w.k.mem p procPageDir) (stackPage slot)) := by
  obtain ⟨rest, -, hsplit⟩ := items_split 0 (H.dir_mem (H.live_iff.mp hp))
  rw [zero_add, zero_add] at hsplit
  have hH := H.holds
  rw [hsplit] at hH
  obtain ⟨bs, hrep, -⟩ := hH.heap
  have room : Room 0 (0 + 2) (0 + 2) w.k := ⟨by
    have h1 := hrep.le_limit
    rw [hrep.limit] at h1
    omega, hpages, htables⟩
  exact processPrepareTestTask_entry hH hp.1 rfl hslot hbase hentry H.pdes h1 h2 room

/-- **Loading a created process.**  After boot and any calls and interrupts let
`process_create` return the process `p`, and let any calls and interrupts
follow in which `p` does not run.  Then `process_prepare_test_task` returns 1,
two pages and two tables being free, if and only if the image is not the null
pointer and the slot of `p` is neither 76 nor 77. -/
theorem prepare_loads {w₀ w w₂ : World} {k₁ : Kernel} (h₀ : Booted w₀) (h : Reach Careful w₀ w)
    {p : ℕ} (hcreate : (processCreate processTypeProtected32).run w.k = some (p, k₁)) (hp : p ≠ 0)
    (h' : Reach Careful { w with k := k₁ } w₂) (hunrun : Unrun k₁ w₂.k p) {source size : ℕ}
    (image : ℕ → ℕ) (h1 : 1 ≤ size) (h2 : size ≤ pageSize) (hpages : w₂.k.ram.FreePages 2)
    (htables : w₂.k.ram.FreeTables 2) :
    (∃ k', (processPrepareTestTask p source size image).run w₂.k = some (1, k')) ↔
      source ≠ 0 ∧ w₂.k.mem p procSlotIndex ≠ 76 ∧ w₂.k.mem p procSlotIndex ≠ 77 := by
  obtain ⟨O, B, P, H⟩ := reach_inv h₀ h
  -- the state after the creation
  obtain ⟨slot, fresh⟩ := H.created_fresh hcreate hp
  have hexec : (Op.create processTypeProtected32).exec w = some { w with k := k₁ } := by
    rw [Op.exec, World.call, hcreate]
    rfl
  obtain ⟨_, -, ⟨-, H₁⟩ | ⟨-, -, H₁⟩⟩ := H.create hexec
  all_goals
    obtain ⟨O₂, P₂, H₂⟩ := H₁.reach h'
    have hslot : w₂.k.mem p procSlotIndex = slot :=
      (hunrun.same _ (by decide)).trans fresh.slotField
    obtain ⟨r, k', hrun, hr, -⟩ := H₂.prepares source image hunrun.live
      fresh.slot_lt ((hunrun.same _ (by decide)).trans fresh.base)
      (hunrun.entry.trans fresh.entry) h1 h2 hpages htables
    rw [hrun, hslot]
    constructor
    · rintro ⟨k'', hk⟩
      obtain ⟨rfl, -⟩ := Prod.mk.inj (Option.some.inj hk)
      by_contra hno
      rw [if_neg hno] at hr
      cases hr
    · intro hok
      rw [if_pos hok] at hr
      exact ⟨k', by rw [hr]⟩

/-- The first process there is. -/
theorem prepare_loads_first : ∃ w₀ w p k₁, Booted w₀ ∧ Reach Careful w₀ w ∧
    (processCreate processTypeProtected32).run w.k = some (p, k₁) ∧
    ∃ k', (processPrepareTestTask p 1 1 fun _ => 0).run k₁ = some (1, k') := by
  obtain ⟨w₀, w, w', B, P, p, h₀, h, hrun, hpop, fresh, -⟩ := exists_created (n := 0) (by decide)
  have hlive : Live w'.k p := hpop.inv.live_iff.mpr (Multiset.mem_cons_self p P)
  have hslot : w'.k.mem p procSlotIndex = 0 := fresh.slotField
  refine ⟨w₀, w, p, w'.k, h₀, h, hrun, (prepare_loads h₀ h hrun hlive.1
    (Reach.refl : Reach Careful { w with k := w'.k } _) (.refl hlive) (fun _ => 0) (by decide) (by decide)
    (hpop.room.pages.mono (by decide)) (hpop.room.tables.mono (by decide))).mpr
    ⟨by decide, ?_, ?_⟩⟩
  · exact hslot.trans_ne (by decide)
  · exact hslot.trans_ne (by decide)

/-- The stack page of the process in slot 76 cannot be mapped. -/
theorem not_prepare_loads : ¬∀ w₀ w p k₁, Booted w₀ → Reach Careful w₀ w →
    (processCreate processTypeProtected32).run w.k = some (p, k₁) → p ≠ 0 →
    ∀ source size image, source ≠ 0 → 1 ≤ size → size ≤ pageSize → k₁.ram.FreePages 2 →
      k₁.ram.FreeTables 2 →
      ∃ k', (processPrepareTestTask p source size image).run k₁ = some (1, k') := by
  intro hall
  obtain ⟨w₀, w, w', B, P, p, h₀, h, hrun, hpop, fresh, -⟩ := exists_created (n := 76) (by decide)
  have hlive : Live w'.k p := hpop.inv.live_iff.mpr (Multiset.mem_cons_self p P)
  have hpages : w'.k.ram.FreePages 2 := hpop.room.pages.mono (by decide)
  have htables : w'.k.ram.FreeTables 2 := hpop.room.tables.mono (by decide)
  obtain ⟨k', hk⟩ := hall w₀ w p w'.k h₀ h hrun hlive.1 1 1 (fun _ => 0) (by decide) (by decide)
    (by decide) hpages htables
  obtain ⟨r, k'', hrun', hr, -⟩ := hpop.inv.prepares 1 (fun _ => 0) hlive fresh.slot_lt fresh.base
    fresh.entry le_rfl (by decide) hpages htables
  rw [hk] at hrun'
  obtain ⟨rfl, -⟩ := Prod.mk.inj (Option.some.inj hrun')
  exact absurd hr (by decide)

/-! ### Runs with a loaded process -/

/-- The calls that create a process or load one. -/
def Op.IsLoading : Op → Prop
  | .create _ => True
  | .prepare _ _ _ _ => True
  | _ => False

theorem Op.IsLoading.careful {w : World} {op : Op} (h : op.IsLoading) : Careful w op := by
  rintro p rfl
  exact absurd h id

/-- A run that ends with the processes `P` and one more in the slot `n`, which has
been loaded and has not run. -/
structure Loaded (n : ℕ) (w₀ w : World) (B : Items) (P : Multiset ℕ) (p : ℕ) : Prop where
  booted : Booted w₀
  loading : Reach (fun _ op => op.IsLoading) w₀ w
  inv : ∃ O, Inv w O B (p ::ₘ P)
  card : P.card = n
  slot : w.k.mem p procSlotIndex = n
  type : w.k.mem p procType = processTypeProtected32
  code : w.k.ram.Owns (w.k.mem p procPageDir) (codePage n)
  stack : w.k.ram.Owns (w.k.mem p procPageDir) (stackPage n)
  writes : w.k.ram.WritesPage (w.k.mem p procPageDir) (stackPage n)
  reap : w.k.sched.reapProcess = 0
  idle : w.k.sched.currentIndex = noIndex

/-- **A created process can be loaded.** -/
theorem exists_loaded {n : ℕ} (hn : n < processMaxCount) (h76 : n ≠ 76) (h77 : n ≠ 77) :
    ∃ w₀ w B P p, Loaded n w₀ w B P p := by
  obtain ⟨w₀, -, w, B, P, p, -, -, -, hpop, fresh, htype⟩ := exists_created hn
  have hlive : Live w.k p := hpop.inv.live_iff.mpr (Multiset.mem_cons_self p P)
  have hmax : processMaxCount = 100 := rfl
  obtain ⟨r, k', hrun, hr, hown⟩ := hpop.inv.prepares 1 (fun _ => 0) hlive hn fresh.base fresh.entry
    le_rfl (by decide) (hpop.room.pages.mono (by omega)) (hpop.room.tables.mono (by omega))
  rw [if_pos ⟨one_ne_zero, h76, h77⟩] at hr
  obtain ⟨hcode, hstack, hwrites⟩ := hown hr
  have hexec : (Op.prepare p 1 1 fun _ => 0).exec w = some { w with k := k' } := by
    rw [Op.exec, World.call, hrun]
    rfl
  have hallowed : (Op.prepare p 1 1 fun _ => 0).Allowed w := hlive
  have S := hpop.inv.mapping_same hallowed trivial hexec
  have hdir : k'.mem p procPageDir = w.k.mem p procPageDir := S.mem p _ (by decide)
  rw [← hdir] at hcode hstack hwrites
  have hcreated : Reach (fun _ op => op.IsLoading) w₀ w := by
    refine hpop.created.mono ?_
    rintro w op ⟨type, rfl⟩
    exact trivial
  have hcard := hpop.card
  rw [Multiset.card_cons] at hcard
  refine ⟨w₀, { w with k := k' }, B, P, p, hpop.booted, .step hcreated hallowed trivial hexec,
    hpop.inv.prepare hlive hexec, by omega, (S.mem p _ (by decide)).trans fresh.slotField,
    (S.mem p _ (by decide)).trans htype, hcode, hstack, hwrites, ?_, ?_⟩
  · exact (congrArg Sched.reapProcess S.sched).trans hpop.reap
  · exact (congrArg Sched.currentIndex S.sched).trans hpop.idle

/-- Two processes, of which the second one is loaded. -/
theorem exists_neighbours : ∃ w₀ w p q, Booted w₀ ∧ Reach (fun _ op => op.IsLoading) w₀ w ∧
    Live w.k p ∧ Live w.k q ∧ p ≠ q ∧ w.k.ram.Owns (w.k.mem p procPageDir) (codePage 1) ∧
    w.k.ram.Owns (w.k.mem p procPageDir) (stackPage 1) := by
  obtain ⟨w₀, w, B, P, p, L⟩ := exists_loaded (n := 1) (by decide) (by decide) (by decide)
  obtain ⟨O, H⟩ := L.inv
  obtain ⟨q, rfl⟩ := Multiset.card_eq_one.mp L.card
  refine ⟨w₀, w, p, q, L.booted, L.loading, H.live_iff.mpr (by simp), H.live_iff.mpr (by simp), ?_,
    L.code, L.stack⟩
  obtain ⟨P', hP, hnot, -⟩ := H.split (Multiset.mem_cons_self p {q})
  obtain rfl := (Multiset.cons_inj_right p).mp hP
  exact fun h => hnot (Multiset.mem_singleton.mpr h)

/-- **A loaded process can run**: the first tick switches to it. -/
theorem exists_loaded_running : ∃ w₀ w p, Booted w₀ ∧ Reach Careful w₀ w ∧ Live w.k p ∧
    RunningTask w.k p ∧ w.k.mem p procType = processTypeProtected32 ∧
    w.k.mem p procSlotIndex = 0 ∧ w.k.ram.Owns (w.k.mem p procPageDir) (stackPage 0) ∧
    w.k.ram.WritesPage (w.k.mem p procPageDir) (stackPage 0) := by
  obtain ⟨w₀, w, B, P, p, L⟩ := exists_loaded (n := 0) (by decide) (by decide) (by decide)
  obtain ⟨O, H⟩ := L.inv
  obtain ⟨w', q, hexec, H', -, hm, hq, hrun, hram⟩ := H.tick_dispatches (fun _ => 0) L.reap L.idle
    Multiset.cons_ne_zero
  obtain rfl := Multiset.card_eq_zero.mp L.card
  obtain rfl : q = p := Multiset.mem_singleton.mp hq
  have htick : (Op.tick fun _ => 0).Allowed w := trivial
  refine ⟨w₀, w', q, L.booted, .step (L.loading.mono fun _ _ h => h.careful) htick ?_ hexec,
    H'.live_iff.mpr hq, hrun, ?_, ?_, ?_, ?_⟩
  · rintro p hop
    cases hop
  · rw [hm q hq, L.type]
  · rw [hm q hq, L.slot]
  · rw [hm q hq, hram]
    exact L.stack
  · rw [hm q hq, hram]
    exact L.writes

end VirtualKernel
