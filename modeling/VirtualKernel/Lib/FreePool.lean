/-
A pool of equally sized cells with a bump pointer and an intrusive free list.

Cells below `next` have been handed out at least once; those that came back
are threaded through their own first word (`link`), most recent first.
`FreePool … N` says that the list is exactly the cells that are not in use
(`N`): it ends, repeats nothing and stays inside the pool.  The three
operations are popping the list (`pop`), advancing the bump pointer (`bump`)
and pushing a cell (`push`).
-/
import VirtualKernel.Lib.Chain

namespace VirtualKernel.Lib

variable {size base stop : ℕ} {link link' : ℕ → ℕ} {head next : ℕ} {N N' : ℕ → Prop}

/-- A cell of the pool below `next`. -/
def InPool (size base next a : ℕ) : Prop := base ≤ a ∧ a < next ∧ a % size = 0

/-- The free list holds exactly the cells below `next` that are not in use. -/
structure FreePool (size base stop : ℕ) (link : ℕ → ℕ) (head next : ℕ) (N : ℕ → Prop) : Prop where
  list : ∃ l, Chain link head l ∧ ∀ a, a ∈ l ↔ InPool size base next a ∧ ¬N a
  inUse : ∀ a, N a → InPool size base next a
  base_pos : 0 < base
  next_ge : base ≤ next
  next_le : next ≤ stop
  next_mod : next % size = 0

namespace FreePool

theorem congr_inUse (h : FreePool size base stop link head next N) (hN : ∀ a, N' a ↔ N a) :
    FreePool size base stop link head next N' := by
  have heq : N' = N := funext fun a => propext (hN a)
  rw [heq]
  exact h

/-- Only the links of free cells matter. -/
theorem congr_link (h : FreePool size base stop link head next N) (link' : ℕ → ℕ)
    (hl : ∀ a, InPool size base next a → ¬N a → link' a = link a) :
    FreePool size base stop link' head next N := by
  obtain ⟨l, hc, hmem⟩ := h.list
  exact { h with
    list := ⟨l, hc.congr fun a ha => hl a ((hmem a).mp ha).1 ((hmem a).mp ha).2, hmem⟩ }

/-- The head of a nonempty list is a free cell. -/
theorem head_free (h : FreePool size base stop link head next N) (hh : head ≠ 0) :
    InPool size base next head ∧ ¬N head := by
  obtain ⟨l, hc, hmem⟩ := h.list
  obtain ⟨r, rfl, -⟩ := hc.pop hh
  exact (hmem head).mp List.mem_cons_self

theorem pop (h : FreePool size base stop link head next N) (hh : head ≠ 0) :
    FreePool size base stop link (link head) next fun a => N a ∨ a = head := by
  have hfree := h.head_free hh
  obtain ⟨l, hc, hmem⟩ := h.list
  obtain ⟨r, rfl, hr⟩ := hc.pop hh
  have hnd := (List.nodup_cons.mp hc.nodup).1
  refine { h with list := ⟨r, hr, fun a => ?_⟩, inUse := ?_ }
  · constructor
    · intro ha
      obtain ⟨h1, h2⟩ := (hmem a).mp (List.mem_cons_of_mem _ ha)
      exact ⟨h1, not_or.mpr ⟨h2, fun he => hnd (he ▸ ha)⟩⟩
    · rintro ⟨h1, h2⟩
      obtain ⟨h2, h3⟩ := not_or.mp h2
      exact (List.mem_cons.mp ((hmem a).mpr ⟨h1, h2⟩)).resolve_left h3
  · rintro a (ha | rfl)
    · exact h.inUse a ha
    · exact hfree.1

theorem bump (h : FreePool size base stop link head next N) (hs : 0 < size)
    (hstop : next + size ≤ stop) :
    ¬N next ∧ FreePool size base stop link head (next + size) fun a => N a ∨ a = next := by
  have hnew : ¬N next := fun hn => absurd (h.inUse next hn).2.1 (Nat.lt_irrefl _)
  -- the only cell between `next` and `next + size` is `next` itself
  have hcell : ∀ a, InPool size base (next + size) a ↔ InPool size base next a ∨ a = next := by
    intro a
    constructor
    · rintro ⟨h1, h2, h3⟩
      by_cases hlt : a < next
      · exact Or.inl ⟨h1, hlt, h3⟩
      · refine Or.inr ?_
        have hd : (a - next) % size = 0 :=
          Nat.sub_mod_eq_zero_of_mod_eq (h3.trans h.next_mod.symm)
        rw [Nat.mod_eq_of_lt (by omega)] at hd
        omega
    · rintro (⟨h1, h2, h3⟩ | rfl)
      · exact ⟨h1, by omega, h3⟩
      · exact ⟨h.next_ge, by omega, h.next_mod⟩
  obtain ⟨l, hc, hmem⟩ := h.list
  refine ⟨hnew, ⟨l, hc, fun a => ?_⟩, ?_, h.base_pos, by have := h.next_ge; omega, hstop, ?_⟩
  · rw [hmem, hcell]
    constructor
    · rintro ⟨h1, h2⟩
      exact ⟨Or.inl h1, not_or.mpr ⟨h2, fun he => absurd (he ▸ h1.2.1) (Nat.lt_irrefl _)⟩⟩
    · rintro ⟨h1, h2⟩
      obtain ⟨h2, h3⟩ := not_or.mp h2
      exact ⟨h1.resolve_right h3, h2⟩
  · rintro a (ha | rfl)
    · exact (hcell a).mpr (Or.inl (h.inUse a ha))
    · exact (hcell _).mpr (Or.inr rfl)
  · rw [Nat.add_mod_right]
    exact h.next_mod

theorem push (h : FreePool size base stop link head next N) {a : ℕ} (ha : N a) :
    FreePool size base stop (Function.update link a head) a next fun b => N b ∧ b ≠ a := by
  have hin := h.inUse a ha
  have hne : a ≠ 0 := by
    have := h.base_pos
    have := hin.1
    omega
  obtain ⟨l, hc, hmem⟩ := h.list
  have hal : a ∉ l := fun hal => ((hmem a).mp hal).2 ha
  refine { h with list := ⟨a :: l, hc.push hne hal, fun b => ?_⟩, inUse := ?_ }
  · rw [List.mem_cons, hmem]
    constructor
    · rintro (rfl | ⟨h1, h2⟩)
      · exact ⟨hin, fun hb => hb.2 rfl⟩
      · exact ⟨h1, fun hb => h2 hb.1⟩
    · rintro ⟨h1, h2⟩
      by_cases hba : b = a
      · exact Or.inl hba
      · exact Or.inr ⟨h1, fun hb => h2 ⟨hb, hba⟩⟩
  · exact fun b hb => h.inUse b hb.1

/-- An empty list and no room behind it: every cell is in use. -/
theorem full (h : FreePool size base stop link head next N) (hh : head = 0) (hstop : stop ≤ next)
    {a : ℕ} (h1 : base ≤ a) (h2 : a < stop) (h3 : a % size = 0) : N a := by
  obtain ⟨l, hc, hmem⟩ := h.list
  obtain rfl : l = [] := (hh ▸ hc).unique (chain_nil.mpr rfl)
  by_contra hna
  exact List.not_mem_nil ((hmem a).mpr ⟨⟨h1, by omega, h3⟩, hna⟩)

end FreePool

end VirtualKernel.Lib
