/-
Exact ownership ledgers.

A resource `ν` (pages, table entries, addresses) is handed out to owners `ι`.
`holds c n` says that the owner `c` holds `n`, `used n` what the allocator
believes.  In a `Ledger` the two agree exactly: whatever is used has an owner,
whatever has an owner is used, and nothing has two owners.  An allocation adds
an entry, a release drops one, and a transfer changes the owner.
-/
import Mathlib.Logic.Basic

namespace VirtualKernel.Lib

variable {ι ν : Type} {holds holds' : ι → ν → Prop} {used used' : ν → Prop}

/-- Everything used has exactly one owner, and nothing else has one. -/
structure Ledger (holds : ι → ν → Prop) (used : ν → Prop) : Prop where
  inj : ∀ {c c' : ι} {n : ν}, holds c n → holds c' n → c = c'
  exact : ∀ n, used n ↔ ∃ c, holds c n

namespace Ledger

theorem congr (h : Ledger holds used) (hh : ∀ c n, holds' c n ↔ holds c n)
    (hu : ∀ n, used' n ↔ used n) : Ledger holds' used' where
  inj := fun h1 h2 => h.inj ((hh _ _).mp h1) ((hh _ _).mp h2)
  exact := fun n => (hu n).trans ((h.exact n).trans (exists_congr fun c => (hh c n).symm))

/-- The owner `c` gets `n`, which was not used. -/
theorem alloc (h : Ledger holds used) {c : ι} {n : ν} (hn : ¬used n)
    (hh : ∀ c' m, holds' c' m ↔ holds c' m ∨ c' = c ∧ m = n)
    (hu : ∀ m, used' m ↔ used m ∨ m = n) : Ledger holds' used' where
  inj := by
    intro a b m ha hb
    rcases (hh _ _).mp ha with ha | ⟨rfl, rfl⟩ <;> rcases (hh _ _).mp hb with hb | ⟨rfl, hm⟩
    · exact h.inj ha hb
    · exact absurd ((h.exact _).mpr ⟨a, hm ▸ ha⟩) hn
    · exact absurd ((h.exact _).mpr ⟨b, hb⟩) hn
    · rfl
  exact := by
    intro m
    rw [hu, h.exact]
    constructor
    · rintro (⟨c', hc'⟩ | rfl)
      · exact ⟨c', (hh _ _).mpr (Or.inl hc')⟩
      · exact ⟨c, (hh _ _).mpr (Or.inr ⟨rfl, rfl⟩)⟩
    · rintro ⟨c', hc'⟩
      rcases (hh _ _).mp hc' with hc' | ⟨-, rfl⟩
      · exact Or.inl ⟨c', hc'⟩
      · exact Or.inr rfl

/-- The owner `c` gives `n` back. -/
theorem free (h : Ledger holds used) {c : ι} {n : ν} (hc : holds c n)
    (hh : ∀ c' m, holds' c' m ↔ holds c' m ∧ ¬(c' = c ∧ m = n))
    (hu : ∀ m, used' m ↔ used m ∧ m ≠ n) : Ledger holds' used' where
  inj := fun ha hb => h.inj ((hh _ _).mp ha).1 ((hh _ _).mp hb).1
  exact := by
    intro m
    rw [hu, h.exact]
    constructor
    · rintro ⟨⟨c', hc'⟩, hm⟩
      exact ⟨c', (hh _ _).mpr ⟨hc', fun h => hm h.2⟩⟩
    · rintro ⟨c', hc'⟩
      obtain ⟨hc', hne⟩ := (hh _ _).mp hc'
      refine ⟨⟨c', hc'⟩, ?_⟩
      rintro rfl
      exact hne ⟨h.inj hc' hc, rfl⟩

/-- The owner of `n` changes from `c` to `d`. -/
theorem transfer (h : Ledger holds used) {c d : ι} {n : ν} (hc : holds c n)
    (hh : ∀ c' m, holds' c' m ↔ (holds c' m ∧ ¬(c' = c ∧ m = n)) ∨ c' = d ∧ m = n)
    (hu : ∀ m, used' m ↔ used m) : Ledger holds' used' where
  inj := by
    intro a b m ha hb
    rcases (hh _ _).mp ha with ⟨ha, hna⟩ | ⟨rfl, rfl⟩ <;>
      rcases (hh _ _).mp hb with ⟨hb, hnb⟩ | ⟨rfl, hm⟩
    · exact h.inj ha hb
    · exact absurd ⟨h.inj ha (hm ▸ hc), hm⟩ hna
    · exact absurd ⟨h.inj hb hc, rfl⟩ hnb
    · rfl
  exact := by
    intro m
    rw [hu, h.exact]
    constructor
    · rintro ⟨c', hc'⟩
      by_cases hcm : c' = c ∧ m = n
      · exact ⟨d, (hh _ _).mpr (Or.inr ⟨rfl, hcm.2⟩)⟩
      · exact ⟨c', (hh _ _).mpr (Or.inl ⟨hc', hcm⟩)⟩
    · rintro ⟨c', hc'⟩
      rcases (hh _ _).mp hc' with ⟨hc', -⟩ | ⟨-, rfl⟩
      · exact ⟨c', hc'⟩
      · exact ⟨c, hc⟩

end Ledger

end VirtualKernel.Lib
