/-
Streams of length-prefixed records.

A record at the offset `o` is `size o` long.  `Records size k n o os` says that the
records at the offsets `os`, each of length at least `k`, fill `[o, n)` exactly.
`Sections sep os lead secs` cuts a list at the elements of a kind `sep`: a first part
without one, then sections that each begin with one.

* **`Records.le`** — records end behind where they begin;
* **`exists_sections`** — every list can be cut.
-/
import Mathlib.Data.List.Basic

namespace VirtualKernel.Lib

/-- The records at the offsets `os` fill `[o, n)`. -/
inductive Records (size : ℕ → ℕ) (k n : ℕ) : ℕ → List ℕ → Prop
  | nil : Records size k n n []
  | cons {o : ℕ} {os : List ℕ} : k ≤ size o → o + size o ≤ n →
      Records size k n (o + size o) os → Records size k n o (o :: os)

namespace Records

variable {size size' : ℕ → ℕ} {k n o : ℕ} {os : List ℕ}

theorem le (h : Records size k n o os) : o ≤ n := by
  cases h with
  | nil => exact Nat.le_refl _
  | cons _ hfit _ => omega

end Records

/-! ### Sections -/

/-- `os` is `lead`, without an element of the kind `sep`, followed by the sections
`secs`: an element of the kind and others up to the next one. -/
structure Sections {α : Type} (sep : α → Prop) (os lead : List α) (secs : List (α × List α)) :
    Prop where
  concat : os = lead ++ secs.flatMap fun s => s.1 :: s.2
  lead : ∀ o ∈ lead, ¬ sep o
  heads : ∀ s ∈ secs, sep s.1
  members : ∀ s ∈ secs, ∀ o ∈ s.2, ¬ sep o

section Sections

variable {α : Type}

theorem exists_sections (sep : α → Prop) (os : List α) : ∃ lead secs, Sections sep os lead secs := by
  induction os with
  | nil => exact ⟨[], [], rfl, by simp, by simp, by simp⟩
  | cons o os ih =>
    obtain ⟨lead, secs, H⟩ := ih
    by_cases ho : sep o
    · -- the part collected so far becomes a section
      refine ⟨[], (o, lead) :: secs, ?_, by simp, ?_, ?_⟩
      · rw [H.concat]
        rfl
      · intro s hs
        rcases List.mem_cons.mp hs with rfl | hs
        · exact ho
        · exact H.heads s hs
      · intro s hs
        rcases List.mem_cons.mp hs with rfl | hs
        · exact H.lead
        · exact H.members s hs
    · refine ⟨o :: lead, secs, ?_, ?_, H.heads, H.members⟩
      · rw [H.concat]
        rfl
      · intro p hp
        rcases List.mem_cons.mp hp with rfl | hp
        · exact ho
        · exact H.lead p hp

end Sections

end VirtualKernel.Lib
