/-
Histories.

A program that keeps a log only ever adds to it; `Adds` says which events it adds,
as a preorder of states, so that the rules of `Within` apply, and `latest` reads the
last word on a question from it.  `Sequenced ok l` says that every event of the history
`l` was allowed, by `ok`, after the events before it, and **`Sequenced.append`** is its
rule: carry an invariant of the history along the new events.
-/
import Mathlib.Data.List.Basic
import VirtualKernel.Lib.Runs

namespace VirtualKernel.Lib

variable {σ ε : Type}

/-- Between `s` and `t` only events with `P` have been added to the log. -/
def Adds (log : σ → List ε) (P : ε → Prop) (s t : σ) : Prop :=
  ∃ m, log t = log s ++ m ∧ ∀ e ∈ m, P e

section Adds

variable {log : σ → List ε} {P Q : ε → Prop} {s t u : σ}

theorem adds_of_eq (h : log t = log s) : Adds log P s t :=
  ⟨[], by rw [h, List.append_nil], fun _ he => absurd he List.not_mem_nil⟩

theorem Adds.trans (h : Adds log P s t) (h' : Adds log P t u) : Adds log P s u := by
  obtain ⟨m, hm, hP⟩ := h
  obtain ⟨n, hn, hP'⟩ := h'
  refine ⟨m ++ n, by rw [hn, hm, List.append_assoc], fun e he => ?_⟩
  rcases List.mem_append.mp he with he | he
  · exact hP e he
  · exact hP' e he

end Adds

instance {log : σ → List ε} {P : ε → Prop} : IsPreorder σ (Adds log P) where
  refl _ := adds_of_eq rfl
  trans _ _ _ := Adds.trans

/-! ### The last word -/

section Latest

variable {β : Type} {f : ε → Option β} {l m : List ε}

/-- What the last event with a value says. -/
def latest (f : ε → Option β) (l : List ε) : Option β := (l.filterMap f).getLast?

theorem latest_concat (e : ε) : latest f (l ++ [e]) = (f e).or (latest f l) := by
  rw [latest, List.filterMap_append, List.getLast?_append, latest]
  cases h : f e with
  | none => rw [List.filterMap_cons_none h, List.filterMap_nil, List.getLast?_nil]
  | some b => rw [List.filterMap_cons_some h, List.filterMap_nil, List.getLast?_singleton]

theorem latest_append (h : ∀ e ∈ m, f e = none) : latest f (l ++ m) = latest f l := by
  rw [latest, List.filterMap_append, List.filterMap_eq_nil_iff.mpr h, List.append_nil]
  rfl

end Latest

/-! ### Allowed histories -/

/-- Every event of the history was allowed after those before it. -/
def Sequenced (ok : List ε → ε → Prop) (l : List ε) : Prop := ∀ l₁ e l₂, l = l₁ ++ e :: l₂ → ok l₁ e

section Sequenced

variable {ok : List ε → ε → Prop} {l m : List ε}

theorem sequenced_nil : Sequenced ok [] := by
  intro l₁ e l₂ h
  exact absurd h (List.append_ne_nil_of_right_ne_nil _ (List.cons_ne_nil _ _)).symm

/-- One more event. -/
theorem Sequenced.concat (h : Sequenced ok l) {e : ε} (he : ok l e) : Sequenced ok (l ++ [e]) := by
  intro l₁ e' l₂ heq
  rcases List.eq_nil_or_concat' l₂ with rfl | ⟨k, x, rfl⟩
  · -- the new event is the last one
    obtain ⟨rfl, hlast⟩ := List.append_inj' heq rfl
    cases hlast
    exact he
  · rw [← List.cons_append, ← List.append_assoc] at heq
    exact h l₁ e' k (List.append_inj' heq rfl).1

/-- **The rule**: the events of `m` are allowed while `I` holds, and keep it. -/
theorem Sequenced.append {I : List ε → Prop} {P : ε → Prop} (h : Sequenced ok l) (hI : I l)
    (hstep : ∀ l e, I l → P e → ok l e ∧ I (l ++ [e])) (hm : ∀ e ∈ m, P e) :
    Sequenced ok (l ++ m) ∧ I (l ++ m) := by
  induction m generalizing l with
  | nil =>
    rw [List.append_nil]
    exact ⟨h, hI⟩
  | cons e m ih =>
    obtain ⟨hok, hI'⟩ := hstep l e hI (hm e (List.mem_cons_self ..))
    have hrest := ih (h.concat hok) hI' fun e' he' => hm e' (List.mem_cons_of_mem _ he')
    rwa [List.append_assoc, List.singleton_append] at hrest

end Sequenced

end VirtualKernel.Lib
