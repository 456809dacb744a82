/-
Total correctness of state-passing programs that may diverge.

A program over a state `σ` is a `StateT σ Option α`: `none` is a computation
that never returns.  `Runs m s Q` says that `m` started in `s` does return,
and that its result and final state satisfy `Q` (the weakest precondition of
`Q`, read as a statement about one initial state).  The rules follow the shape
of a program: `runs_bind` for sequencing, `runs_modifyGet` for one atomic
update, `Runs.mono` to weaken what is known at the end.

`Keeps π m` is the frame condition: whenever `m` returns, the part `π` of the
state is what it was.  `Within T m` is its general form: the states before and
after are related by the preorder `T`.  `Ensures m s Q` is partial correctness: if `m` returns
from `s`, then with `Q`; its rules are those of `Runs`, and a program that
stops the machine ensures everything.
-/
import Mathlib.Control.Monad.Basic
import Mathlib.Order.Defs.Unbundled
import Mathlib.Tactic.SplitIfs

namespace VirtualKernel.Lib

variable {σ α β : Type}

/-- `m` returns from `s`, with a result and a state that satisfy `Q`. -/
def Runs (m : StateT σ Option α) (s : σ) (Q : α → σ → Prop) : Prop :=
  ∃ a t, m.run s = some (a, t) ∧ Q a t

variable {m : StateT σ Option α} {f : α → StateT σ Option β} {s : σ}
  {Q Q' : α → σ → Prop} {R : β → σ → Prop}

/-- A weaker postcondition. -/
theorem Runs.mono (h : Runs m s Q) (hQ : ∀ a t, Q a t → Q' a t) : Runs m s Q' := by
  obtain ⟨a, t, hr, hq⟩ := h
  exact ⟨a, t, hr, hQ a t hq⟩

/-- A program that returns reaches only the state it returns in. -/
theorem Runs.of_run (h : Runs m s Q) {a : α} {t : σ} (hr : m.run s = some (a, t)) : Q a t := by
  obtain ⟨b, u, hr', hq⟩ := h
  rw [hr] at hr'
  obtain ⟨rfl, rfl⟩ := Prod.mk.inj (Option.some.inj hr')
  exact hq

/-- There is only one outcome, so both postconditions are about it. -/
theorem Runs.and (h : Runs m s Q) (h' : Runs m s Q') : Runs m s fun a t => Q a t ∧ Q' a t := by
  obtain ⟨a, t, hr, hq⟩ := h
  exact ⟨a, t, hr, hq, h'.of_run hr⟩

/-- Sequencing: run the first program, then the second from every state the
first can reach. -/
theorem runs_bind (h : Runs m s Q) (hf : ∀ a t, Q a t → Runs (f a) t R) :
    Runs (m >>= f) s R := by
  obtain ⟨a, t, hr, hq⟩ := h
  obtain ⟨b, u, hfr, hR⟩ := hf a t hq
  exact ⟨b, u, by rw [StateT.run_bind, hr]; exact hfr, hR⟩

theorem runs_pure {a : α} (h : Q a s) : Runs (pure a) s Q := ⟨a, s, rfl, h⟩

theorem runs_modifyGet {g : σ → α × σ} (h : Q (g s).1 (g s).2) :
    Runs (modifyGet g) s Q := ⟨(g s).1, (g s).2, rfl, h⟩

theorem runs_modify {g : σ → σ} {Q : PUnit → σ → Prop} (h : Q ⟨⟩ (g s)) :
    Runs (modify g) s Q := ⟨⟨⟩, g s, rfl, h⟩

theorem runs_get {Q : σ → σ → Prop} (h : Q s s) : Runs get s Q := ⟨s, s, rfl, h⟩

/-! Atomic updates at the head of a sequence are executed. -/

/-- Straight-line code runs step by step. -/
theorem runs_modifyGet_bind {g : σ → α × σ} (h : Runs (f (g s).1) (g s).2 R) :
    Runs (modifyGet g >>= f) s R :=
  runs_bind (Q := fun a t => a = (g s).1 ∧ t = (g s).2) (runs_modifyGet ⟨rfl, rfl⟩) (by
    rintro a t ⟨rfl, rfl⟩
    exact h)

theorem runs_modify_bind {g : σ → σ} {f : PUnit → StateT σ Option β} (h : Runs (f ⟨⟩) (g s) R) :
    Runs (modify g >>= f) s R :=
  runs_modifyGet_bind (g := fun s => (PUnit.unit, g s)) h

theorem runs_get_bind {f : σ → StateT σ Option β} (h : Runs (f s) s R) : Runs (get >>= f) s R :=
  runs_bind (Q := fun a t => a = s ∧ t = s) (runs_get ⟨rfl, rfl⟩) (by
    rintro a t ⟨rfl, rfl⟩
    exact h)

/-- The branch that is taken. -/
theorem runs_ite {c : Prop} [Decidable c] {m' : StateT σ Option α} (h : c → Runs m s Q)
    (h' : ¬c → Runs m' s Q) : Runs (if c then m else m') s Q := by
  split_ifs with hc
  · exact h hc
  · exact h' hc

/-- What a sequence that returned went through. -/
theorem run_bind_eq_some {b : β} {u : σ} :
    (m >>= f).run s = some (b, u) ↔
      ∃ a t, m.run s = some (a, t) ∧ (f a).run t = some (b, u) := by
  rw [StateT.run_bind]
  constructor
  · intro h
    obtain ⟨⟨a, t⟩, h1, h2⟩ := Option.bind_eq_some_iff.mp h
    exact ⟨a, t, h1, h2⟩
  · rintro ⟨a, t, h1, h2⟩
    rw [h1]
    exact h2

/-- Two sequences with the same head run alike when they do from every state the
head can reach. -/
theorem runs_bind_congr {g : α → StateT σ Option β} (h : Runs m s Q)
    (hf : ∀ a t, Q a t → (f a).run t = (g a).run t) : (m >>= f).run s = (m >>= g).run s := by
  obtain ⟨a, t, hr, hq⟩ := h
  rw [StateT.run_bind, StateT.run_bind, hr]
  exact hf a t hq

/-! ### Frame conditions -/

section Keeps

variable {τ : Type} {π : σ → τ}

/-- `m` leaves the part `π` of the state alone. -/
def Keeps (π : σ → τ) (m : StateT σ Option α) : Prop :=
  ∀ s a t, m.run s = some (a, t) → π t = π s

/-- What every step keeps, the program keeps. -/
theorem keeps_bind (hm : Keeps π m) (hf : ∀ a, Keeps π (f a)) : Keeps π (m >>= f) := by
  intro s b u h
  obtain ⟨a, t, h1, h2⟩ := run_bind_eq_some.mp h
  exact (hf a t b u h2).trans (hm s a t h1)

theorem keeps_pure (a : α) : Keeps π (pure a : StateT σ Option α) := by
  intro s b t h
  obtain ⟨-, rfl⟩ := Prod.mk.inj (Option.some.inj h)
  rfl

/-- A step keeps what its function keeps. -/
theorem keeps_modifyGet {g : σ → α × σ} (h : ∀ s, π (g s).2 = π s) :
    Keeps π (modifyGet g : StateT σ Option α) := by
  intro s a t hr
  have hg : g s = (a, t) := Option.some.inj hr
  rw [← h s, hg]

theorem keeps_modify {g : σ → σ} (h : ∀ s, π (g s) = π s) :
    Keeps π (modify g : StateT σ Option PUnit) := keeps_modifyGet h

theorem keeps_get : Keeps π (get : StateT σ Option σ) := by
  intro s a t h
  obtain ⟨-, rfl⟩ := Prod.mk.inj (Option.some.inj h)
  rfl

/-- Both branches. -/
theorem keeps_ite {c : Prop} [Decidable c] {m' : StateT σ Option α} (h : Keeps π m)
    (h' : Keeps π m') : Keeps π (if c then m else m') := by
  split_ifs
  · exact h
  · exact h'

/-- A part of what is kept is kept. -/
theorem Keeps.comp {ρ : Type} (h : Keeps π m) (g : τ → ρ) : Keeps (fun s => g (π s)) m :=
  fun s a t hr => congrArg g (h s a t hr)

end Keeps

/-! ### Transitions -/

section Within

variable {T : σ → σ → Prop}

/-- Whenever `m` returns, the state it started in and the state it ends in are
related by `T`. -/
def Within (T : σ → σ → Prop) (m : StateT σ Option α) : Prop :=
  ∀ s a t, m.run s = some (a, t) → T s t

theorem Within.mono {T' : σ → σ → Prop} (h : Within T m) (hT : ∀ s t, T s t → T' s t) :
    Within T' m := fun s a t hr => hT s t (h s a t hr)

theorem within_modifyGet {g : σ → α × σ} (h : ∀ s, T s (g s).2) :
    Within T (modifyGet g : StateT σ Option α) := by
  intro s a t hr
  have hg : g s = (a, t) := Option.some.inj hr
  have hs := h s
  rw [hg] at hs
  exact hs

theorem within_modify {g : σ → σ} (h : ∀ s, T s (g s)) :
    Within T (modify g : StateT σ Option PUnit) := within_modifyGet h

/-- Each branch under its condition. -/
theorem within_ite {c : Prop} [Decidable c] {m' : StateT σ Option α} (h : c → Within T m)
    (h' : ¬c → Within T m') : Within T (if c then m else m') := by
  split_ifs with hc
  · exact h hc
  · exact h' hc

/-- A program that does not return stays within anything. -/
theorem within_none : Within T (fun _ => none : StateT σ Option α) := by
  intro s a t hr
  exact absurd hr (by simp [StateT.run])

variable [IsPreorder σ T]

/-- Steps within a preorder compose. -/
theorem within_bind (hm : Within T m) (hf : ∀ a, Within T (f a)) : Within T (m >>= f) := by
  intro s b u h
  obtain ⟨a, t, h1, h2⟩ := run_bind_eq_some.mp h
  exact trans_of T (hm s a t h1) (hf a t b u h2)

theorem within_pure (a : α) : Within T (pure a : StateT σ Option α) := by
  intro s b t h
  obtain ⟨-, rfl⟩ := Prod.mk.inj (Option.some.inj h)
  exact refl_of T s

theorem within_get : Within T (get : StateT σ Option σ) :=
  within_modifyGet (g := fun s => (s, s)) fun s => refl_of T s

end Within

/-! ### Partial correctness -/

/-- If `m` returns from `s`, then with a result and a state that satisfy `Q`. -/
def Ensures (m : StateT σ Option α) (s : σ) (Q : α → σ → Prop) : Prop :=
  ∀ a t, m.run s = some (a, t) → Q a t

theorem Ensures.mono (h : Ensures m s Q) (hQ : ∀ a t, Q a t → Q' a t) : Ensures m s Q' :=
  fun a t hr => hQ a t (h a t hr)

theorem Ensures.and (h : Ensures m s Q) (h' : Ensures m s Q') :
    Ensures m s fun a t => Q a t ∧ Q' a t := fun a t hr => ⟨h a t hr, h' a t hr⟩

/-- What is kept is a postcondition. -/
theorem Keeps.ensures {τ : Type} {π : σ → τ} (h : Keeps π m) (s : σ) :
    Ensures m s fun _ t => π t = π s := fun a t hr => h s a t hr

/-- The rule for sequences: the postcondition of the first program is what the second starts
from. -/
theorem ensures_bind (h : Ensures m s Q) (hf : ∀ a t, Q a t → Ensures (f a) t R) :
    Ensures (m >>= f) s R := by
  intro b u hr
  obtain ⟨a, t, h1, h2⟩ := run_bind_eq_some.mp hr
  exact hf a t (h a t h1) b u h2

/-- What follows decides the result. -/
theorem ensures_last (hf : ∀ a t, Ensures (f a) t R) : Ensures (m >>= f) s R :=
  ensures_bind (Q := fun _ _ => True) (fun _ _ _ => trivial) fun a t _ => hf a t

theorem ensures_pure {a : α} (h : Q a s) : Ensures (pure a) s Q := by
  intro b t hr
  obtain ⟨rfl, rfl⟩ := Prod.mk.inj (Option.some.inj hr)
  exact h

theorem ensures_modifyGet {g : σ → α × σ} (h : Q (g s).1 (g s).2) :
    Ensures (modifyGet g) s Q := by
  intro b t hr
  have hg : g s = (b, t) := Option.some.inj hr
  rw [hg] at h
  exact h

theorem ensures_modify {g : σ → σ} {Q : PUnit → σ → Prop} (h : Q ⟨⟩ (g s)) :
    Ensures (modify g) s Q := ensures_modifyGet (g := fun s => (PUnit.unit, g s)) h

theorem ensures_modifyGet_bind {g : σ → α × σ} (h : Ensures (f (g s).1) (g s).2 R) :
    Ensures (modifyGet g >>= f) s R :=
  ensures_bind (Q := fun a t => a = (g s).1 ∧ t = (g s).2) (ensures_modifyGet ⟨rfl, rfl⟩) (by
    rintro a t ⟨rfl, rfl⟩
    exact h)

theorem ensures_modify_bind {g : σ → σ} {f : PUnit → StateT σ Option β}
    (h : Ensures (f ⟨⟩) (g s) R) : Ensures (modify g >>= f) s R :=
  ensures_modifyGet_bind (g := fun s => (PUnit.unit, g s)) h

theorem ensures_get_bind {f : σ → StateT σ Option β} (h : Ensures (f s) s R) :
    Ensures (get >>= f) s R :=
  ensures_bind (Q := fun a t => a = s ∧ t = s) (ensures_modifyGet (g := fun s => (s, s)) ⟨rfl, rfl⟩)
    (by
      rintro a t ⟨rfl, rfl⟩
      exact h)

/-- The rule for branches. -/
theorem ensures_ite {c : Prop} [Decidable c] {m' : StateT σ Option α} (h : c → Ensures m s Q)
    (h' : ¬c → Ensures m' s Q) : Ensures (if c then m else m') s Q := by
  split_ifs with hc
  · exact h hc
  · exact h' hc

/-- Sequencing of programs that keep a part, with what is known of the result of
the first. -/
theorem keeps_bind_of {τ : Type} {π : σ → τ} {P : α → Prop} (hm : Keeps π m)
    (hP : ∀ s, Ensures m s fun a _ => P a) (hf : ∀ a, P a → Keeps π (f a)) : Keeps π (m >>= f) := by
  intro s b u h
  obtain ⟨a, t, h1, h2⟩ := run_bind_eq_some.mp h
  exact (hf a (hP s a t h1) t b u h2).trans (hm s a t h1)

/-- So is what relates the states. -/
theorem Within.ensures {T : σ → σ → Prop} (h : Within T m) (s : σ) : Ensures m s fun _ t => T s t :=
  fun a t hr => h s a t hr

/-- A program that never returns. -/
theorem ensures_none : Ensures (fun _ => none : StateT σ Option α) s Q := by
  intro a t hr
  exact absurd hr (by simp [StateT.run])

end VirtualKernel.Lib
