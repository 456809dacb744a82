/-
Programs that share a state under a lock.

A `Monitor` says what a client of the lock does next at each of its points, at
which points it is inside, holding the lock, and what else may happen to the
shared state.  The clients take their steps in any order; a client can be
abandoned at any point and never takes a step again.

* **`Reach.exclusive`** — the lock is taken when a client is inside, and by one
  client only;
* **`Invariant.reach`** — the rule for what holds of the state while nobody is
  inside, and of the one who is;
* **`Reach.orphan`** — the lock of an abandoned client is never given back;
* **`Stays.bound`** — a client that goes on is outside after as many of its own
  steps as its rank says.
-/
import Mathlib.Data.Nat.Basic
import Mathlib.Logic.Function.Iterate
import Mathlib.Logic.Relation

namespace VirtualKernel.Lib

/-- Programs that share a state under a lock. -/
structure Monitor (Point State : Type) where
  /-- What a client does next. -/
  step : Point → State → Point × State
  /-- The points at which a client holds the lock. -/
  inside : Point → Bool
  locked : State → Bool
  /-- How a client begins a call. -/
  call : Point → Point → Prop
  /-- What happens to the state from elsewhere. -/
  env : State → State → Prop
  enter : ∀ {x s}, inside x = false → inside (step x s).1 = true →
    locked s = false ∧ locked (step x s).2 = true
  outside : ∀ {x s}, inside x = false → inside (step x s).1 = false →
    locked (step x s).2 = locked s
  stay : ∀ {x s}, inside x = true → inside (step x s).1 = true → locked (step x s).2 = locked s
  leave : ∀ {x s}, inside x = true → inside (step x s).1 = false → locked (step x s).2 = false
  call_outside : ∀ {x y}, call x y → inside x = false ∧ inside y = false
  env_locked : ∀ {s s'}, env s s' → locked s' = locked s

namespace Monitor

variable {ι Point State : Type}

/-- The state, the points of the clients, and who has been abandoned. -/
structure Config (ι Point State : Type) where
  state : State
  point : ι → Point
  gone : ι → Prop

/-- Who takes the next step. -/
inductive Event (ι : Type)
  | run (i : ι)
  | call (i : ι)
  | env
  | abandon (i : ι)

/-! ### Who holds the lock -/

variable {M : Monitor Point State} {c c' : Config ι Point State}

/-- The lock is taken when a client is inside, and by one client only. -/
structure Exclusive (M : Monitor Point State) (c : Config ι Point State) : Prop where
  unique : ∀ i j, M.inside (c.point i) = true → M.inside (c.point j) = true → i = j
  locked : M.locked c.state = true ↔ ∃ i, M.inside (c.point i) = true

/-- Nobody comes in or leaves. -/
theorem Exclusive.congr (H : Exclusive M c)
    (hpoint : ∀ j, M.inside (c'.point j) = M.inside (c.point j))
    (hlocked : M.locked c'.state = M.locked c.state) : Exclusive M c' where
  unique i j hi hj := H.unique i j ((hpoint i).symm.trans hi) ((hpoint j).symm.trans hj)
  locked := by
    rw [hlocked, H.locked]
    exact exists_congr fun j => by rw [hpoint j]

/-- While the lock is free nobody is inside. -/
theorem Exclusive.nobody (H : Exclusive M c) (h : M.locked c.state = false) (i : ι) :
    M.inside (c.point i) = false := by
  rw [← Bool.not_eq_true]
  intro hi
  have hlocked := H.locked.mpr ⟨i, hi⟩
  rw [h] at hlocked
  cases hlocked

/-- While a client is inside the others are not. -/
theorem Exclusive.others (H : Exclusive M c) {i j : ι} (hi : M.inside (c.point i) = true)
    (hj : j ≠ i) : M.inside (c.point j) = false := by
  rw [← Bool.not_eq_true]
  exact fun h => hj (H.unique j i h hi)

/-! ### Steps -/

variable [DecidableEq ι]

/-- One step of the system. -/
inductive Next (M : Monitor Point State) : Event ι → Config ι Point State →
    Config ι Point State → Prop
  | run {c : Config ι Point State} {i : ι} : ¬c.gone i → Next M (.run i) c
      { c with
        state := (M.step (c.point i) c.state).2
        point := Function.update c.point i (M.step (c.point i) c.state).1 }
  | call {c : Config ι Point State} {i : ι} {x : Point} : ¬c.gone i → M.call (c.point i) x →
      Next M (.call i) c { c with point := Function.update c.point i x }
  | env {c : Config ι Point State} {s : State} : M.env c.state s →
      Next M .env c { c with state := s }
  | abandon {c : Config ι Point State} {i : ι} :
      Next M (.abandon i) c { c with gone := fun j => c.gone j ∨ j = i }

/-- The configurations that any steps lead to. -/
abbrev Reach (M : Monitor Point State) : Config ι Point State → Config ι Point State → Prop :=
  Relation.ReflTransGen fun c c' => ∃ e, Next M e c c'

variable {e : Event ι}

/-- The points after the step of one client. -/
theorem inside_update {point : ι → Point} {i j : ι} {x : Point} :
    M.inside (Function.update point i x j) = if j = i then M.inside x else M.inside (point j) := by
  by_cases hj : j = i
  · rw [hj, Function.update_self, if_pos rfl]
  · rw [Function.update_of_ne hj, if_neg hj]

/-- The points of a client that steps without coming in or leaving. -/
theorem inside_update_same {point : ι → Point} {i : ι} {x : Point}
    (h : M.inside x = M.inside (point i)) (j : ι) :
    M.inside (Function.update point i x j) = M.inside (point j) := by
  rw [inside_update]
  split_ifs with hj
  · rw [hj, h]
  · rfl

/-- A step keeps the lock with one client. -/
theorem Next.exclusive (h : Next M e c c') (H : Exclusive M c) : Exclusive M c' := by
  cases h with
  | @run _ i hgone =>
    cases hin : M.inside (c.point i) with
    | false =>
      cases hin' : M.inside (M.step (c.point i) c.state).1 with
      | false => exact H.congr (inside_update_same (hin'.trans hin.symm)) (M.outside hin hin')
      | true =>
        -- the lock was free, so nobody else is inside
        obtain ⟨hfree, hlocked⟩ := M.enter hin hin'
        have honly : ∀ j, M.inside (Function.update c.point i (M.step (c.point i) c.state).1 j) =
            true → j = i := fun j hj => by
          rw [inside_update] at hj
          split_ifs at hj with h
          · exact h
          · rw [H.nobody hfree j] at hj
            cases hj
        refine ⟨fun j k hj hk => (honly j hj).trans (honly k hk).symm, iff_of_true hlocked ⟨i, ?_⟩⟩
        rw [inside_update, if_pos rfl, hin']
    | true =>
      cases hin' : M.inside (M.step (c.point i) c.state).1 with
      | false =>
        -- the only one leaves
        have hnobody : ∀ j, M.inside (Function.update c.point i (M.step (c.point i) c.state).1 j) ≠
            true := fun j hj => by
          rw [inside_update] at hj
          split_ifs at hj with h
          · rw [hin'] at hj
            cases hj
          · rw [H.others hin h] at hj
            cases hj
        refine ⟨fun j k hj => absurd hj (hnobody j), iff_of_false ?_ fun ⟨j, hj⟩ => hnobody j hj⟩
        rw [M.leave hin hin']
        exact Bool.false_ne_true
      | true => exact H.congr (inside_update_same (hin'.trans hin.symm)) (M.stay hin hin')
  | @call _ i x hgone hcall =>
    obtain ⟨hx, hy⟩ := M.call_outside hcall
    exact H.congr (inside_update_same (hy.trans hx.symm)) rfl
  | env henv => exact H.congr (fun _ => rfl) (M.env_locked henv)
  | abandon => exact H.congr (fun _ => rfl) rfl

/-- **The lock is taken when a client is inside, and by one client only.** -/
theorem Reach.exclusive (h : Reach M c c') (H : Exclusive M c) : Exclusive M c' := by
  induction h with
  | refl => exact H
  | tail _ hstep ih =>
    obtain ⟨e, hstep⟩ := hstep
    exact hstep.exclusive ih

/-! ### The state behind the lock -/

/-- `I` holds of the state while nobody is inside, and `J x` while a client is
inside at the point `x`. -/
structure Invariant (M : Monitor Point State) (I : State → Prop) (J : Point → State → Prop) :
    Prop where
  enter : ∀ {x s}, I s → M.inside x = false → M.inside (M.step x s).1 = true →
    J (M.step x s).1 (M.step x s).2
  stay : ∀ {x s}, J x s → M.inside x = true → M.inside (M.step x s).1 = true →
    J (M.step x s).1 (M.step x s).2
  leave : ∀ {x s}, J x s → M.inside x = true → M.inside (M.step x s).1 = false → I (M.step x s).2
  outside : ∀ {x s}, M.inside x = false → M.inside (M.step x s).1 = false →
    (I s → I (M.step x s).2) ∧ ∀ y, J y s → J y (M.step x s).2
  env : ∀ {s s'}, M.env s s' → (I s → I s') ∧ ∀ y, J y s → J y s'

variable {I : State → Prop} {J : Point → State → Prop}

/-- What holds in a configuration. -/
structure Guarded (M : Monitor Point State) (I : State → Prop) (J : Point → State → Prop)
    (c : Config ι Point State) : Prop extends Exclusive M c where
  free : (∀ i, M.inside (c.point i) = false) → I c.state
  held : ∀ i, M.inside (c.point i) = true → J (c.point i) c.state

/-- A step keeps the invariant. -/
theorem Invariant.next (R : Invariant M I J) (h : Next M e c c') (H : Guarded M I J c) :
    Guarded M I J c' := by
  refine ⟨h.exclusive H.toExclusive, fun hfree => ?_, fun k hk => ?_⟩
  · cases h with
    | @run _ i hgone =>
      have hafter : M.inside (M.step (c.point i) c.state).1 = false := by
        have := hfree i
        rwa [inside_update, if_pos rfl] at this
      have hothers : ∀ j, j ≠ i → M.inside (c.point j) = false := fun j hj => by
        have := hfree j
        rwa [inside_update, if_neg hj] at this
      cases hin : M.inside (c.point i) with
      | false =>
        refine (R.outside hin hafter).1 (H.free fun j => ?_)
        by_cases hj : j = i
        · rw [hj, hin]
        · exact hothers j hj
      | true => exact R.leave (H.held i hin) hin hafter
    | @call _ i x hgone hcall =>
      refine H.free fun j => ?_
      by_cases hj : j = i
      · rw [hj]
        exact (M.call_outside hcall).1
      · have := hfree j
        rwa [inside_update, if_neg hj] at this
    | env henv => exact (R.env henv).1 (H.free hfree)
    | abandon => exact H.free hfree
  · cases h with
    | @run _ i hgone =>
      by_cases hki : k = i
      · subst hki
        simp only [inside_update, if_true] at hk
        simp only [Function.update_self]
        cases hin : M.inside (c.point k) with
        | false =>
          exact R.enter (H.free (H.nobody (M.enter hin hk).1)) hin hk
        | true => exact R.stay (H.held k hin) hin hk
      · simp only [inside_update, if_neg hki] at hk
        simp only [Function.update_of_ne hki]
        -- the one inside is another client, so `i` is outside and stays there
        have hin := H.others hk (Ne.symm hki)
        cases hafter : M.inside (M.step (c.point i) c.state).1 with
        | false => exact (R.outside hin hafter).2 _ (H.held k hk)
        | true =>
          rw [H.nobody (M.enter hin hafter).1 k] at hk
          cases hk
    | @call _ i x hgone hcall =>
      by_cases hki : k = i
      · subst hki
        simp only [inside_update, if_true, (M.call_outside hcall).2] at hk
        cases hk
      · simp only [inside_update, if_neg hki] at hk
        simp only [Function.update_of_ne hki]
        exact H.held k hk
    | env henv => exact (R.env henv).2 _ (H.held k hk)
    | abandon => exact H.held k hk

/-- **The rule for the state behind the lock.** -/
theorem Invariant.reach (R : Invariant M I J) (h : Reach M c c') (H : Guarded M I J c) :
    Guarded M I J c' := by
  induction h with
  | refl => exact H
  | tail _ hstep ih =>
    obtain ⟨e, hstep⟩ := hstep
    exact R.next hstep ih

/-! ### Abandoned clients -/

/-- An abandoned client stays where it is. -/
theorem Next.gone (h : Next M e c c') {i : ι} (hi : c.gone i) :
    c'.gone i ∧ c'.point i = c.point i := by
  cases h with
  | @run _ j hgone =>
    have hne : i ≠ j := fun hij => hgone (hij ▸ hi)
    exact ⟨hi, Function.update_of_ne hne _ _⟩
  | @call _ j x hgone =>
    have hne : i ≠ j := fun hij => hgone (hij ▸ hi)
    exact ⟨hi, Function.update_of_ne hne _ _⟩
  | env => exact ⟨hi, rfl⟩
  | abandon => exact ⟨Or.inl hi, rfl⟩

/-- **The lock of an abandoned client is never given back**: nobody else comes
in. -/
theorem Reach.orphan (h : Reach M c c') (H : Exclusive M c) {i : ι} (hi : c.gone i)
    (hin : M.inside (c.point i) = true) :
    M.locked c'.state = true ∧ ∀ j, j ≠ i → M.inside (c'.point j) = false := by
  have hstays : c'.gone i ∧ c'.point i = c.point i := by
    induction h with
    | refl => exact ⟨hi, rfl⟩
    | tail _ hstep ih =>
      obtain ⟨e, hstep⟩ := hstep
      obtain ⟨hg, hp⟩ := hstep.gone ih.1
      exact ⟨hg, hp.trans ih.2⟩
  have H' := Reach.exclusive h H
  have hin' : M.inside (c'.point i) = true := by rw [hstays.2, hin]
  exact ⟨H'.locked.mpr ⟨i, hin'⟩, fun j hj => H'.others hin' hj⟩

/-- A client that finds the lock taken wherever it goes on waits forever. -/
theorem Reach.waits {x : Point} (h : Reach M c c') (H : Exclusive M c) {i j : ι} (hi : c.gone i)
    (hin : M.inside (c.point i) = true) (hx : c.point j = x)
    (hcall : ∀ y, ¬M.call x y) (hwait : ∀ s, M.locked s = true → (M.step x s).1 = x) :
    c'.point j = x := by
  induction h with
  | refl => exact hx
  | @tail b d hreach hstep ih =>
    obtain ⟨e, hstep⟩ := hstep
    have hlocked := (Reach.orphan hreach H hi hin).1
    cases hstep with
    | @run _ k hgone =>
      by_cases hk : j = k
      · subst hk
        simp only [Function.update_self, ih]
        exact hwait _ hlocked
      · simp only [Function.update_of_ne hk, ih]
    | @call _ k y hgone hy =>
      have hk : j ≠ k := fun hk => hcall y (by rwa [← hk, ih] at hy)
      simp only [Function.update_of_ne hk, ih]
    | env => exact ih
    | abandon => exact ih

/-! ### Clients that go on -/

/-- The steps of one client while nobody else takes any. -/
abbrev Alone (M : Monitor Point State) : Point × State → Point × State → Prop :=
  Relation.ReflTransGen fun p p' => M.step p.1 p.2 = p'

theorem Alone.iterate (M : Monitor Point State) (n : ℕ) (p : Point × State) :
    Alone M p ((fun p => M.step p.1 p.2)^[n] p) := by
  induction n with
  | zero => exact .refl
  | succ n ih =>
    rw [Function.iterate_succ_apply']
    exact ih.tail rfl

theorem Alone.step {x : Point} {s : State} {p : Point × State} (h : Alone M (M.step x s) p) :
    Alone M (x, s) p :=
  .head rfl h

/-- They are steps of the system. -/
theorem Alone.reach {p p' : Point × State} (h : Alone M p p') {i : ι} (hi : ¬c.gone i)
    (hp : (c.point i, c.state) = p) :
    Reach M c { c with state := p'.2, point := Function.update c.point i p'.1 } := by
  induction h with
  | refl =>
    rw [← hp, Function.update_eq_self]
  | @tail q q' _ hstep ih =>
    refine ih.tail ⟨.run i, ?_⟩
    have hrun := Next.run (M := M)
      (c := { c with state := q.2, point := Function.update c.point i q.1 }) hi
    simp only [Function.update_self, Function.update_idem, hstep] at hrun
    exact hrun

/-- `n` steps of the client `i`, one after the other. -/
def Config.runs (M : Monitor Point State) (i : ι) (n : ℕ) (c : Config ι Point State) :
    Config ι Point State :=
  let p := (fun p => M.step p.1 p.2)^[n] (c.point i, c.state)
  { c with state := p.2, point := Function.update c.point i p.1 }

theorem Reach.runs (h : Reach M c c') {i : ι} (hi : ¬c'.gone i) (n : ℕ) :
    Reach M c (c'.runs M i n) :=
  h.trans ((Alone.iterate M n _).reach hi rfl)

/-- A client that is inside gives the lock back when it goes on alone. -/
theorem Alone.leaves {rank : Point → ℕ} (hrank : ∀ x s, M.inside x = true →
    M.inside (M.step x s).1 = true → rank (M.step x s).1 < rank x) {x : Point} (s : State)
    (hx : M.inside x = true) :
    ∃ p, Alone M (x, s) p ∧ M.inside p.1 = false ∧ M.locked p.2 = false := by
  induction hn : rank x using Nat.strong_induction_on generalizing x s with
  | _ n ih =>
    cases hin : M.inside (M.step x s).1 with
    | false => exact ⟨M.step x s, .single rfl, hin, M.leave hx hin⟩
    | true =>
      obtain ⟨p, halone, hp⟩ := ih _ (hn ▸ hrank x s hx hin) (M.step x s).2 hin rfl
      exact ⟨p, halone.step, hp⟩

/-- Steps of the system during which `i` stays inside; `n` of them are its own. -/
inductive Stays (M : Monitor Point State) (i : ι) : ℕ → Config ι Point State →
    Config ι Point State → Prop
  | refl {c : Config ι Point State} : M.inside (c.point i) = true → Stays M i 0 c c
  | own {n : ℕ} {c c' c'' : Config ι Point State} : Stays M i n c c' → Next M (.run i) c' c'' →
      M.inside (c''.point i) = true → Stays M i (n + 1) c c''
  | other {n : ℕ} {c c' c'' : Config ι Point State} {e : Event ι} : Stays M i n c c' →
      e ≠ .run i → Next M e c' c'' → Stays M i n c c''

/-- The steps of others leave a client that is inside where it is. -/
theorem Next.other {i : ι} (h : Next M e c c') (he : e ≠ .run i)
    (hin : M.inside (c.point i) = true) : c'.point i = c.point i := by
  cases h with
  | @run _ j => exact Function.update_of_ne (fun hij => he (by rw [hij])) _ _
  | @call _ j x hgone hcall =>
    refine Function.update_of_ne (fun hij => ?_) _ _
    rw [hij, (M.call_outside hcall).1] at hin
    cases hin
  | env => rfl
  | abandon => rfl

/-- **A client that goes on is outside after as many steps as its rank says.** -/
theorem Stays.bound {rank : Point → ℕ} (hrank : ∀ x s, M.inside x = true →
    M.inside (M.step x s).1 = true → rank (M.step x s).1 < rank x) {i : ι} {n : ℕ}
    (h : Stays M i n c c') : M.inside (c'.point i) = true ∧
      n + rank (c'.point i) ≤ rank (c.point i) := by
  induction h with
  | refl hin => exact ⟨hin, by omega⟩
  | own _ hstep hin ih =>
    refine ⟨hin, ?_⟩
    cases hstep with
    | run hgone =>
      simp only [Function.update_self] at hin ⊢
      have := hrank _ _ ih.1 hin
      omega
  | other _ he hstep ih =>
    rw [hstep.other he ih.1]
    exact ih

end Monitor

end VirtualKernel.Lib
