/-
Null-terminated singly linked lists threaded through a memory.

`Chain next p l` says that following `next` from the address `p` visits
exactly the nonzero addresses of `l` and then reaches the null address `0`.
The relation is functional in `l` (`Chain.unique`), so a chain never repeats an
address (`Chain.nodup`): a list that ends is acyclic.  `Listed next p a` is the
reachability reading of the same list, usable without knowing that it ends.
-/
import Mathlib.Data.List.Nodup
import Mathlib.Logic.Function.Basic

namespace VirtualKernel.Lib

/-- The addresses met by following `next` from `p` are `l`, then null. -/
def Chain (next : ℕ → ℕ) : ℕ → List ℕ → Prop
  | p, [] => p = 0
  | p, a :: l => p = a ∧ a ≠ 0 ∧ Chain next (next a) l

/-- `a` is met by following `next` from `p`. -/
inductive Listed (next : ℕ → ℕ) (p : ℕ) : ℕ → Prop
  | head : p ≠ 0 → Listed next p p
  | step {a : ℕ} : Listed next p a → next a ≠ 0 → Listed next p (next a)

@[simp] theorem chain_nil {next : ℕ → ℕ} {p : ℕ} : Chain next p [] ↔ p = 0 := Iff.rfl

@[simp] theorem chain_cons {next : ℕ → ℕ} {p a : ℕ} {l : List ℕ} :
    Chain next p (a :: l) ↔ p = a ∧ a ≠ 0 ∧ Chain next (next a) l := Iff.rfl

namespace Chain

variable {next next' : ℕ → ℕ} {p : ℕ} {l : List ℕ}

/-- The list of a chain is determined by its first address. -/
theorem unique : ∀ {p : ℕ} {l l' : List ℕ}, Chain next p l → Chain next p l' → l = l'
  | _, [], [], _, _ => rfl
  | _, [], _ :: _, h, h' => absurd (h'.1.symm.trans h) h'.2.1
  | _, _ :: _, [], h, h' => absurd (h.1.symm.trans h') h.2.1
  | _, a :: l, b :: l', h, h' => by
    have hab : a = b := h.1.symm.trans h'.1
    subst hab
    rw [unique h.2.2 h'.2.2]

/-- A chain only reads the links of its own addresses. -/
theorem congr : ∀ {p : ℕ} {l : List ℕ}, (∀ a ∈ l, next' a = next a) →
    Chain next p l → Chain next' p l
  | _, [], _, h => h
  | _, a :: l, hn, h => by
    refine ⟨h.1, h.2.1, ?_⟩
    rw [hn a List.mem_cons_self]
    exact congr (fun b hb => hn b (List.mem_cons_of_mem _ hb)) h.2.2

/-- From any address of a chain the rest of the list is again a chain. -/
theorem suffix : ∀ {p a : ℕ} {l r : List ℕ}, Chain next p (l ++ a :: r) → Chain next a (a :: r)
  | _, _, [], _, h => ⟨rfl, h.2.1, h.2.2⟩
  | _, _, _ :: _, _, h => suffix h.2.2

/-- A chain that ends never repeats an address. -/
theorem nodup : ∀ {p : ℕ} {l : List ℕ}, Chain next p l → l.Nodup
  | _, [], _ => List.nodup_nil
  | _, a :: l, h => by
    refine List.nodup_cons.mpr ⟨fun ha => ?_, nodup h.2.2⟩
    obtain ⟨s, t, rfl⟩ := List.append_of_mem ha
    -- the same suffix would have two different lengths
    have hback : Chain next a (a :: t) := suffix h.2.2
    have heq := unique hback (show Chain next a (a :: (s ++ a :: t)) from ⟨rfl, h.2.1, h.2.2⟩)
    have hlen := congrArg List.length heq
    simp only [List.length_cons, List.length_append] at hlen
    omega

theorem listed_of_mem (h : Chain next p l) : ∀ a ∈ l, Listed next p a := by
  have key : ∀ (q : ℕ) (r : List ℕ), Chain next q r → (q ≠ 0 → Listed next p q) →
      ∀ a ∈ r, Listed next p a := by
    intro q r
    induction r generalizing q with
    | nil => exact fun _ _ a ha => absurd ha List.not_mem_nil
    | cons b r ih =>
      intro hc hq a ha
      have hb : Listed next p b := hc.1 ▸ hq (hc.1 ▸ hc.2.1)
      rcases List.mem_cons.mp ha with rfl | ha
      · exact hb
      · exact ih (next b) hc.2.2 (fun hne => .step hb hne) a ha
  exact key p l h fun hp => .head hp

theorem mem_of_listed (h : Chain next p l) : ∀ {a : ℕ}, Listed next p a → a ∈ l := by
  intro a ha
  induction ha with
  | head hp =>
    cases l with
    | nil => exact absurd h hp
    | cons b r => exact h.1 ▸ List.mem_cons_self
  | @step b _ hne ih =>
    obtain ⟨s, t, rfl⟩ := List.append_of_mem ih
    have hrest : Chain next (next b) t := (suffix h).2.2
    cases t with
    | nil => exact absurd hrest hne
    | cons c t => simp [hrest.1]

/-- On a list that ends, reachability is membership. -/
theorem listed_iff (h : Chain next p l) {a : ℕ} : Listed next p a ↔ a ∈ l :=
  ⟨mem_of_listed h, listed_of_mem h a⟩

/-- Pushing a fresh address in front of a chain. -/
theorem push {a : ℕ} (h : Chain next p l) (ha : a ≠ 0) (hl : a ∉ l) :
    Chain (Function.update next a p) a (a :: l) := by
  refine ⟨rfl, ha, ?_⟩
  rw [Function.update_self]
  refine congr (fun b hb => Function.update_of_ne ?_ _ _) h
  exact fun e => hl (e ▸ hb)

/-- Popping the head of a nonempty chain. -/
theorem pop (h : Chain next p l) (hp : p ≠ 0) :
    ∃ r, l = p :: r ∧ Chain next (next p) r := by
  cases l with
  | nil => exact absurd h hp
  | cons b r => exact ⟨r, by rw [h.1], h.1 ▸ h.2.2⟩

end Chain

end VirtualKernel.Lib
