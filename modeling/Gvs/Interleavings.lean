import Gvs.GuardedRuns

/-!
# Interleavings of two clients

A machine answers the inputs of two clients, the left and the right one. When
every input of the left commutes with every input of the right, in all states
that satisfy an invariant, the order in which the clients take turns shows
neither in the final state nor in any answer.
-/

set_option autoImplicit false

namespace Interleavings
open GuardedRuns

variable {σ ρ α : Type*}

def lefts (turns : List (ρ ⊕ ρ)) : List ρ := turns.filterMap Sum.getLeft?

def rights (turns : List (ρ ⊕ ρ)) : List ρ := turns.filterMap Sum.getRight?

def Interleaves (xs ys : List ρ) (turns : List (ρ ⊕ ρ)) : Prop :=
  lefts turns = xs ∧ rights turns = ys

def input : ρ ⊕ ρ → ρ
  | .inl r | .inr r => r

variable (react : σ → ρ → σ × α)

def next (s : σ) (r : ρ) : σ := (react s r).1

def answers : σ → List ρ → List α
  | _, [] => []
  | s, r::rs => (react s r).2 :: answers (next react s r) rs

def leftAnswers : σ → List (ρ ⊕ ρ) → List α
  | _, [] => []
  | s, .inl r::turns => (react s r).2 :: leftAnswers (next react s r) turns
  | s, .inr r::turns => leftAnswers (next react s r) turns

def rightAnswers : σ → List (ρ ⊕ ρ) → List α
  | _, [] => []
  | s, .inl r::turns => rightAnswers (next react s r) turns
  | s, .inr r::turns => (react s r).2 :: rightAnswers (next react s r) turns

structure Swap (s : σ) (a b : ρ) : Prop where
  state : next react (next react s a) b = next react (next react s b) a
  first : (react (next react s b) a).2 = (react s a).2
  second : (react (next react s a) b).2 = (react s b).2

section Commuting

variable {inv : σ → Prop} {xs ys : List ρ}

/-- An input of the right client can be put off to after a list of the left. -/
theorem pass_lefts {b : ρ}
    (hinv : ∀ s, ∀ a ∈ xs, inv s → inv (next react s a))
    (hswap : ∀ s, ∀ a ∈ xs, inv s → Swap react s a b) {s : σ} (hs : inv s) :
    run (next react) (next react s b) xs = next react (run (next react) s xs) b ∧
      answers react (next react s b) xs = answers react s xs ∧
      (react (run (next react) s xs) b).2 = (react s b).2 := by
  induction xs generalizing s with
  | nil => exact ⟨rfl, rfl, rfl⟩
  | cons a xs ih =>
    have ha := hswap s a (by simp) hs
    obtain ⟨hrun, hanswers, hlast⟩ := ih (fun t c hc => hinv t c (by simp [hc]))
      (fun t c hc => hswap t c (by simp [hc])) (hinv s a (by simp) hs)
    refine ⟨?_, ?_, ?_⟩
    · rw [run, run, ← ha.state, hrun]
    · rw [answers, answers, ha.first, ← ha.state, hanswers]
    · rw [run, hlast, ha.second]

/-- Every order of turns agrees with all of the left before all of the right. -/
theorem sorted_turns (turns : List (ρ ⊕ ρ)) {s : σ}
    (hinv : ∀ t, ∀ r ∈ turns.map input, inv t → inv (next react t r))
    (hswap : ∀ t, ∀ a ∈ lefts turns, ∀ b ∈ rights turns, inv t → Swap react t a b)
    (hs : inv s) :
    run (next react) s (turns.map input) =
        run (next react) (run (next react) s (lefts turns)) (rights turns) ∧
      leftAnswers react s turns = answers react s (lefts turns) ∧
      rightAnswers react s turns =
        answers react (run (next react) s (lefts turns)) (rights turns) := by
  induction turns generalizing s with
  | nil => exact ⟨rfl, rfl, rfl⟩
  | cons turn turns ih =>
    have hrest : ∀ t, ∀ r ∈ turns.map input, inv t → inv (next react t r) :=
      fun t r hr => hinv t r (by simp [hr])
    cases turn with
    | inl a =>
      have hl : lefts (.inl a :: turns) = a :: lefts turns := rfl
      have hr : rights (.inl a :: turns) = rights turns := rfl
      obtain ⟨hrun, hleft, hright⟩ := ih hrest
        (fun t c hc b hb => hswap t c (by simp [hl, hc]) b (by simpa [hr] using hb))
        (hinv s a (by simp [input]) hs)
      rw [hl, hr]
      exact ⟨hrun, congrArg _ hleft, hright⟩
    | inr b =>
      have hl : lefts (.inr b :: turns) = lefts turns := rfl
      have hr : rights (.inr b :: turns) = b :: rights turns := rfl
      obtain ⟨hrun, hleft, hright⟩ := ih hrest
        (fun t c hc d hd => hswap t c (by simpa [hl] using hc) d (by simp [hr, hd]))
        (hinv s b (by simp [input]) hs)
      have hleftinv : ∀ t, ∀ a ∈ lefts turns, inv t → inv (next react t a) := by
        intro t a ha
        obtain ⟨turn, hturn, hget⟩ := List.mem_filterMap.mp ha
        obtain rfl := Sum.getLeft?_eq_some_iff.mp hget
        exact hinv t a (List.mem_cons_of_mem _ (List.mem_map.mpr ⟨_, hturn, rfl⟩))
      obtain ⟨hstate, hanswers, hlast⟩ := pass_lefts react hleftinv
        (fun t a ha => hswap t a (by simpa [hl] using ha) b (by simp [hr])) hs
      rw [hl, hr, List.map_cons, run, run, answers, leftAnswers, rightAnswers, hlast, ← hanswers]
      change run (next react) (next react s b) _ = _ ∧ _
      rw [hrun, hleft, hright, hstate]
      exact ⟨rfl, rfl, rfl⟩

end Commuting

/-- Two interleavings of the same clients end in the same state and answer
every input alike. -/
theorem interleavings_agree {inv : σ → Prop} {xs ys : List ρ} {s : σ}
    (hinv : ∀ t, ∀ r ∈ xs ++ ys, inv t → inv (next react t r))
    (hswap : ∀ t, ∀ a ∈ xs, ∀ b ∈ ys, inv t → Swap react t a b) (hs : inv s)
    {turns turns' : List (ρ ⊕ ρ)} (h : Interleaves xs ys turns) (h' : Interleaves xs ys turns') :
    run (next react) s (turns.map input) = run (next react) s (turns'.map input) ∧
      leftAnswers react s turns = leftAnswers react s turns' ∧
      rightAnswers react s turns = rightAnswers react s turns' := by
  have hmem : ∀ us : List (ρ ⊕ ρ), Interleaves xs ys us → ∀ r ∈ us.map input, r ∈ xs ++ ys := by
    rintro us ⟨rfl, rfl⟩ r hr
    obtain ⟨turn, hturn, rfl⟩ := List.mem_map.mp hr
    rw [List.mem_append]
    cases turn with
    | inl a => exact Or.inl (List.mem_filterMap.mpr ⟨_, hturn, rfl⟩)
    | inr b => exact Or.inr (List.mem_filterMap.mpr ⟨_, hturn, rfl⟩)
  have hsorted : ∀ us : List (ρ ⊕ ρ), Interleaves xs ys us →
      run (next react) s (us.map input) = run (next react) (run (next react) s xs) ys ∧
        leftAnswers react s us = answers react s xs ∧
        rightAnswers react s us = answers react (run (next react) s xs) ys := by
    intro us hus
    have hturns := sorted_turns react us (fun t r hr => hinv t r (hmem us hus r hr))
      (fun t a ha b hb => hswap t a (hus.1 ▸ ha) b (hus.2 ▸ hb)) hs
    rwa [hus.1, hus.2] at hturns
  obtain ⟨hrun, hleft, hright⟩ := hsorted turns h
  obtain ⟨hrun', hleft', hright'⟩ := hsorted turns' h'
  exact ⟨hrun.trans hrun'.symm, hleft.trans hleft'.symm, hright.trans hright'.symm⟩

/-- A machine that shows another one: what is seen of a state determines the
answer and what is seen of the next state. -/
theorem seen_runs {τ : Type*} {react : σ → ρ → σ × α} {seen : σ → τ} {shown : τ → ρ → τ × α}
    (h : ∀ s r, shown (seen s) r = (seen (react s r).1, (react s r).2)) (turns : List (ρ ⊕ ρ))
    (s : σ) :
    run (next shown) (seen s) (turns.map input) = seen (run (next react) s (turns.map input)) ∧
      leftAnswers shown (seen s) turns = leftAnswers react s turns ∧
      rightAnswers shown (seen s) turns = rightAnswers react s turns := by
  have hnext : ∀ t r, next shown (seen t) r = seen (next react t r) := fun t r => by
    rw [next, h, next]
  induction turns generalizing s with
  | nil => exact ⟨rfl, rfl, rfl⟩
  | cons turn turns ih =>
    cases turn with
    | inl a =>
      obtain ⟨hrun, hleft, hright⟩ := ih (next react s a)
      refine ⟨?_, ?_, ?_⟩
      · show run (next shown) (next shown (seen s) a) (turns.map input) = _
        rw [hnext, hrun]
        rfl
      · rw [leftAnswers, leftAnswers, h, hnext, hleft]
      · rw [rightAnswers, rightAnswers, hnext, hright]
    | inr b =>
      obtain ⟨hrun, hleft, hright⟩ := ih (next react s b)
      refine ⟨?_, ?_, ?_⟩
      · show run (next shown) (next shown (seen s) b) (turns.map input) = _
        rw [hnext, hrun]
        rfl
      · rw [leftAnswers, leftAnswers, hnext, hleft]
      · rw [rightAnswers, rightAnswers, h, hnext, hright]

end Interleavings
