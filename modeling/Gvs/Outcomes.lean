import Mathlib.Tactic.TypeStar

/-!
# Steps that can raise

A step either finishes or raises a failure; in both cases it leaves a state,
so that what was changed before a raise is visible. A driver feeds a list of
inputs to a step and stops at the first raise.
-/

set_option autoImplicit false

inductive Outcome (φ σ : Type*) where
  | done (state : σ)
  | raised (failure : φ) (state : σ)
  deriving Repr

namespace Outcome

variable {φ σ α : Type*}

def state : Outcome φ σ → σ
  | .done s => s
  | .raised _ s => s

def Returns (o : Outcome φ σ) : Prop := o = .done o.state

def andThen (o : Outcome φ σ) (f : σ → Outcome φ σ) : Outcome φ σ :=
  match o with
  | .done s => f s
  | .raised failure s => .raised failure s

def drive (act : σ → α → Outcome φ σ) : σ → List α → Outcome φ σ
  | s, [] => .done s
  | s, a::as => (act s a).andThen (fun s' => drive act s' as)

@[simp] theorem state_done (s : σ) : (Outcome.done s : Outcome φ σ).state = s := rfl

@[simp] theorem state_raised (failure : φ) (s : σ) :
    (Outcome.raised failure s).state = s := rfl

@[simp] theorem returns_done (s : σ) : (Outcome.done s : Outcome φ σ).Returns := rfl

@[simp] theorem not_returns_raised (failure : φ) (s : σ) :
    ¬ (Outcome.raised failure s).Returns := by
  intro h
  cases h

theorem returns_iff (o : Outcome φ σ) : o.Returns ↔ ∃ s, o = .done s := by
  cases o with
  | done s => simp
  | raised failure s => simp

@[simp] theorem done_andThen (s : σ) (f : σ → Outcome φ σ) :
    (Outcome.done s).andThen f = f s := rfl

@[simp] theorem raised_andThen (failure : φ) (s : σ) (f : σ → Outcome φ σ) :
    (Outcome.raised failure s).andThen f = .raised failure s := rfl

theorem andThen_eq_done {o : Outcome φ σ} {f : σ → Outcome φ σ} {s : σ} :
    o.andThen f = .done s ↔ ∃ s', o = .done s' ∧ f s' = .done s := by
  cases o with
  | done s' => simp
  | raised failure s' => simp

theorem returns_andThen {o : Outcome φ σ} {f : σ → Outcome φ σ} :
    (o.andThen f).Returns ↔ ∃ s, o = .done s ∧ (f s).Returns := by
  cases o with
  | done s => simp
  | raised failure s => simp

theorem state_andThen {P : σ → Prop} {o : Outcome φ σ} {f : σ → Outcome φ σ}
    (ho : P o.state) (hf : ∀ s, P s → P (f s).state) : P (o.andThen f).state := by
  cases o with
  | done s => exact hf s ho
  | raised failure s => exact ho

theorem drive_append (act : σ → α → Outcome φ σ) (s : σ) (as bs : List α) :
    drive act s (as ++ bs) = (drive act s as).andThen (fun s' => drive act s' bs) := by
  induction as generalizing s with
  | nil => rfl
  | cons a as ih =>
    cases ha : act s a with
    | done s' => simp [drive, ha, ih]
    | raised failure s' => simp [drive, ha]

theorem drive_state (act : σ → α → Outcome φ σ) {P : σ → Prop}
    (h : ∀ s a, P s → P (act s a).state) {s : σ} (hs : P s) (as : List α) :
    P (drive act s as).state := by
  induction as generalizing s with
  | nil => exact hs
  | cons a as ih => exact state_andThen (h s a hs) (fun s' hs' => ih hs')

/-- A driver raises where a step raises after the inputs before it were done. -/
theorem drive_eq_raised {act : σ → α → Outcome φ σ} {s s' : σ} {as : List α} {failure : φ}
    (h : drive act s as = .raised failure s') :
    ∃ before a after t, as = before ++ a :: after ∧ drive act s before = .done t ∧
      act t a = .raised failure s' := by
  induction as generalizing s with
  | nil => cases h
  | cons a as ih =>
    cases ha : act s a with
    | raised failure' t =>
      rw [drive, ha, raised_andThen] at h
      exact ⟨[], a, as, s, rfl, rfl, ha.trans h⟩
    | done t =>
      rw [drive, ha, done_andThen] at h
      obtain ⟨before, b, after, t', rfl, hbefore, hb⟩ := ih h
      exact ⟨a :: before, b, after, t', rfl, by rw [drive, ha, done_andThen, hbefore], hb⟩

/-- A pass over inputs with different keys changes what is seen under each of
their keys once, and under no other key. -/
theorem drive_keyed {κ β : Type*} [DecidableEq κ] {act : σ → α → Outcome φ σ}
    {look : σ → κ → Option β} {key : α → κ} {change : α → β → β} {P : σ → Prop}
    (hP : ∀ s a s', P s → act s a = .done s' → P s')
    (hlook : ∀ s a s', P s → act s a = .done s' → ∀ k,
      look s' k = if k = key a then (look s k).map (change a) else look s k)
    {s s' : σ} (hs : P s) {as : List α} (hn : (as.map key).Nodup)
    (h : drive act s as = .done s') :
    (∀ a ∈ as, look s' (key a) = (look s (key a)).map (change a)) ∧
      ∀ k ∉ as.map key, look s' k = look s k := by
  induction as generalizing s with
  | nil =>
    cases h
    exact ⟨by simp, fun _ _ => rfl⟩
  | cons a as ih =>
    obtain ⟨s₁, h₁, hrest⟩ := andThen_eq_done.mp h
    have hstep := hlook s a s₁ hs h₁
    rw [List.map_cons, List.nodup_cons] at hn
    obtain ⟨hin, hout⟩ := ih (hP s a s₁ hs h₁) hn.2 hrest
    constructor
    · intro b hb
      rcases List.mem_cons.mp hb with rfl | hb
      · rw [hout (key b) hn.1, hstep, if_pos rfl]
      · have hne : key b ≠ key a := fun he => hn.1 (he ▸ List.mem_map_of_mem hb)
        rw [hin b hb, hstep, if_neg hne]
    · intro k hk
      rw [List.map_cons, List.mem_cons, not_or] at hk
      rw [hout k hk.2, hstep, if_neg hk.1]

end Outcome
