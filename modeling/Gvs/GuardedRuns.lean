import Mathlib.Data.List.Basic
import Mathlib.Data.List.Induction
import Mathlib.Tactic.TypeStar

/-!
# Runs of a deterministic machine

A machine is a step function on states and inputs. A run feeds it a finite
input list. A guard is a condition on a state and the input it is about to
receive; a property is held everywhere when every state of the run has it.
The rules below turn facts about one step into facts about whole runs.
-/

set_option autoImplicit false

namespace GuardedRuns

variable {σ ρ : Type*}

def run (step : σ → ρ → σ) : σ → List ρ → σ
  | s, [] => s
  | s, r::rs => run step (step s r) rs

def Along (step : σ → ρ → σ) (guard : σ → ρ → Prop) : σ → List ρ → Prop
  | _, [] => True
  | s, r::rs => guard s r ∧ Along step guard (step s r) rs

def Everywhere (step : σ → ρ → σ) (good : σ → Prop) : σ → List ρ → Prop
  | s, [] => good s
  | s, r::rs => good s ∧ Everywhere step good (step s r) rs

variable (step : σ → ρ → σ)

theorem run_append (s : σ) (rs ts : List ρ) :
    run step s (rs ++ ts) = run step (run step s rs) ts := by
  induction rs generalizing s with
  | nil => rfl
  | cons r rs ih => exact ih _

theorem along_append (guard : σ → ρ → Prop) (s : σ) (rs ts : List ρ) :
    Along step guard s (rs ++ ts) ↔
      Along step guard s rs ∧ Along step guard (run step s rs) ts := by
  induction rs generalizing s with
  | nil => simp [Along, run]
  | cons r rs ih => simp [Along, run, ih, and_assoc]

theorem along_mono {guard guard' : σ → ρ → Prop} (h : ∀ s r, guard s r → guard' s r) {s : σ}
    {rs : List ρ} (hrs : Along step guard s rs) : Along step guard' s rs := by
  induction rs generalizing s with
  | nil => trivial
  | cons r rs ih => exact ⟨h s r hrs.1, ih hrs.2⟩

theorem along_and {guard guard' : σ → ρ → Prop} {s : σ} {rs : List ρ}
    (h : Along step guard s rs) (h' : Along step guard' s rs) :
    Along step (fun s r => guard s r ∧ guard' s r) s rs := by
  induction rs generalizing s with
  | nil => trivial
  | cons r rs ih => exact ⟨⟨h.1, h'.1⟩, ih h.2 h'.2⟩

theorem everywhere_start {good : σ → Prop} {s : σ} {rs : List ρ}
    (h : Everywhere step good s rs) : good s := by
  cases rs with
  | nil => exact h
  | cons r rs => exact h.1

theorem run_invariant {inv : σ → Prop} (hstep : ∀ s r, inv s → inv (step s r))
    {s : σ} (hs : inv s) (rs : List ρ) : inv (run step s rs) := by
  induction rs generalizing s with
  | nil => exact hs
  | cons r rs ih => exact ih (hstep s r hs)

theorem run_invariant_along (inv : σ → Prop) {guard : σ → ρ → Prop}
    (hstep : ∀ s r, inv s → guard s r → inv (step s r)) {s : σ} (hs : inv s)
    {rs : List ρ} (h : Along step guard s rs) : inv (run step s rs) := by
  induction rs generalizing s with
  | nil => exact hs
  | cons r rs ih => exact ih (hstep s r hs h.1) h.2

theorem everywhere_of_along {good : σ → Prop} {guard : σ → ρ → Prop}
    (hstep : ∀ s r, good s → guard s r → good (step s r)) {s : σ} (hs : good s)
    {rs : List ρ} (h : Along step guard s rs) : Everywhere step good s rs := by
  induction rs generalizing s with
  | nil => exact hs
  | cons r rs ih => exact ⟨hs, ih (hstep s r hs h.1) h.2⟩

theorem everywhere_mono {good good' : σ → Prop} (h : ∀ s, good s → good' s) {s : σ}
    {rs : List ρ} (hrs : Everywhere step good s rs) : Everywhere step good' s rs := by
  induction rs generalizing s with
  | nil => exact h s hrs
  | cons r rs ih => exact ⟨h s hrs.1, ih hrs.2⟩

/-- When a guard is exactly what one step needs to keep a property, it is
exactly what a run needs to have the property everywhere. The invariant may
be used on both sides and is not affected by the guard. -/
theorem everywhere_iff_along (inv : σ → Prop) {good : σ → Prop} {guard : σ → ρ → Prop}
    (hinv : ∀ s r, inv s → inv (step s r))
    (hstep : ∀ s r, inv s → good s → (good (step s r) ↔ guard s r))
    {s : σ} (hi : inv s) (hs : good s) (rs : List ρ) :
    Everywhere step good s rs ↔ Along step guard s rs := by
  induction rs generalizing s with
  | nil => simp [Everywhere, Along, hs]
  | cons r rs ih =>
    constructor
    · intro h
      have hg : good (step s r) := everywhere_start step h.2
      exact ⟨(hstep s r hi hs).mp hg, (ih (hinv s r hi) hg).mp h.2⟩
    · intro h
      have hg : good (step s r) := (hstep s r hi hs).mpr h.1
      exact ⟨hs, (ih (hinv s r hi) hg).mpr h.2⟩

/-- The same inside a domain of inputs, for a property that follows from an
invariant: guarded steps keep the invariant, and a step that keeps the property
was guarded. -/
theorem everywhere_iff_along_within (inv : σ → Prop) {good : σ → Prop} {dom guard : σ → ρ → Prop}
    (hgood : ∀ s, inv s → good s)
    (hkeep : ∀ s r, inv s → dom s r → guard s r → inv (step s r))
    (hbreak : ∀ s r, inv s → dom s r → good (step s r) → guard s r)
    {s : σ} (hi : inv s) {rs : List ρ} (hd : Along step dom s rs) :
    Everywhere step good s rs ↔ Along step guard s rs := by
  induction rs generalizing s with
  | nil => simp [Everywhere, Along, hgood s hi]
  | cons r rs ih =>
    constructor
    · intro h
      have hg := hbreak s r hi hd.1 (everywhere_start step h.2)
      exact ⟨hg, (ih (hkeep s r hi hd.1 hg) hd.2).mp h.2⟩
    · intro h
      exact ⟨hgood s hi, (ih (hkeep s r hi hd.1 h.1) hd.2).mpr h.2⟩

theorem run_skip {s : σ} {before : List ρ} {r : ρ} (h : step (run step s before) r = run step s before)
    (after : List ρ) : run step s (before ++ r :: after) = run step s (before ++ after) := by
  rw [run_append, run, h, run_append]

theorem split_concat {rs before after : List ρ} {r q : ρ}
    (h : rs ++ [r] = before ++ q :: after) :
    (rs = before ∧ r = q) ∨ ∃ after', rs = before ++ q :: after' := by
  rcases List.eq_nil_or_concat after with rfl | ⟨after, last, rfl⟩
  · obtain ⟨hb, hq⟩ := List.append_inj' h rfl
    exact Or.inl ⟨hb, by simpa using hq⟩
  · rw [List.concat_eq_append, ← List.cons_append, ← List.append_assoc] at h
    exact Or.inr ⟨after, (List.append_inj' h rfl).1⟩

/-- A log that starts empty and that every step extends by what it emits: its
entries are the emissions of the run, each at the length the log had then. -/
theorem emitted_iff {α : Type*} (log : σ → List α) (emit : σ → ρ → Option α)
    (h : ∀ s r, log (step s r) = log s ++ (emit s r).toList) {s : σ} (hs : log s = [])
    (rs : List ρ) (k : ℕ) (x : α) :
    (log (run step s rs))[k]? = some x ↔
      ∃ before r after, rs = before ++ r :: after ∧ (log (run step s before)).length = k ∧
        emit (run step s before) r = some x := by
  induction rs using List.reverseRecOn with
  | nil => simp [run, hs]
  | append_singleton rs r ih =>
    have hlast : log (run step s (rs ++ [r])) =
        log (run step s rs) ++ (emit (run step s rs) r).toList := by
      rw [run_append]
      exact h (run step s rs) r
    rw [hlast]
    constructor
    · intro hk
      by_cases hlt : k < (log (run step s rs)).length
      · rw [List.getElem?_append_left hlt] at hk
        obtain ⟨before, q, after, rfl, hq⟩ := ih.mp hk
        exact ⟨before, q, after ++ [r], by simp, hq⟩
      · rw [List.getElem?_append_right (by omega)] at hk
        cases he : emit (run step s rs) r with
        | none => simp [he] at hk
        | some y =>
          have hzero : k - (log (run step s rs)).length = 0 := by
            by_contra hne
            simp [he, hne] at hk
          simp only [he, hzero, Option.toList_some, List.getElem?_cons_zero,
            Option.some.injEq] at hk
          exact ⟨rs, r, [], rfl, by omega, by rw [he, hk]⟩
    · rintro ⟨before, q, after, hsplit, rfl, hq⟩
      rcases split_concat hsplit with ⟨rfl, rfl⟩ | ⟨after', rfl⟩
      · simp [hq]
      · have hk := ih.mpr ⟨before, q, after', rfl, rfl, hq⟩
        rw [List.getElem?_append_left (List.getElem?_eq_some_iff.mp hk).1]
        exact hk

end GuardedRuns
