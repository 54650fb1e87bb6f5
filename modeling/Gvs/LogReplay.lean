import Gvs.GuardedRuns

/-!
# Joining a log

The state of a machine is the run of a log of inputs. A reader that starts
from a snapshot may run again inputs that the snapshot already contains. That
does no harm when the part run twice is absorbed by itself, for example when
the inputs act by idempotent functions closed under composition. A reader that
asks for a snapshot and reads the log from a cursor, in any order, accounts
for the whole log as long as the snapshot reaches the cursor. A reader that
only appends what it reads must begin to read exactly where its snapshot ends.
-/

set_option autoImplicit false

namespace LogReplay
open GuardedRuns

variable {σ ρ : Type*} (step : σ → ρ → σ)

def Absorbing (rs : List ρ) : Prop := ∀ s, run step (run step s rs) rs = run step s rs

theorem drop_split (log : List ρ) {n w : ℕ} (h : n ≤ w) :
    log.drop n = (log.take w).drop n ++ log.drop w := by
  rw [List.drop_take]
  calc log.drop n = (log.drop n).take (w - n) ++ (log.drop n).drop (w - n) :=
        (List.take_append_drop _ _).symm
    _ = (log.drop n).take (w - n) ++ log.drop w := by
        rw [List.drop_drop, Nat.add_sub_cancel' h]

theorem run_overlap (s : σ) (log : List ρ) {n w : ℕ} (h : n ≤ w)
    (ha : Absorbing step ((log.take w).drop n)) :
    run step (run step s (log.take w)) (log.drop n) = run step s log := by
  have hsnapshot : run step s (log.take w) =
      run step (run step s ((log.take w).take n)) ((log.take w).drop n) := by
    rw [← run_append, List.take_append_drop]
  have hprefix : run step (run step s (log.take w)) ((log.take w).drop n) =
      run step s (log.take w) := by
    rw [hsnapshot, ha]
  rw [drop_split log h, run_append, hprefix, ← run_append, List.take_append_drop]

/-- Lists of inputs that act by idempotent functions closed under composition
are absorbed by themselves. -/
theorem absorbing_of_closed {M : (σ → σ) → Prop} (hid : M id)
    (hcomp : ∀ f g, M f → M g → M (g ∘ f)) (hidem : ∀ f, M f → ∀ s, f (f s) = f s)
    {rs : List ρ} (hrs : ∀ r ∈ rs, M (fun s => step s r)) : Absorbing step rs := by
  have hM : M (fun s => run step s rs) := by
    induction rs with
    | nil => exact hid
    | cons r rs ih =>
      exact hcomp _ _ (hrs r (by simp)) (ih fun w hw => hrs w (by simp [hw]))
  exact hidem _ hM

/-- A snapshot that a reader asked for: an answer is the state after the part
of the log that was written. -/
inductive Reply (σ : Type*) where
  | unanswered
  | answered (state : σ) (written : ℕ)
  | received

def unread (log : List ρ) : Option ℕ → List ρ
  | none => []
  | some n => log.drop n

/-- What a reader holds, waits for and has not read adds up to the log. -/
def Accounts (start : σ) (log : List ρ) (cursor : Option ℕ) (held : σ) : Reply σ → Prop
  | .unanswered => True
  | .answered state written => written ≤ log.length ∧ run step start (log.take written) = state ∧
      (cursor = none → written = log.length) ∧ ∀ n, cursor = some n → n ≤ written
  | .received => run step held (unread log cursor) = run step start log

section Joining

variable {start : σ} {log : List ρ} {cursor : Option ℕ} {held : σ} {reply : Reply σ}

/-- Nothing may be written between an answer and the first read. -/
theorem accounts_write (h : Accounts step start log cursor held reply)
    (hn : ∀ n, cursor = some n → n ≤ log.length) {rs : List ρ}
    (hc : cursor = none → reply = .unanswered ∨ rs = []) :
    Accounts step start (log ++ rs) cursor held reply := by
  cases reply with
  | unanswered => trivial
  | answered state written =>
    obtain ⟨hw, hrun, hnone, hsome⟩ := h
    refine ⟨?_, by rw [List.take_append_of_le_length hw, hrun], fun he => ?_, hsome⟩
    · rw [List.length_append]
      omega
    · rcases hc he with hu | rfl
      · cases hu
      · simpa using hnone he
  | received =>
    cases cursor with
    | none =>
      rcases hc rfl with hu | rfl
      · cases hu
      · simpa [Accounts] using h
    | some n =>
      have hsplit : unread (log ++ rs) (some n) = unread log (some n) ++ rs :=
        List.drop_append_of_le_length (hn n rfl)
      rw [Accounts, hsplit, run_append, run_append]
      exact congrArg (fun s => run step s rs) h

theorem accounts_subscribe (h : Accounts step start log none held reply) :
    Accounts step start log (some log.length) held reply := by
  cases reply with
  | unanswered => trivial
  | answered state written =>
    obtain ⟨hw, hrun, hnone, -⟩ := h
    refine ⟨hw, hrun, (fun he => by cases he), fun n he => ?_⟩
    cases he
    exact Nat.le_of_eq (hnone rfl).symm
  | received => simpa [Accounts, unread] using h

theorem accounts_answer (hn : ∀ n, cursor = some n → n ≤ log.length) :
    Accounts step start log cursor held (.answered (run step start log) log.length) :=
  ⟨Nat.le_refl _, by rw [List.take_length], fun _ => rfl, hn⟩

theorem accounts_receive {state : σ} {written : ℕ}
    (h : Accounts step start log cursor held (.answered state written))
    (ha : ∀ n, cursor = some n → Absorbing step ((log.take written).drop n)) :
    Accounts step start log cursor state .received := by
  obtain ⟨-, hrun, hnone, hsome⟩ := h
  rw [Accounts, ← hrun]
  cases cursor with
  | none => rw [hnone rfl, List.take_length, unread, run]
  | some n => exact run_overlap step start log (hsome n rfl) (ha n rfl)

/-- Nothing may be read past an answer that is still in flight. -/
theorem accounts_read {n : ℕ} (h : Accounts step start log (some n) held reply)
    (hn : n < log.length) (hr : ∀ state written, reply = .answered state written → n < written) :
    Accounts step start log (some (n + 1)) (step held log[n]) reply := by
  cases reply with
  | unanswered => trivial
  | answered state written =>
    obtain ⟨hw, hrun, -, -⟩ := h
    refine ⟨hw, hrun, (fun he => by cases he), fun m he => ?_⟩
    cases he
    exact hr state written rfl
  | received =>
    rw [Accounts, unread, List.drop_eq_getElem_cons hn] at h
    exact h

end Joining

section Appending

variable {log : List ρ} {taken first cursor : ℕ}

/-- What a reader holds that took over the first entries of the log from a
snapshot and then appended what it read from one position to another. -/
def appended (log : List ρ) (taken first cursor : ℕ) : List ρ :=
  log.take taken ++ (log.take cursor).drop first

theorem appended_start (log : List ρ) (taken first : ℕ) :
    appended log taken first first = log.take taken := by
  have hnone : (log.take first).drop first = [] := by simp
  rw [appended, hnone, List.append_nil]

theorem appended_write (ht : taken ≤ log.length) (hc : cursor ≤ log.length) (rs : List ρ) :
    appended (log ++ rs) taken first cursor = appended log taken first cursor := by
  rw [appended, appended, List.take_append_of_le_length ht, List.take_append_of_le_length hc]

theorem appended_read (hf : first ≤ cursor) (hc : cursor < log.length) :
    appended log taken first (cursor + 1) = appended log taken first cursor ++ [log[cursor]] := by
  have hlen : first ≤ (log.take cursor).length := by
    rw [List.length_take]
    omega
  rw [appended, appended, List.take_succ_eq_append_getElem hc,
    List.drop_append_of_le_length hlen, List.append_assoc]

/-- At the end of the log the reader holds all of it exactly when it began to
read where the snapshot ended: otherwise entries are missing or held twice. -/
theorem appended_eq_iff (ht : taken ≤ log.length) (hf : first ≤ log.length) :
    appended log taken first log.length = log ↔ taken = first := by
  rw [appended, List.take_length]
  constructor
  · intro h
    have hlen := congrArg List.length h
    rw [List.length_append, List.length_take, List.length_drop] at hlen
    omega
  · rintro rfl
    exact List.take_append_drop taken log

end Appending

end LogReplay
