import Gvs.ViewerAtRest

/-!
# How many frames are drawn

Between a reset of the draw counter and the next rest of the viewer at least
five frames are begun, and once nothing resets the counter any more the number
of frames to come is fixed by the counter and the mark.
-/

set_option autoImplicit false

namespace GVS.FrameCount
open GVS.Proto GVS.Server GuardedRuns
open GVS.Vis GVS.Resetting GVS.Viewers GVS.ViewerAppearance GVS.FailedSnapshots GVS.Drains
open GVS.FrameLoop GVS.ViewerAtRest

section Frames

/-- A reset of the counter that does not fall between the load and the store of
a frame, where it would be overwritten. -/
def Resets (s : Loop) : Choice → Prop
  | .thread k => (s.threads k).head? = some .setDrawCounter ∧
      ∀ value, .storeDrawCounter value ∉ s.main
  | .main => s.main.head? = some .setDrawCounter
  | .call _ _ | .input | .frame _ => False

def Since (b : ℕ) (s : Loop) : Prop := 4 + (b : ℤ) ≤ (settled s).1 + s.begun

theorem settle_marked_ge (c : ℤ) (m : Bool) (p : List Instruction) :
    (settle (c, m) p).1 ≤ (settle (c, true) p).1 :=
  (settle_mono (Int.le_refl c) (fun _ => rfl) p).1

theorem since_step (order : MapOrder) {b : ℕ} (s : Loop) (c : Choice)
    (h : Regular s ∧ Since b s) : Regular (step order s c) ∧ Since b (step order s c) := by
  refine ⟨regular_step order s c h.1, ?_⟩
  obtain ⟨hs, hb⟩ := h
  have hceiling := hs.ceiling
  unfold Since at hb ⊢
  have hstepped := stepped order s c
  generalize step order s c = s' at hstepped ⊢
  cases hstepped with
  | idle => exact hb
  | call k callback hk => exact hb
  | input hm =>
    rw [settled_idle hm] at hb
    show 4 + (b : ℤ) ≤ 5 + s.begun
    omega
  | frame fast hm hr =>
    rw [settled_idle hm] at hb
    cases fast with
    | true =>
      show 4 + (b : ℤ) ≤ 5 - 1 + ((s.begun + 1 : ℕ) : ℤ)
      omega
    | false =>
      show 4 + (b : ℤ) ≤ s.drawCounter - 1 + ((s.begun + 1 : ℕ) : ℤ)
      omega
  | thread k i rest hk =>
    have hcode := hs.callbackCode k
    rw [hk] at hcode
    cases i with
    | client e => exact hb
    | setDrawCounter =>
      have hmono := (settle_mono hceiling (m := s.redraw) id s.main).1
      exact hb.trans (Int.add_le_add_right hmono _)
    | redraw =>
      have hmono := settle_marked_ge s.drawCounter s.redraw s.main
      exact hb.trans (Int.add_le_add_right hmono _)
    | loadDrawCounter => exact hcode.elim
    | storeDrawCounter value => exact hcode.elim
  | main i rest hm hr =>
    rw [settled_main order hm]
    simpa using hb

theorem since_reset (order : MapOrder) {s : Loop} {c : Choice} (hs : Regular s)
    (hr : Resets s c) (hrun : running s = true) : Since s.begun (step order s c) := by
  have hcode := hs.mainCode
  unfold Since
  rw [step, if_pos hrun]
  cases c with
  | call k callback => exact hr.elim
  | input => exact hr.elim
  | frame fast => exact hr.elim
  | thread k =>
    obtain ⟨rest, hk⟩ := List.head?_eq_some_iff.mp hr.1
    have hfive := settle_five hcode hr.2 s.redraw
    simp only [perform, hk]
    show 4 + (s.begun : ℤ) ≤ (settle (5, s.redraw) s.main).1 + s.begun
    omega
  | main =>
    obtain ⟨rest, hm⟩ := List.head?_eq_some_iff.mp hr
    rw [hm] at hcode
    have hfive := settle_five hcode.2 hcode.1 s.redraw
    simp only [perform, hm]
    show 4 + (s.begun : ℤ) ≤ (settle (5, s.redraw) rest).1 + s.begun
    omega

theorem quiet_used_up {s : Loop} (h : Quiet s) (hs : Regular s) : s.drawCounter < 0 := by
  by_contra hc
  have hcounted := hs.counted (by rw [quiet_settled h]; omega)
  rw [quiet_settled h] at hcounted
  rcases hcounted with hmark | hmarks
  · cases hmark
  · exact quiet_no_marks h hmarks

theorem run_stopped (order : MapOrder) {s : Loop} (h : running s = false) (cs : List Choice) :
    run (step order) s cs = s := by
  induction cs with
  | nil => rfl
  | cons c cs ih => rw [run, step, if_neg (by simp [h]), ih]

theorem not_quiet_of_resets {s : Loop} {c : Choice} (h : Resets s c) : ¬ Quiet s := by
  rintro ⟨-, hmain, hthreads⟩
  cases c with
  | call k callback => exact h
  | input => exact h
  | frame fast => exact h
  | thread k => simp [Resets, hthreads k] at h
  | main => simp [Resets, hmain] at h

/-- At least five frames are begun between a reset of the counter and the next
rest, however the threads are interleaved. -/
theorem five_frames (order : MapOrder) (before : List Choice) (c : Choice) (after : List Choice)
    (hr : Resets (run (step order) {} before) c)
    (hq : Quiet (run (step order) {} (before ++ c :: after))) :
    (run (step order) {} before).begun + 5 ≤
      (run (step order) {} (before ++ c :: after)).begun := by
  have hs := regular_run order before
  rw [run_append, run] at hq ⊢
  cases hrun : running (run (step order) {} before) with
  | false =>
    rw [step, if_neg (by simp [hrun]), run_stopped order hrun] at hq
    exact absurd hq (not_quiet_of_resets hr)
  | true =>
    have hstart := since_reset order hs hr hrun
    have hend := run_invariant (step order) (since_step order)
      ⟨regular_step order _ c hs, hstart⟩ after
    have hused := quiet_used_up hq hend.1
    have hsince := hend.2
    rw [Since, quiet_settled hq] at hsince
    simp only at hsince
    omega

def deliveredInFrame : List Choice :=
  [.frame false, .call 0 (.processSceneUpdate (.addItem shapedItem)), .main, .thread 0]

def drawOn : List Choice :=
  [.main, .main, .main, .thread 0] ++
  (List.replicate 6 [.frame false, .main, .main, .main, .main]).flatten

set_option maxRecDepth 8000 in
theorem drawOn_quiet :
    Quiet (run (step entryOrder) {} (deliveredInFrame ++ .thread 0 :: drawOn)) :=
  ⟨rfl, rfl, fun k => by cases k <;> rfl⟩

theorem deliveredInFrame_resets :
    Resets (run (step entryOrder) {} deliveredInFrame) (.thread 0) := by
  refine ⟨rfl, fun value h => ?_⟩
  have hmain : (run (step entryOrder) {} deliveredInFrame).main = [.loadDrawCounter] := rfl
  rw [hmain] at h
  simp at h

theorem five_frames_for_an_item :
    (run (step entryOrder) {} deliveredInFrame).begun + 5 ≤
      (run (step entryOrder) {} (deliveredInFrame ++ .thread 0 :: drawOn)).begun :=
  five_frames entryOrder deliveredInFrame (.thread 0) drawOn deliveredInFrame_resets drawOn_quiet

def messageInFrame : List Choice :=
  (List.replicate 5 [.frame false, .main, .main, .main, .main]).flatten ++
    [.frame false, .main, .main, .call 0 (.processMessageUpdate ⟨"Sender", "Hello"⟩), .thread 0]

set_option maxRecDepth 8000 in
/-- A reset between the load and the store of a frame is lost: one frame is
begun for it and not five. -/
example :
    let lost := [.thread 0, .main, .thread 0, .frame false, .main, .main, .main]
    Quiet (run (step entryOrder) {} (messageInFrame ++ lost)) ∧
      (run (step entryOrder) {} messageInFrame).begun = 6 ∧
      (run (step entryOrder) {} (messageInFrame ++ lost)).begun = 7 :=
  ⟨⟨rfl, rfl, fun k => by cases k <;> rfl⟩, rfl, rfl⟩

end Frames

section ComingToRest

/-- What the main thread does while no input comes and the application does not
run as fast as possible. -/
def Calm : Choice → Prop
  | .call _ _ | .input => False
  | .frame fast => fast = false
  | .thread _ | .main => True

def framesLeft (s : Loop) : ℕ := if (settled s).2 then (settled s).1.toNat + 1 else 0

theorem calm_step (order : MapOrder) {s : Loop} (hidle : ∀ k, s.threads k = []) {c : Choice}
    (hc : Calm c) : (∀ k, (step order s c).threads k = []) ∧
      (step order s c).begun + framesLeft (step order s c) = s.begun + framesLeft s := by
  have hstepped := stepped order s c
  generalize step order s c = s' at hstepped ⊢
  cases hstepped with
  | idle => exact ⟨hidle, rfl⟩
  | call k callback hk => exact hc.elim
  | input hm => exact hc.elim
  | thread k i rest hk =>
    rw [hidle k] at hk
    cases hk
  | main i rest hm hr => exact ⟨by simpa using hidle, by simp [framesLeft, settled_main order hm]⟩
  | frame fast hm hr =>
    obtain rfl : fast = false := hc
    refine ⟨hidle, ?_⟩
    have hold : framesLeft s = s.drawCounter.toNat + 1 := by
      simp [framesLeft, settled_idle hm, hr]
    have hnew : framesLeft { s with
        redraw := false, main := drawEvent false, begun := s.begun + 1 } = s.drawCounter.toNat := by
      by_cases hpos : 0 < s.drawCounter
      · simp [framesLeft, settled, settle, drawEvent, configureGui, hpos]
        omega
      · simp [framesLeft, settled, settle, drawEvent, configureGui, hpos]
        omega
    rw [hold, hnew]
    show s.begun + 1 + s.drawCounter.toNat = _
    omega

theorem calm_run (order : MapOrder) {s : Loop} (hidle : ∀ k, s.threads k = []) {cs : List Choice}
    (hc : ∀ c ∈ cs, Calm c) : (∀ k, (run (step order) s cs).threads k = []) ∧
      (run (step order) s cs).begun + framesLeft (run (step order) s cs) =
        s.begun + framesLeft s := by
  induction cs generalizing s with
  | nil => exact ⟨hidle, rfl⟩
  | cons c cs ih =>
    obtain ⟨hidle', heq⟩ := calm_step order hidle (hc c List.mem_cons_self)
    obtain ⟨hend, hsum⟩ := ih hidle' (fun c' h => hc c' (List.mem_cons_of_mem _ h))
    exact ⟨hend, hsum.trans heq⟩

theorem settle_le {p : List Instruction} (hp : MainCode p) {c : ℤ} (hc : c ≤ 5) (m : Bool) :
    (settle (c, m) p).1 ≤ 5 := by
  induction p generalizing c m with
  | nil => exact hc
  | cons i p ih =>
    cases i with
    | client e => exact ih hp.2.2 hc m
    | setDrawCounter => exact ih hp.2 (Int.le_refl 5) m
    | redraw => exact ih hp hc true
    | loadDrawCounter =>
      obtain rfl : p = [] := hp
      show c - 1 ≤ 5
      omega
    | storeDrawCounter value =>
      have hvalue : value ≤ 4 := hp.1
      rcases hp.2 with rfl | rfl
      · show value ≤ 5
        omega
      · show value ≤ 5
        omega

theorem framesLeft_le {s : Loop} (h : Regular s) : framesLeft s ≤ 6 := by
  have hle : (settled s).1 ≤ 5 := settle_le h.mainCode h.ceiling s.redraw
  unfold framesLeft
  split <;> omega

/-- How many steps a program still takes: a load is followed by a store and
perhaps a mark. -/
def lasting : List Instruction → ℕ
  | [] => 0
  | .loadDrawCounter :: rest => lasting rest + 3
  | _ :: rest => lasting rest + 1

theorem lasting_main (order : MapOrder) {s : Loop} {i : Instruction} {rest : List Instruction}
    (hm : s.main = i :: rest) :
    lasting (execute order { s with main := rest } i).main < lasting s.main := by
  rw [hm]
  cases i with
  | client e => exact Nat.lt_succ_self _
  | setDrawCounter => exact Nat.lt_succ_self _
  | redraw => exact Nat.lt_succ_self _
  | storeDrawCounter value => exact Nat.lt_succ_self _
  | loadDrawCounter =>
    by_cases h : 0 < s.drawCounter <;> simp [execute, countDown, lasting, h]

theorem begun_step (order : MapOrder) (s : Loop) (c : Choice) :
    s.begun ≤ (step order s c).begun := by
  have hstepped := stepped order s c
  generalize step order s c = s' at hstepped ⊢
  cases hstepped with
  | idle => exact Nat.le_refl _
  | call k callback hk => exact Nat.le_refl _
  | input hm => exact Nat.le_refl _
  | frame fast hm hr => exact Nat.le_succ _
  | thread k i rest hk => simp
  | main i rest hm hr => simp

theorem begun_run (order : MapOrder) (s : Loop) (cs : List Choice) :
    s.begun ≤ (run (step order) s cs).begun := by
  have hkeep : ∀ t c, s.begun ≤ t.begun → s.begun ≤ (step order t c).begun :=
    fun t c h => h.trans (begun_step order t c)
  exact run_invariant (step order) hkeep (Nat.le_refl _) cs

theorem finishes (order : MapOrder) (s : Loop) :
    ∃ cs, (∀ c ∈ cs, Calm c) ∧
      ((run (step order) s cs).main = [] ∨ running (run (step order) s cs) = false) := by
  induction hn : lasting s.main using Nat.strongRecOn generalizing s with
  | ind n ih =>
    cases hr : running s with
    | false => exact ⟨[], by simp, Or.inr hr⟩
    | true =>
      cases hm : s.main with
      | nil => exact ⟨[], by simp, Or.inl hm⟩
      | cons i rest =>
        have hlt := lasting_main order hm
        have hstep : step order s .main = execute order { s with main := rest } i := by
          simp [step, perform, hr, hm]
        obtain ⟨cs, hcalm, hend⟩ := ih _ (hn ▸ hlt) _ rfl
        refine ⟨.main :: cs, List.forall_mem_cons.mpr ⟨trivial, hcalm⟩, ?_⟩
        rw [run, hstep]
        exact hend

/-- Left alone with its callbacks finished, the viewer comes to rest. -/
theorem rests (order : MapOrder) (s : Loop) (hidle : ∀ k, s.threads k = []) :
    ∃ cs, (∀ c ∈ cs, Calm c) ∧
      (Quiet (run (step order) s cs) ∨ running (run (step order) s cs) = false) := by
  induction hn : framesLeft s using Nat.strongRecOn generalizing s with
  | ind n ih =>
    obtain ⟨cs, hcalm, hend⟩ := finishes order s
    obtain ⟨hidle', hsum⟩ := calm_run order hidle hcalm
    by_cases hr : running (run (step order) s cs) = true
    · have hmain := hend.resolve_right (by simp [hr])
      cases hmark : (run (step order) s cs).redraw with
      | false => exact ⟨cs, hcalm, Or.inl ⟨hmark, hmain, hidle'⟩⟩
      | true =>
        obtain ⟨hidle'', hsum'⟩ := calm_step order hidle' (c := .frame false) rfl
        have hbegun := begun_run order s cs
        have hframe : (step order (run (step order) s cs) (.frame false)).begun =
            (run (step order) s cs).begun + 1 := by
          simp [step, perform, hr, hmain, hmark]
        obtain ⟨ds, hcalm', hend'⟩ := ih _ (by omega) _ hidle'' rfl
        refine ⟨cs ++ .frame false :: ds, ?_, by rw [run_append, run]; exact hend'⟩
        intro c hc
        rcases List.mem_append.mp hc with h | h
        · exact hcalm c h
        · rcases List.mem_cons.mp h with rfl | h
          · exact rfl
          · exact hcalm' c h
    · exact ⟨cs, hcalm, Or.inr (by simpa using hr)⟩

/-- When its callbacks have finished and no input comes, the viewer comes to
rest or has raised, whatever happened before, and on the way to its rest it
draws the frames that are left, six at most. -/
theorem comes_to_rest (order : MapOrder) (before : List Choice)
    (hidle : ∀ k, (run (step order) {} before).threads k = []) :
    let s := run (step order) {} before
    framesLeft s ≤ 6 ∧
      (∃ cs, (∀ c ∈ cs, Calm c) ∧
        (Quiet (run (step order) s cs) ∨ running (run (step order) s cs) = false)) ∧
      ∀ cs, (∀ c ∈ cs, Calm c) → Quiet (run (step order) s cs) →
        (run (step order) s cs).begun = s.begun + framesLeft s := by
  refine ⟨framesLeft_le (regular_run order before), rests order _ hidle, fun cs hcalm hq => ?_⟩
  have hsum := (calm_run order hidle hcalm).2
  have hnone : framesLeft (run (step order) (run (step order) {} before) cs) = 0 := by
    simp [framesLeft, quiet_settled hq]
  omega

def calledBack : List Choice := deliveredInFrame ++ [.thread 0, .thread 0]

theorem called_back_comes_to_rest :
    let s := run (step entryOrder) {} calledBack
    framesLeft s ≤ 6 ∧
      (∃ cs, (∀ c ∈ cs, Calm c) ∧
        (Quiet (run (step entryOrder) s cs) ∨ running (run (step entryOrder) s cs) = false)) ∧
      ∀ cs, (∀ c ∈ cs, Calm c) → Quiet (run (step entryOrder) s cs) →
        (run (step entryOrder) s cs).begun = s.begun + framesLeft s :=
  comes_to_rest entryOrder calledBack (fun k => by cases k <;> rfl)

theorem calm_appends (order : MapOrder) {s : Loop} (hs : Regular s)
    (hidle : ∀ k, s.threads k = []) {cs : List Choice} (hc : ∀ c ∈ cs, Calm c) :
    (history order s cs).flatMap appended = [] := by
  induction cs generalizing s with
  | nil => rfl
  | cons c cs ih =>
    have hcalm := hc c List.mem_cons_self
    have hrest := ih (regular_step order s c hs) (calm_step order hidle hcalm).1
      (fun c' h => hc c' (List.mem_cons_of_mem _ h))
    have hnone : (performed s c).flatMap appended = [] := by
      cases c with
      | call k callback => exact hcalm.elim
      | input => exact hcalm.elim
      | frame fast => rfl
      | thread k => simp [performed, hidle k]
      | main =>
        have hcode := hs.mainCode
        cases hm : s.main with
        | nil => simp [performed, hm]
        | cons i rest =>
          rw [hm] at hcode
          cases i with
          | client e =>
            obtain rfl : e = .update := hcode.1
            simp [performed, hm, appended]
          | setDrawCounter => simp [performed, hm]
          | redraw => simp [performed, hm]
          | loadDrawCounter => simp [performed, hm]
          | storeDrawCounter value => simp [performed, hm]
    rw [history, List.flatMap_append, hrest]
    split
    · rw [hnone, List.append_nil]
    · rfl

theorem running_of_replay (order : MapOrder) {cs : List Choice} {t : OpenGLScene}
    (h : Vis.update order construct ((history order {} cs).flatMap appended) = .done t) :
    running (run (step order) {} cs) = true := by
  have hrun := awaited_run order {} (history order {} cs)
  rw [show awaited order {} = .done construct from rfl, Outcome.done_andThen, h] at hrun
  have hclient := run_client order {} cs
  unfold running
  rw [hclient]
  cases hscene : (run (FailedSnapshots.act order) {} (history order {} cs)).scene with
  | done scene => simp
  | raised failure scene =>
    rw [awaited, hscene, Outcome.raised_andThen] at hrun
    cases hrun

/-- Left alone with its callbacks finished, the viewer comes to rest, and at
rest all that was appended is on its screen, unless some of it raises. -/
theorem shown_at_rest (order : MapOrder) {before : List Choice}
    (hidle : ∀ k, (run (step order) {} before).threads k = []) {t : OpenGLScene}
    (h : Vis.update order construct ((history order {} before).flatMap appended) = .done t) :
    (∃ cs, (∀ c ∈ cs, Calm c) ∧ Quiet (run (step order) {} (before ++ cs))) ∧
      ∀ cs, (∀ c ∈ cs, Calm c) → Quiet (run (step order) {} (before ++ cs)) →
        (run (step order) {} (before ++ cs)).client.scene = .done t := by
  have hsame : ∀ cs, (∀ c ∈ cs, Calm c) → (history order {} (before ++ cs)).flatMap appended =
      (history order {} before).flatMap appended := by
    intro cs hcalm
    rw [history_append, List.flatMap_append,
      calm_appends order (regular_run order before) hidle hcalm, List.append_nil]
  constructor
  · obtain ⟨cs, hcalm, hend⟩ := rests order _ hidle
    have hrunning := running_of_replay order ((hsame cs hcalm).symm ▸ h)
    rw [run_append] at hrunning
    refine ⟨cs, hcalm, ?_⟩
    rw [run_append]
    exact hend.resolve_right (by simp [hrunning])
  · intro cs hcalm hquiet
    rw [quiet_scene order hquiet, hsame cs hcalm, h]

end ComingToRest

end GVS.FrameCount
