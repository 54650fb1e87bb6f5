import Gvs.FrameLoop

/-!
# The viewer at rest

No update that was appended is left in the queue when the viewer stops drawing.
The invariant follows what a frame has before it: a queue that is not empty has
a drain to come, and a counter that is not used up has a mark to come.
-/

set_option autoImplicit false

namespace GVS.ViewerAtRest
open GVS.Proto GVS.Server GuardedRuns
open GVS.Vis GVS.Resetting GVS.Viewers GVS.ViewerAppearance GVS.FailedSnapshots GVS.Drains
open GVS.FrameLoop

def ThreadMarks (s : Loop) : Prop := ∃ k, .redraw ∈ s.threads k

/-- A frame is coming or in progress whenever the counter is not used up, and
one that has its drain before it whenever the queue is not empty. -/
structure Regular (s : Loop) : Prop where
  mainCode : MainCode s.main
  callbackCode : ∀ k, CallbackCode (s.threads k)
  ceiling : s.drawCounter ≤ 5
  counted : 0 ≤ (settled s).1 → (settled s).2 = true ∨ ThreadMarks s
  drained : s.client.sceneUpdates ≠ [] → (settled s).2 = true ∨ ThreadMarks s ∨
    .client .update ∈ s.main ∨ running s = false ∧ s.main ≠ []

theorem callbackCode_tail {i : Instruction} {rest : List Instruction}
    (h : CallbackCode (i :: rest)) : CallbackCode rest := by
  cases i with
  | client e => exact h.2.2
  | setDrawCounter => exact h.2
  | redraw => exact h
  | loadDrawCounter => exact h.elim
  | storeDrawCounter value => exact h.elim

theorem threadMarks_update {s : Loop} {k : ℕ} {p : List Instruction} (hs : ThreadMarks s)
    (hp : .redraw ∈ s.threads k → .redraw ∈ p) :
    ∃ j, .redraw ∈ Function.update s.threads k p j := by
  obtain ⟨j, hj⟩ := hs
  by_cases hjk : j = k
  · subst hjk
    exact ⟨j, by simpa using hp hj⟩
  · exact ⟨j, by simpa [hjk] using hj⟩

theorem callbackCode_update {s : Loop} (h : ∀ k, CallbackCode (s.threads k)) (k : ℕ)
    {p : List Instruction} (hp : CallbackCode p) (j : ℕ) :
    CallbackCode (Function.update s.threads k p j) := by
  by_cases hj : j = k
  · subst hj
    simpa using hp
  · simpa [hj] using h j

theorem regular_call {s : Loop} (h : Regular s) {k : ℕ} (callback : Callback)
    (hk : s.threads k = []) :
    Regular { s with threads := Function.update s.threads k callback.program } := by
  have hmarks : ThreadMarks s →
      ThreadMarks { s with threads := Function.update s.threads k callback.program } :=
    fun hs => threadMarks_update hs (by simp [hk])
  exact {
    mainCode := h.mainCode
    callbackCode := callbackCode_update h.callbackCode k (callbackCode_program callback)
    ceiling := h.ceiling
    counted := fun hc => (h.counted hc).imp id hmarks
    drained := fun hq => (h.drained hq).imp id (Or.imp hmarks id) }

theorem regular_input {s : Loop} (h : Regular s) : Regular { s with main := resetDrawCounter } where
  mainCode := by simp [resetDrawCounter, MainCode]
  callbackCode := h.callbackCode
  ceiling := h.ceiling
  counted := fun _ => Or.inl rfl
  drained := fun _ => Or.inl rfl

theorem regular_frame {s : Loop} (h : Regular s) (fast : Bool) :
    Regular { s with redraw := false, main := drawEvent fast, begun := s.begun + 1 } where
  mainCode := mainCode_drawEvent fast
  callbackCode := h.callbackCode
  ceiling := h.ceiling
  counted := by
    intro hc
    cases fast with
    | true => exact Or.inl rfl
    | false =>
      refine Or.inl ?_
      simp only [settled, drawEvent, configureGui, Bool.false_eq_true, if_false, List.nil_append,
        settle, Bool.false_or, decide_eq_true_eq] at hc ⊢
      omega
  drained := fun _ => Or.inr (Or.inr (Or.inl List.mem_cons_self))

/-- A step of a callback: its mark is still to come, or it is this step. -/
theorem regular_thread (order : MapOrder) {s : Loop} (h : Regular s) {k : ℕ} {i : Instruction}
    {rest : List Instruction} (hk : s.threads k = i :: rest) :
    Regular (execute order { s with threads := Function.update s.threads k rest } i) := by
  have hcode := h.callbackCode k
  rw [hk] at hcode
  have hrest := callbackCode_update h.callbackCode k (callbackCode_tail hcode)
  have hmarks : .redraw ∈ rest → ∃ j, .redraw ∈ Function.update s.threads k rest j :=
    fun hr => ⟨k, by simpa using hr⟩
  cases i with
  | client e =>
    exact ⟨h.mainCode, hrest, h.ceiling, fun _ => Or.inr (hmarks hcode.2.1),
      fun _ => Or.inr (Or.inl (hmarks hcode.2.1))⟩
  | setDrawCounter =>
    exact ⟨h.mainCode, hrest, Int.le_refl 5, fun _ => Or.inr (hmarks hcode.1),
      fun _ => Or.inr (Or.inl (hmarks hcode.1))⟩
  | redraw =>
    have hmark := settle_marked s.drawCounter s.main
    exact ⟨h.mainCode, hrest, h.ceiling, fun _ => Or.inl hmark, fun _ => Or.inl hmark⟩
  | loadDrawCounter => exact hcode.elim
  | storeDrawCounter value => exact hcode.elim

/-- A drain empties the queue, or it raises inside a frame. -/
theorem drained_update (order : MapOrder) (c : VisClient)
    (h : (FailedSnapshots.update order c).sceneUpdates ≠ []) :
    ∃ failure scene, (FailedSnapshots.update order c).scene = .raised failure scene := by
  cases hscene : c.scene with
  | raised failure scene => exact ⟨failure, scene, by simp [FailedSnapshots.update, hscene]⟩
  | done scene =>
    cases hu : Vis.update order scene c.sceneUpdates with
    | done scene' => simp [FailedSnapshots.update, hscene, hu] at h
    | raised failure scene' =>
      exact ⟨failure, scene', by simp [FailedSnapshots.update, hscene, hu]⟩

theorem mainCode_main (order : MapOrder) {s : Loop} (hc : s.drawCounter ≤ 5) {i : Instruction}
    {rest : List Instruction} (hcode : MainCode (i :: rest)) :
    MainCode (execute order { s with main := rest } i).main := by
  cases i with
  | client e => exact hcode.2.2
  | setDrawCounter => exact hcode.2
  | redraw => exact hcode
  | loadDrawCounter =>
    obtain rfl : rest = [] := hcode
    show MainCode (countDown s.drawCounter ++ [])
    rw [List.append_nil]
    exact mainCode_countDown hc
  | storeDrawCounter value =>
    rcases hcode.2 with rfl | rfl
    · trivial
    · trivial

theorem rest_subset (order : MapOrder) (s : Loop) (i : Instruction) (rest : List Instruction) :
    rest ⊆ (execute order { s with main := rest } i).main := by
  cases i with
  | loadDrawCounter => exact List.subset_append_right _ _
  | client e => exact List.Subset.refl _
  | setDrawCounter => exact List.Subset.refl _
  | redraw => exact List.Subset.refl _
  | storeDrawCounter value => exact List.Subset.refl _

theorem regular_main (order : MapOrder) {s : Loop} (h : Regular s) {i : Instruction}
    {rest : List Instruction} (hm : s.main = i :: rest) (hr : running s = true) :
    Regular (execute order { s with main := rest } i) := by
  have hcode := h.mainCode
  rw [hm] at hcode
  have hsettled := settled_main order hm
  have hthreads : ThreadMarks (execute order { s with main := rest } i) ↔ ThreadMarks s := by
    simp [ThreadMarks]
  refine ⟨mainCode_main order h.ceiling hcode, by simpa using h.callbackCode, ?_, ?_, ?_⟩
  · cases i with
    | client e => exact h.ceiling
    | setDrawCounter => exact Int.le_refl 5
    | redraw => exact h.ceiling
    | loadDrawCounter => exact h.ceiling
    | storeDrawCounter value =>
      have hvalue : value ≤ 4 := hcode.1
      show value ≤ 5
      omega
  · rw [hsettled, hthreads]
    exact h.counted
  · rw [hsettled, hthreads]
    intro hq
    by_cases hi : ∃ e, i = .client e
    · obtain ⟨e, rfl⟩ := hi
      obtain ⟨rfl, hload, -⟩ := hcode
      obtain ⟨failure, scene, hraised⟩ := drained_update order s.client hq
      refine Or.inr (Or.inr (Or.inr ⟨?_, List.ne_nil_of_mem hload⟩))
      simp [running, execute, FailedSnapshots.act, hraised]
    · have hclient := execute_client order { s with main := rest } i (fun e he => hi ⟨e, he⟩)
      rw [hclient] at hq
      refine (h.drained hq).imp id (Or.imp id (Or.imp ?_ ?_))
      · intro hupdate
        rw [hm] at hupdate
        rcases List.mem_cons.mp hupdate with he | hin
        · exact absurd ⟨_, he.symm⟩ hi
        · exact rest_subset order s i rest hin
      · intro hraised
        rw [hr] at hraised
        cases hraised.1

theorem regular_start : Regular {} where
  mainCode := trivial
  callbackCode := fun _ => trivial
  ceiling := Int.le_refl 5
  counted := fun _ => Or.inl rfl
  drained := fun h => absurd rfl h

theorem regular_step (order : MapOrder) (s : Loop) (c : Choice) (h : Regular s) :
    Regular (step order s c) := by
  have hstepped := stepped order s c
  generalize step order s c = s' at hstepped ⊢
  cases hstepped with
  | idle => exact h
  | call k callback hk => exact regular_call h callback hk
  | input hm => exact regular_input h
  | frame fast hm hr => exact regular_frame h fast
  | thread k i rest hk => exact regular_thread order h hk
  | main i rest hm hr => exact regular_main order h hm hr

theorem regular_run (order : MapOrder) (cs : List Choice) : Regular (run (step order) {} cs) :=
  run_invariant (step order) (regular_step order) regular_start cs

theorem quiet_settled {s : Loop} (h : Quiet s) : settled s = (s.drawCounter, false) := by
  rw [settled_idle h.2.1, h.1]

theorem quiet_no_marks {s : Loop} (h : Quiet s) : ¬ ThreadMarks s := by
  rintro ⟨k, hk⟩
  rw [h.2.2 k] at hk
  cases hk

theorem quiet_queue_empty {s : Loop} (h : Quiet s) (hs : Regular s) :
    s.client.sceneUpdates = [] := by
  by_contra hq
  rcases hs.drained hq with hmark | hmarks | hupdate | ⟨-, hmain⟩
  · rw [quiet_settled h] at hmark
    cases hmark
  · exact quiet_no_marks h hmarks
  · rw [h.2.1] at hupdate
    cases hupdate
  · exact hmain h.2.1

theorem quiet_scene (order : MapOrder) {cs : List Choice} (h : Quiet (run (step order) {} cs)) :
    (run (step order) {} cs).client.scene =
      Vis.update order construct ((history order {} cs).flatMap appended) := by
  have hqueue := quiet_queue_empty h (regular_run order cs)
  rw [run_client] at hqueue ⊢
  exact scene_of_empty_queue order hqueue

/-- However inputs, frames and callbacks are interleaved: a viewer at rest has
nothing left in its queue, and shows the one replay of all that its callbacks
have appended. -/
theorem nothing_stuck (order : MapOrder) (cs : List Choice)
    (h : Quiet (run (step order) {} cs)) :
    (run (step order) {} cs).client.sceneUpdates = [] ∧
      (run (step order) {} cs).client.scene =
        Vis.update order construct ((history order {} cs).flatMap appended) :=
  ⟨quiet_queue_empty h (regular_run order cs), quiet_scene order h⟩

def lateDelivery : List Choice :=
  [.frame false, .call 0 (.processSceneUpdate (.addItem shapedItem)), .main, .thread 0, .main,
    .thread 0, .main, .thread 0] ++
  (List.replicate 6 [.frame false, .main, .main, .main, .main]).flatten

set_option maxRecDepth 8000 in
theorem lateDelivery_quiet : Quiet (run (step entryOrder) {} lateDelivery) :=
  ⟨rfl, rfl, fun k => by cases k <;> rfl⟩

theorem late_delivery_not_stuck :
    (run (step entryOrder) {} lateDelivery).client.sceneUpdates = [] ∧
      (run (step entryOrder) {} lateDelivery).client.scene =
        Vis.update entryOrder construct ((history entryOrder {} lateDelivery).flatMap appended) :=
  nothing_stuck entryOrder lateDelivery lateDelivery_quiet

end GVS.ViewerAtRest
