import Gvs.FailedSnapshots

/-!
# Drains

The queue between the callbacks and the scene. A drain replays what the
callbacks have appended since the one before it and clears the queue. Where
the drains stand among the callbacks is not seen in the scene: each update is
replayed once and in the order of the queue, and a raise ends the replay.
-/

set_option autoImplicit false

namespace GVS.Drains
open GVS.Proto GVS.Server GuardedRuns
open GVS.Vis GVS.SceneBooks GVS.Wiring GVS.Viewers GVS.FailedSnapshots

def appended : FailedSnapshots.Event → List SceneUpdate
  | .processSceneUpdate u => [u]
  | .getSceneState call => (call.reply ∅).toList.map .resetAllItems
  | .processMessageUpdate _ | .getMessageState _ | .update => []

def awaited (order : MapOrder) (c : VisClient) : Outcome Failure OpenGLScene :=
  c.scene.andThen fun scene => Vis.update order scene c.sceneUpdates

theorem update_awaited (order : MapOrder) (c : VisClient) :
    (FailedSnapshots.update order c).scene = awaited order c := by
  unfold awaited
  cases hscene : c.scene with
  | done scene => rw [update_scene order hscene, Outcome.done_andThen]
  | raised failure scene => simp [FailedSnapshots.update, hscene]

theorem awaited_append (order : MapOrder) (c : VisClient) (us : List SceneUpdate) :
    awaited order { c with sceneUpdates := c.sceneUpdates ++ us } =
      (awaited order c).andThen fun scene => Vis.update order scene us := by
  unfold awaited
  cases c.scene with
  | done scene => exact update_append order scene c.sceneUpdates us
  | raised failure scene => rfl

/-- A drain leaves what it left after it, raised or not. -/
theorem awaited_update (order : MapOrder) (c : VisClient) :
    awaited order (FailedSnapshots.update order c) = awaited order c := by
  cases hscene : c.scene with
  | raised failure scene => simp [FailedSnapshots.update, hscene]
  | done scene =>
    cases hu : Vis.update order scene c.sceneUpdates with
    | done scene' =>
      have hempty : Vis.update order scene' [] = .done scene' := rfl
      simp [awaited, FailedSnapshots.update, hscene, hu, hempty]
    | raised failure scene' => simp [awaited, FailedSnapshots.update, hscene, hu]

theorem awaited_act (order : MapOrder) (c : VisClient) (e : FailedSnapshots.Event) :
    awaited order (act order c e) =
      (awaited order c).andThen fun scene => Vis.update order scene (appended e) := by
  have hnone : awaited order c = (awaited order c).andThen fun scene => Vis.update order scene [] := by
    cases awaited order c <;> rfl
  cases e with
  | processMessageUpdate message => exact hnone
  | processSceneUpdate u => exact awaited_append order c [u]
  | update => exact (awaited_update order c).trans hnone
  | getMessageState call =>
    cases call with
    | notConnected => exact hnone
    | notOk => exact hnone
    | answered messages => exact hnone
  | getSceneState call =>
    cases call with
    | notConnected => exact hnone
    | notOk => exact awaited_append order c [.resetAllItems ∅]
    | answered items => exact awaited_append order c [.resetAllItems items]

theorem awaited_run (order : MapOrder) (c : VisClient) (events : List FailedSnapshots.Event) :
    awaited order (run (act order) c events) =
      (awaited order c).andThen fun scene => Vis.update order scene (events.flatMap appended) := by
  induction events generalizing c with
  | nil => cases h : awaited order c <;> simp [run, h, Vis.update, Outcome.drive]
  | cons e events ih =>
    rw [run, ih, awaited_act, List.flatMap_cons]
    cases awaited order c with
    | done scene => simp only [Outcome.done_andThen, update_append]
    | raised failure scene => rfl

theorem scene_of_empty_queue (order : MapOrder) {events : List FailedSnapshots.Event}
    (h : (run (act order) {} events).sceneUpdates = []) :
    (run (act order) {} events).scene = Vis.update order construct (events.flatMap appended) := by
  have hrun := awaited_run order {} events
  have hstart : awaited order {} = .done construct := rfl
  rw [hstart, Outcome.done_andThen] at hrun
  rw [← hrun, awaited, h]
  cases (run (act order) {} events).scene <;> rfl

def Replayed (order : MapOrder) (us : List SceneUpdate) (c : VisClient) : Prop :=
  ∀ t, c.scene = .done t → ∃ past, us = past ++ c.sceneUpdates ∧
    Vis.update order construct past = .done t

theorem replayed_update (order : MapOrder) {us : List SceneUpdate} {c : VisClient}
    (h : Replayed order us c) : Replayed order us (FailedSnapshots.update order c) := by
  intro t ht
  cases hscene : c.scene with
  | raised failure scene =>
    have hraised : (FailedSnapshots.update order c).scene = .raised failure scene := by
      simp [FailedSnapshots.update, hscene]
    rw [hraised] at ht
    cases ht
  | done scene =>
    obtain ⟨past, rfl, hpast⟩ := h scene hscene
    have hdrain : Vis.update order scene c.sceneUpdates = .done t := by
      rw [← update_scene order hscene, ht]
    have hempty : (FailedSnapshots.update order c).sceneUpdates = [] := by
      simp [FailedSnapshots.update, hscene, hdrain]
    refine ⟨past ++ c.sceneUpdates, by simp [hempty], ?_⟩
    rw [update_append, hpast, Outcome.done_andThen, hdrain]

theorem replayed_append (order : MapOrder) {us : List SceneUpdate} {c : VisClient}
    (h : Replayed order us c) (vs : List SceneUpdate) :
    Replayed order (us ++ vs) { c with sceneUpdates := c.sceneUpdates ++ vs } := by
  intro t ht
  obtain ⟨past, rfl, hpast⟩ := h t ht
  exact ⟨past, List.append_assoc _ _ _, hpast⟩

theorem replayed_act (order : MapOrder) {us : List SceneUpdate} {c : VisClient}
    (h : Replayed order us c) (e : FailedSnapshots.Event) :
    Replayed order (us ++ appended e) (act order c e) := by
  have hnone : Replayed order (us ++ []) c := by simpa using h
  cases e with
  | processMessageUpdate message => exact hnone
  | processSceneUpdate u => exact replayed_append order h [u]
  | update =>
    rw [appended, List.append_nil]
    exact replayed_update order h
  | getMessageState call =>
    cases call with
    | notConnected => exact hnone
    | notOk => exact hnone
    | answered messages => exact hnone
  | getSceneState call =>
    cases call with
    | notConnected => exact hnone
    | notOk => exact replayed_append order h [.resetAllItems ∅]
    | answered items => exact replayed_append order h [.resetAllItems items]

theorem replayed_run (order : MapOrder) {us : List SceneUpdate} {c : VisClient}
    (h : Replayed order us c) (events : List FailedSnapshots.Event) :
    Replayed order (us ++ events.flatMap appended) (run (act order) c events) := by
  induction events generalizing us c with
  | nil => simpa [run] using h
  | cons e events ih =>
    rw [List.flatMap_cons, ← List.append_assoc, run]
    exact ih (replayed_act order h e)

/-- However deliveries, snapshots and drains are mixed: a scene that has not
raised replayed a first part of what was appended, each update once and in
order, and the rest is queued; and the next drain leaves the replay of all. -/
theorem drained_once (order : MapOrder) (events : List FailedSnapshots.Event) :
    let c := run (act order) {} events
    Replayed order (events.flatMap appended) c ∧
      (FailedSnapshots.update order c).scene =
        Vis.update order construct (events.flatMap appended) := by
  constructor
  · have hstart : Replayed order [] {} := by
      intro t ht
      cases ht
      exact ⟨[], rfl, rfl⟩
    exact replayed_run order hstart events
  · rw [update_awaited, awaited_run]
    rfl

def Sound (c : VisClient) : Prop := Wired (books c.scene.state)

theorem sound_act (order : MapOrder) (c : VisClient) (e : FailedSnapshots.Event) (h : Sound c) :
    Sound (act order c e) := by
  cases e with
  | processMessageUpdate message => exact h
  | processSceneUpdate u => exact h
  | getMessageState call => cases call <;> exact h
  | getSceneState call => cases call <;> exact h
  | update =>
    show Wired (books (FailedSnapshots.update order c).scene.state)
    rw [update_awaited, awaited]
    exact Outcome.state_andThen (P := fun scene => Wired (books scene)) h
      fun scene hs => wired_update order hs c.sceneUpdates

end GVS.Drains
