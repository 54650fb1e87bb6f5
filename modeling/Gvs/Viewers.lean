import Gvs.Resetting
import Gvs.StoredItems

/-!
# Viewers of a running server

A live viewer replays every broadcast from its constructor on; a late viewer
resets to the stored scene and replays what is broadcast afterwards. The
broadcasts of a run are those of its requests in order, so facts about a
viewer are carried from one request to the next.
-/

set_option autoImplicit false

namespace GVS.Viewers
open GVS.Proto GVS.ItemDefaults GVS.Server GVS.RequestTable GVS.StoredItems GuardedRuns
open GVS.Vis GVS.SceneBooks GVS.Wiring GVS.Display GVS.Resetting

def broadcast (s : SceneServer) (r : SceneUpdateRequest) : List SceneUpdate :=
  match verdict s.scene r with
  | .reject _ => []
  | .create info => [.addItem (setDisplayDefaults info)]
  | .merge _ info | .announce _ info => [.updateItem info]
  | .clear => [.resetAllItems ∅]

def broadcasts : SceneServer → List SceneUpdateRequest → List SceneUpdate
  | _, [] => []
  | s, r::rs => broadcast s r ++ broadcasts (step s r) rs

theorem stream_step (s : SceneServer) (r : SceneUpdateRequest) :
    (step s r).sceneStream = s.sceneStream ++ broadcast s r := by
  rw [step_eq, broadcast]
  cases verdict s.scene r <;> simp [perform, write]

theorem stream_run (s : SceneServer) (rs : List SceneUpdateRequest) :
    (run step s rs).sceneStream = s.sceneStream ++ broadcasts s rs := by
  induction rs generalizing s with
  | nil => simp [run, broadcasts]
  | cons r rs ih => rw [run, ih, stream_step, broadcasts, List.append_assoc]

theorem update_append (order : MapOrder) (t : OpenGLScene) (us vs : List SceneUpdate) :
    Vis.update order t (us ++ vs) =
      (Vis.update order t us).andThen (fun t' => Vis.update order t' vs) :=
  Outcome.drive_append _ t us vs

theorem update_singleton (order : MapOrder) (t : OpenGLScene) (u : SceneUpdate) :
    Vis.update order t [u] = applyUpdate order t u := by
  cases h : applyUpdate order t u <;> simp [Vis.update, Outcome.drive, h]

def liveViewer (order : MapOrder) (s : SceneServer) : Outcome Failure OpenGLScene :=
  Vis.update order construct s.sceneStream

def lateViewer (order : MapOrder) (s : SceneServer) : Outcome Failure OpenGLScene :=
  reset order construct s.scene

theorem liveViewer_run (order : MapOrder) (rs : List SceneUpdateRequest) :
    liveViewer order (run step {} rs) = Vis.update order construct (broadcasts {} rs) := by
  rw [liveViewer, stream_run]
  rfl

theorem liveViewer_step (order : MapOrder) (s : SceneServer) (r : SceneUpdateRequest) :
    liveViewer order (step s r) =
      (liveViewer order s).andThen fun t => Vis.update order t (broadcast s r) := by
  rw [liveViewer, stream_step, update_append]
  rfl

/-- A relation between server and viewer that every guarded request keeps is
kept by guarded runs, and the viewer returns. -/
theorem viewer_simulation (order : MapOrder) {R : SceneServer → OpenGLScene → Prop}
    {guard : SceneServer → SceneUpdateRequest → Prop}
    (hstep : ∀ s r t, R s t → guard s r →
      ∃ t', Vis.update order t (broadcast s r) = .done t' ∧ R (step s r) t')
    {s : SceneServer} {t : OpenGLScene} (hR : R s t) {rs : List SceneUpdateRequest}
    (h : Along step guard s rs) :
    ∃ t', Vis.update order t (broadcasts s rs) = .done t' ∧ R (run step s rs) t' := by
  induction rs generalizing s t with
  | nil => exact ⟨t, rfl, hR⟩
  | cons r rs ih =>
    obtain ⟨t₁, h₁, hR₁⟩ := hstep s r t hR h.1
    obtain ⟨t', h', hR'⟩ := ih hR₁ h.2
    exact ⟨t', by rw [broadcasts, update_append, h₁]; exact h', hR'⟩

/-- `add_item` returns exactly when geometry is given, the payload is
loadable and the parent is known or the item itself. -/
theorem addItem_returns {t : OpenGLScene} (ht : Wired (books t)) (info : SceneItemInfo) :
    (addItem t info).Returns ↔ info.geometryInfo.isSome ∧ Loadable info ∧
      (info.parentValue = info.idValue ∨ (t.objects info.parentValue).isSome) := by
  unfold addItem
  by_cases hg : info.geometryInfo.isSome = true
  · have hw := wired_call_emplace ht info.idValue
    have hknown : ∀ id, ((emplace t info.idValue).objects id).isSome = true ↔
        id = info.idValue ∨ (t.objects id).isSome := by
      intro id
      rw [← displayState_isSome hw, ← displayState_isSome ht, displayState_emplace ht]
      simp only [← displayState_eq_none ht]
      by_cases hid : id = info.idValue
      · subst hid
        cases displayState t info.idValue <;> simp
      · simp [hid]
    simp only [hg, if_true, updateItem_returns hw, hknown, true_or, true_and]
    exact and_comm
  · simp [hg]

theorem loadable_setDisplayDefaults (info : SceneItemInfo) :
    Loadable (setDisplayDefaults info) ↔ Loadable info := by
  unfold Loadable validFormat validTransformation displayFormat displayOf
  cases hd : info.displayInfo with
  | none => simp [setDisplayDefaults, completeDisplayInfo, hd, defaultGeomFormat,
      defaultTransformation]
  | some display =>
    cases hf : display.geometryFormat <;> cases ht : display.transformation <;>
      simp [setDisplayDefaults, completeDisplayInfo, hd, hf, ht, defaultGeomFormat,
        defaultTransformation]

theorem loadable_merged {old info : SceneItemInfo} (ho : Loadable old) (hi : Loadable info) :
    Loadable (merged old info) := by
  unfold Loadable validFormat validTransformation displayFormat displayOf at *
  cases hd : info.displayInfo with
  | none => simpa [merged, updateDisplayDefaults, hd] using ho
  | some given =>
    cases hs : old.displayInfo with
    | none =>
      simpa [merged, updateDisplayDefaults, hd, hs, copyPresentFields] using hi
    | some stored =>
      cases hf : given.geometryFormat <;> cases ht : given.transformation <;>
        simp_all [merged, updateDisplayDefaults, copyPresentFields]

end GVS.Viewers
