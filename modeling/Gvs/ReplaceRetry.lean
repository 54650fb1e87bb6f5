import Gvs.StoredItems

/-!
# Retrying a replace

A client that does not see the answer sends the request again. The second
handling of an update finds the fields of the first already merged. The second
handling of a creation goes through the update path, which copies shading as
it was sent, so it undoes the completion of Lambertian shading.
-/

set_option autoImplicit false

namespace GVS.ReplaceRetry
open GVS.Proto GVS.ItemDefaults GVS.Server GVS.RequestTable GVS.StoredItems

theorem copyPresentFields_idem (old new : DisplayInfo) :
    copyPresentFields (copyPresentFields old new) new = copyPresentFields old new := by
  simp only [copyPresentFields, DisplayInfo.mk.injEq]
  refine ⟨?_, ?_, ?_, ?_, ?_, ?_⟩
  · cases new.readableId <;> rfl
  · cases new.geometryFormat <;> rfl
  · cases new.transformation <;> rfl
  · cases new.uniformColor <;> rfl
  · cases new.coloring <;> rfl
  · cases new.shading <;> rfl

theorem merged_idem (old info : SceneItemInfo) :
    merged (merged old info) info = merged old info := by
  have hg : info.geometryInfo.or (info.geometryInfo.or old.geometryInfo) =
      info.geometryInfo.or old.geometryInfo := by
    cases info.geometryInfo <;> rfl
  cases hd : info.displayInfo with
  | none => simp [merged, updateDisplayDefaults, hd, hg]
  | some display => simp [merged, updateDisplayDefaults, hd, hg, copyPresentFields_idem]

theorem setLambertianDefaults_eq_iff (lambertian : LambertianShading) :
    lambertian = setLambertianDefaults lambertian ↔ FullLambertian lambertian := by
  rcases lambertian with ⟨_ | _, _ | _, _ | _⟩ <;> simp [setLambertianDefaults, FullLambertian]

/-- Copying a request over its own completion leaves it complete exactly when
the request shades in full. -/
theorem copy_complete_iff (id : String) (display : DisplayInfo) :
    copyPresentFields (completeDisplayInfo id display) display = completeDisplayInfo id display ↔
      FullShading display := by
  have hsame : ∀ {α : Type} (sent : Option α) (filled : α),
      sent.or (some (sent.getD filled)) = some (sent.getD filled) := by
    intro α sent filled
    cases sent <;> rfl
  simp only [copyPresentFields, completeDisplayInfo, hsame, DisplayInfo.mk.injEq, true_and]
  cases hs : display.shading with
  | none => simp [FullShading, hs]
  | some shading =>
    cases shading with
    | valueNotSet => simp [FullShading, hs, setShadingDefaults]
    | uniformColor => simp [FullShading, hs, setShadingDefaults]
    | lambertian lambertian =>
      simp [FullShading, hs, setShadingDefaults, setLambertianDefaults_eq_iff]

theorem merged_created_iff (info : SceneItemInfo) :
    merged (setDisplayDefaults info) info = setDisplayDefaults info ↔ ShadesInFull info := by
  unfold ShadesInFull
  cases hd : info.displayInfo with
  | none =>
    apply iff_of_true
    · simp [merged, updateDisplayDefaults, setDisplayDefaults, hd]
    · intro lambertian h
      simp at h
  | some display =>
    rw [Option.getD_some, ← copy_complete_iff info.idValue display]
    simp [merged, updateDisplayDefaults, setDisplayDefaults, hd]

def RetrySafe (s : SceneServer) (r : SceneUpdateRequest) : Prop :=
  let first := requestUpdateScene s r
  let second := requestUpdateScene first.1 r
  second.1.scene = first.1.scene ∧ (second.2.errorMsg ≠ "" ↔ first.2.errorMsg ≠ "")

def CreatesInFull (s : SceneServer) (info : SceneItemInfo) : Prop :=
  s.scene.lookup info.idValue = none → info.geometryInfo.isSome → ShadesInFull info

theorem verdict_replace_stored {scene : SceneItems} {old info : SceneItemInfo}
    (hl : scene.lookup info.idValue = some old) :
    verdict scene (.replaceItem info) = .merge old info := by simp [verdict, hl]

theorem retry_merge {s : SceneServer} {old info : SceneItemInfo}
    (hl : s.scene.lookup info.idValue = some old) : RetrySafe s (.replaceItem info) := by
  have hfirst : requestUpdateScene s (.replaceItem info) = perform s (.merge old info) := by
    rw [requestUpdateScene_eq, verdict_replace_stored hl]
  have hl' : (s.scene.insert info.idValue (merged old info)).lookup info.idValue =
      some (merged old info) := Finmap.lookup_insert _
  unfold RetrySafe
  simp only [hfirst, requestUpdateScene_eq]
  simp only [perform, write, verdict_replace_stored hl', merged_idem, Finmap.insert_insert,
    true_and]

theorem retry_create {s : SceneServer} {info : SceneItemInfo} {geometry : GeometryInfo3D}
    (hl : s.scene.lookup info.idValue = none) (hg : info.geometryInfo = some geometry) :
    RetrySafe s (.replaceItem info) ↔ ShadesInFull info := by
  have hfirst : requestUpdateScene s (.replaceItem info) = perform s (.create info) := by
    rw [requestUpdateScene_eq]
    simp only [verdict, hl, hg]
  have hl' : (s.scene.insert info.idValue (setDisplayDefaults info)).lookup info.idValue =
      some (setDisplayDefaults info) := Finmap.lookup_insert _
  unfold RetrySafe
  simp only [hfirst, requestUpdateScene_eq]
  simp only [perform, write, verdict_replace_stored hl', Finmap.insert_insert, insert_inj,
    merged_created_iff, ne_eq, and_iff_left_iff_imp, implies_true]

/-- A replace can be retried exactly when it does not create an item with
partly given Lambertian shading. -/
theorem replace_retry (s : SceneServer) (info : SceneItemInfo) :
    RetrySafe s (.replaceItem info) ↔ CreatesInFull s info := by
  unfold CreatesInFull
  cases hl : s.scene.lookup info.idValue with
  | some old => exact iff_of_true (retry_merge hl) (by simp)
  | none =>
    cases hg : info.geometryInfo with
    | some geometry => simp [retry_create hl hg]
    | none =>
      have hreject : requestUpdateScene s (.replaceItem info) =
          perform s (.reject (doesNotExistMsg info.idValue)) := by
        rw [requestUpdateScene_eq]
        simp only [verdict, hl, hg]
      apply iff_of_true
      · unfold RetrySafe
        simp only [hreject, perform, true_and]
      · simp

def halfLit : SceneItemInfo where
  id := some ⟨"item"⟩
  geometryInfo := some { positions := some [one, one, one] }
  displayInfo := some { shading := some (.lambertian {}) }

theorem retry_empties_shading : ¬ RetrySafe {} (.replaceItem halfLit) := by
  unfold RetrySafe
  decide

end GVS.ReplaceRetry
