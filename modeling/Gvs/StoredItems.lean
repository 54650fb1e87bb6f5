import Gvs.RequestTable

/-!
# Stored items are fully specified

Items are completed once, when they are created. Keys and the six display
fields survive every later request; the optional fields of Lambertian shading
survive exactly the updates that send none of it or all of it.
-/

set_option autoImplicit false

namespace GVS.StoredItems
open GVS.Proto GVS.ItemDefaults GVS.Server GVS.RequestTable GuardedRuns

def FullLambertian (lambertian : LambertianShading) : Prop :=
  lambertian.lightDirection.isSome ∧ lambertian.lightColor.isSome ∧
    lambertian.ambientColor.isSome

def FullShading (display : DisplayInfo) : Prop :=
  ∀ lambertian, display.shading = some (.lambertian lambertian) → FullLambertian lambertian

def Completed (id : String) (info : SceneItemInfo) : Prop :=
  info.idValue = id ∧ ∃ display, info.displayInfo = some display ∧ Complete display

def FullySpecified (id : String) (info : SceneItemInfo) : Prop :=
  info.idValue = id ∧
    ∃ display, info.displayInfo = some display ∧ Complete display ∧ FullShading display

def EachItem (P : String → SceneItemInfo → Prop) (s : SceneServer) : Prop :=
  ∀ id info, s.scene.lookup id = some info → P id info

theorem eachItem_empty (P : String → SceneItemInfo → Prop) : EachItem P {} := by
  intro id info h
  simp at h

theorem eachItem_insert {P : String → SceneItemInfo → Prop} {items : SceneItems}
    {id : String} {info : SceneItemInfo}
    (h : ∀ k old, items.lookup k = some old → P k old) (hn : P id info) :
    ∀ k new, (items.insert id info).lookup k = some new → P k new := by
  intro k new hk
  rw [lookup_insert_ite] at hk
  split at hk
  · subst k
    cases hk
    exact hn
  · exact h k new hk

theorem fullShading_setShadingDefaults (id : String) (display : DisplayInfo) :
    FullShading (completeDisplayInfo id display) := by
  intro lambertian h
  simp only [completeDisplayInfo, Option.some.injEq] at h
  cases hs : display.shading with
  | none => simp [hs, setShadingDefaults] at h
  | some shading =>
    cases shading with
    | valueNotSet => simp [hs, setShadingDefaults] at h
    | uniformColor => simp [hs, setShadingDefaults] at h
    | lambertian l =>
      simp only [hs, setShadingDefaults, Shading.lambertian.injEq] at h
      simp [← h, FullLambertian, setLambertianDefaults]

theorem setDisplayDefaults_fullySpecified (info : SceneItemInfo) :
    FullySpecified info.idValue (setDisplayDefaults info) :=
  ⟨rfl, _, rfl, complete_completeDisplayInfo _ _, fullShading_setShadingDefaults _ _⟩

theorem FullySpecified.completed {id : String} {info : SceneItemInfo}
    (h : FullySpecified id info) : Completed id info := by
  obtain ⟨hid, display, hd, hc, -⟩ := h
  exact ⟨hid, display, hd, hc⟩

@[simp] theorem merged_idValue (old info : SceneItemInfo) :
    (merged old info).idValue = old.idValue := by simp [merged, SceneItemInfo.idValue]

theorem merged_displayInfo {old : SceneItemInfo} (info : SceneItemInfo) {stored : DisplayInfo}
    (h : old.displayInfo = some stored) :
    (merged old info).displayInfo =
      some (copyPresentFields stored (info.displayInfo.getD {})) := by
  cases hd : info.displayInfo with
  | none => simp [merged, updateDisplayDefaults, hd, h]
  | some display => simp [merged, updateDisplayDefaults, hd, h]

theorem merged_completed {id : String} {old : SceneItemInfo} (info : SceneItemInfo)
    (h : Completed id old) : Completed id (merged old info) := by
  obtain ⟨hid, stored, hs, hc⟩ := h
  exact ⟨by simp [hid], _, merged_displayInfo info hs, complete_copyPresentFields _ _ hc⟩

def ShadesInFull (info : SceneItemInfo) : Prop := FullShading (info.displayInfo.getD {})

theorem copyPresentFields_fullShading_iff {stored given : DisplayInfo}
    (h : FullShading stored) :
    FullShading (copyPresentFields stored given) ↔ FullShading given := by
  cases hg : given.shading with
  | none => simpa [FullShading, copyPresentFields, hg] using h
  | some shading => simp [FullShading, copyPresentFields, hg]

theorem merged_fullySpecified_iff {id : String} {old info : SceneItemInfo}
    (h : FullySpecified id old) : FullySpecified id (merged old info) ↔ ShadesInFull info := by
  have hc := merged_completed info h.completed
  obtain ⟨-, stored, hs, -, hf⟩ := h
  have hd := merged_displayInfo info hs
  constructor
  · rintro ⟨-, display, hd', -, hf'⟩
    rw [hd] at hd'
    cases hd'
    exact (copyPresentFields_fullShading_iff hf).mp hf'
  · intro hg
    obtain ⟨hid, display, hd', hcd⟩ := hc
    rw [hd] at hd'
    cases hd'
    exact ⟨hid, _, hd, hcd, (copyPresentFields_fullShading_iff hf).mpr hg⟩

def KeepsShading (s : SceneServer) (r : SceneUpdateRequest) : Prop :=
  match verdict s.scene r with
  | .merge _ info => ShadesInFull info
  | .reject _ | .create _ | .announce _ _ | .clear => True

theorem fullySpecified_step (s : SceneServer) (r : SceneUpdateRequest)
    (h : EachItem FullySpecified s) :
    EachItem FullySpecified (step s r) ↔ KeepsShading s r := by
  have hj := justified s.scene r
  unfold KeepsShading
  rw [step_eq]
  cases hv : verdict s.scene r with
  | reject errorMsg => exact iff_of_true h trivial
  | create info =>
    exact iff_of_true (eachItem_insert h (setDisplayDefaults_fullySpecified info)) trivial
  | merge old info =>
    rw [hv] at hj
    have ho := h _ _ hj.2.1
    constructor
    · intro hn
      exact (merged_fullySpecified_iff ho).mp (hn info.idValue _ (Finmap.lookup_insert _))
    · intro hg
      exact eachItem_insert h ((merged_fullySpecified_iff ho).mpr hg)
  | announce old info => exact iff_of_true h trivial
  | clear => exact iff_of_true (eachItem_empty FullySpecified) trivial

/-- Every state of a run has only fully specified items exactly when every
update in it that sends Lambertian shading sends it in full. -/
theorem stored_items_specified (rs : List SceneUpdateRequest) :
    Everywhere step (EachItem FullySpecified) {} rs ↔ Along step KeepsShading {} rs :=
  everywhere_iff_along step (fun _ => True) (fun _ _ _ => trivial)
    (fun s r _ h => fullySpecified_step s r h) trivial (eachItem_empty FullySpecified) rs

def litItem : SceneItemInfo where
  id := some ⟨"item"⟩
  geometryInfo := some { positions := some [one, one, one] }

def relit : SceneItemInfo where
  id := some ⟨"item"⟩
  displayInfo := some { shading := some (.lambertian {}) }

theorem partial_shading_stored :
    ¬ EachItem FullySpecified (run step {} [.safeSetItem litItem, .safeSetItem relit]) := by
  intro h
  have hl : (run step {} [.safeSetItem litItem, .safeSetItem relit]).scene.lookup "item" =
      some (merged (setDisplayDefaults litItem) relit) := by decide
  obtain ⟨-, display, hd, -, hf⟩ := h _ _ hl
  have hc : (setDisplayDefaults litItem).displayInfo = some (completeDisplayInfo "item" {}) := rfl
  rw [merged_displayInfo relit hc] at hd
  cases hd
  exact absurd (hf {} rfl).1 (by decide)

end GVS.StoredItems
