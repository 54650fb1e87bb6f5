import Gvs.Proto

/-!
# Display defaults and display merges

The constants of `item_defaults.hpp` and the two file-local helpers of the
scene server that write display fields: one completes a new item, the other
copies the fields present in a later request over a stored item.
-/

set_option autoImplicit false

namespace GVS.ItemDefaults
open GVS.Proto

def one : Single := 0x3F800000

def defaultGeomFormat : GeometryFormat := .points

def defaultTransformation : Mat4 :=
  ⟨[one, 0, 0, 0, 0, one, 0, 0, 0, 0, one, 0, 0, 0, 0, one]⟩

/-- `{0.9f, 0.8f, 0.7f}`. -/
def defaultColor : Vec3 := ⟨0x3F666666, 0x3F4CCCCD, 0x3F333333⟩

def defaultColoring : Coloring := .uniformColor

/-- `{-1.f, -2.f, -3.f}`. -/
def defaultLightDirection : Vec3 := ⟨0xBF800000, 0xC0000000, 0xC0400000⟩

/-- `{0.85f, 0.85f, 0.85f}`. -/
def defaultLightColor : Vec3 := ⟨0x3F59999A, 0x3F59999A, 0x3F59999A⟩

/-- `{0.1f, 0.1f, 0.1f}`. -/
def defaultAmbientColor : Vec3 := ⟨0x3DCCCCCD, 0x3DCCCCCD, 0x3DCCCCCD⟩

def setLambertianDefaults (lambertian : LambertianShading) : LambertianShading where
  lightDirection := some (lambertian.lightDirection.getD defaultLightDirection)
  lightColor := some (lambertian.lightColor.getD defaultLightColor)
  ambientColor := some (lambertian.ambientColor.getD defaultAmbientColor)

def setShadingDefaults : Option Shading → Shading
  | none => .uniformColor
  | some (.lambertian lambertian) => .lambertian (setLambertianDefaults lambertian)
  | some shading => shading

def completeDisplayInfo (id : String) (display : DisplayInfo) : DisplayInfo where
  readableId := some (display.readableId.getD id)
  geometryFormat := some (display.geometryFormat.getD defaultGeomFormat)
  transformation := some (display.transformation.getD defaultTransformation)
  uniformColor := some (display.uniformColor.getD defaultColor)
  coloring := some (display.coloring.getD defaultColoring)
  shading := some (setShadingDefaults display.shading)

def setDisplayDefaults (info : SceneItemInfo) : SceneItemInfo :=
  { info with displayInfo := some (completeDisplayInfo info.idValue (info.displayInfo.getD {})) }

def copyPresentFields (old new : DisplayInfo) : DisplayInfo where
  readableId := new.readableId.or old.readableId
  geometryFormat := new.geometryFormat.or old.geometryFormat
  transformation := new.transformation.or old.transformation
  uniformColor := new.uniformColor.or old.uniformColor
  coloring := new.coloring.or old.coloring
  shading := new.shading.or old.shading

def updateDisplayDefaults (old new : SceneItemInfo) : SceneItemInfo :=
  match new.displayInfo with
  | none => old
  | some display =>
    { old with displayInfo := some (copyPresentFields (old.displayInfo.getD {}) display) }

@[simp] theorem setDisplayDefaults_id (info : SceneItemInfo) :
    (setDisplayDefaults info).id = info.id := rfl

@[simp] theorem setDisplayDefaults_idValue (info : SceneItemInfo) :
    (setDisplayDefaults info).idValue = info.idValue := rfl

@[simp] theorem setDisplayDefaults_geometryInfo (info : SceneItemInfo) :
    (setDisplayDefaults info).geometryInfo = info.geometryInfo := rfl

@[simp] theorem setDisplayDefaults_parent (info : SceneItemInfo) :
    (setDisplayDefaults info).parent = info.parent := rfl

@[simp] theorem setDisplayDefaults_parentValue (info : SceneItemInfo) :
    (setDisplayDefaults info).parentValue = info.parentValue := rfl

@[simp] theorem updateDisplayDefaults_id (old new : SceneItemInfo) :
    (updateDisplayDefaults old new).id = old.id := by
  unfold updateDisplayDefaults
  split <;> rfl

@[simp] theorem updateDisplayDefaults_idValue (old new : SceneItemInfo) :
    (updateDisplayDefaults old new).idValue = old.idValue := by
  simp [SceneItemInfo.idValue]

@[simp] theorem updateDisplayDefaults_geometryInfo (old new : SceneItemInfo) :
    (updateDisplayDefaults old new).geometryInfo = old.geometryInfo := by
  unfold updateDisplayDefaults
  split <;> rfl

@[simp] theorem updateDisplayDefaults_parent (old new : SceneItemInfo) :
    (updateDisplayDefaults old new).parent = old.parent := by
  unfold updateDisplayDefaults
  split <;> rfl

def Complete (display : DisplayInfo) : Prop :=
  display.readableId.isSome ∧ display.geometryFormat.isSome ∧ display.transformation.isSome ∧
    display.uniformColor.isSome ∧ display.coloring.isSome ∧ display.shading.isSome

theorem complete_completeDisplayInfo (id : String) (display : DisplayInfo) :
    Complete (completeDisplayInfo id display) := by
  simp [Complete, completeDisplayInfo]

theorem complete_copyPresentFields (old new : DisplayInfo) (h : Complete old) :
    Complete (copyPresentFields old new) := by
  obtain ⟨h1, h2, h3, h4, h5, h6⟩ := h
  simp [Complete, copyPresentFields, h1, h2, h3, h4, h5, h6]

@[simp] theorem copyPresentFields_empty (old : DisplayInfo) : copyPresentFields old {} = old := rfl

end GVS.ItemDefaults
