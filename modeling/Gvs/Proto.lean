import Mathlib.Data.Finmap

/-!
# Messages of the scene service

The protobuf messages of `types.proto` and `scene.proto`. A field with
presence is an option. Enumerations are open: a peer can send any number, so
each has a case for numbers that name no member. Floats are only stored and
copied, so a single precision float is its bit pattern.
-/

set_option autoImplicit false

namespace GVS.Proto

abbrev Single := UInt32

structure Message where
  identifier : String
  contents : String
  deriving DecidableEq, Inhabited, Repr

structure ID where
  value : String := ""
  deriving DecidableEq, Inhabited, Repr

structure Vec3 where
  x : Single
  y : Single
  z : Single
  deriving DecidableEq, Inhabited, Repr

structure Mat4 where
  data : List Single
  deriving DecidableEq, Inhabited, Repr

inductive GeometryFormat where
  | points
  | lines
  | lineStrip
  | triangles
  | triangleStrip
  | triangleFan
  | unrecognized (number : ℤ) (noMember : number < 0 ∨ 5 < number)
  deriving DecidableEq, Inhabited, Repr

inductive Coloring where
  | positions
  | normals
  | textureCoordinates
  | vertexColors
  | uniformColor
  | texture
  | white
  | unrecognized (number : ℤ) (noMember : number < 0 ∨ 6 < number)
  deriving DecidableEq, Inhabited, Repr

structure LambertianShading where
  lightDirection : Option Vec3 := none
  lightColor : Option Vec3 := none
  ambientColor : Option Vec3 := none
  deriving DecidableEq, Inhabited, Repr

inductive Shading where
  | valueNotSet
  | uniformColor
  | lambertian (shading : LambertianShading)
  deriving DecidableEq, Inhabited, Repr

structure GeometryInfo3D where
  positions : Option (List Single) := none
  normals : Option (List Single) := none
  texCoords : Option (List Single) := none
  vertexColors : Option (List Single) := none
  indices : Option (List UInt32) := none
  deriving DecidableEq, Inhabited, Repr

structure DisplayInfo where
  readableId : Option String := none
  geometryFormat : Option GeometryFormat := none
  transformation : Option Mat4 := none
  uniformColor : Option Vec3 := none
  coloring : Option Coloring := none
  shading : Option Shading := none
  deriving DecidableEq, Inhabited, Repr

structure SceneItemInfo where
  id : Option ID := none
  geometryInfo : Option GeometryInfo3D := none
  displayInfo : Option DisplayInfo := none
  parent : Option ID := none
  deriving DecidableEq, Inhabited, Repr

/-- `id().value()`: an absent sub-message reads as its default. -/
def SceneItemInfo.idValue (info : SceneItemInfo) : String := (info.id.getD {}).value

def SceneItemInfo.parentValue (info : SceneItemInfo) : String := (info.parent.getD {}).value

abbrev SceneItems := Finmap (fun _ : String => SceneItemInfo)

structure Errors where
  errorMsg : String := ""
  deriving DecidableEq, Inhabited, Repr

inductive SceneUpdateRequest where
  | safeSetItem (info : SceneItemInfo)
  | replaceItem (info : SceneItemInfo)
  | appendToItem (info : SceneItemInfo)
  | updateItem (info : SceneItemInfo)
  | removeItem (info : SceneItemInfo)
  | clearAll
  | updateNotSet
  deriving DecidableEq

inductive SceneUpdate where
  | addItem (info : SceneItemInfo)
  | updateItem (info : SceneItemInfo)
  | removeItem (info : SceneItemInfo)
  | resetAllItems (items : SceneItems)
  | updateNotSet
  deriving DecidableEq

theorem lookup_insert_ite (items : SceneItems) (k id : String) (info : SceneItemInfo) :
    (items.insert k info).lookup id = if id = k then some info else items.lookup id := by
  by_cases h : id = k
  · subst h
    simp
  · simp [h, Finmap.lookup_insert_of_ne]

theorem mem_iff_lookup (items : SceneItems) (id : String) :
    id ∈ items ↔ ∃ info, items.lookup id = some info := Finmap.mem_iff

theorem insert_inj {items : SceneItems} {id : String} {a b : SceneItemInfo} :
    items.insert id a = items.insert id b ↔ a = b := by
  constructor
  · intro h
    simpa using congrArg (Finmap.lookup id) h
  · rintro rfl
    rfl

end GVS.Proto
