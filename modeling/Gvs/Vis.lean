import Gvs.ItemDefaults
import Gvs.Outcomes
import Gvs.ParentForest

/-!
# The viewer's scene

`OpenGLScene` of `opengl_scene.cpp`, `OpaqueDrawable` and the dispatch of
`VisClient::update`. Pointers are numbers from one counter, so a new object,
package or drawable never aliases an old one. The scene graph maps live
objects to their parent pointers, none for a child of the scene itself. A
package does not own its object or its drawable: destroying one leaves both.
Assertions are enabled. An iteration order of a protobuf map is a parameter.
-/

set_option autoImplicit false

namespace GVS.Vis
open GVS.Proto GVS.ItemDefaults ParentForest

inductive MeshPrimitive where
  | points
  | lines
  | lineStrip
  | triangles
  | triangleStrip
  | triangleFan
  deriving DecidableEq, Repr

inductive Failure where
  | outOfRange
  | invalidArgument (what : String)
  | assertion (expression : String)
  deriving DecidableEq, Repr

def fromProto : GeometryFormat → Except Failure MeshPrimitive
  | .points => .ok .points
  | .lines => .ok .lines
  | .lineStrip => .ok .lineStrip
  | .triangles => .ok .triangles
  | .triangleStrip => .ok .triangleStrip
  | .triangleFan => .ok .triangleFan
  | .unrecognized _ _ => .error (.invalidArgument "Invalid GeometryFormat enum provided")

/-- Draw state of a Magnum mesh: attributes are byte offsets into the vertex
buffer of the package, and `indexed` tells that its index buffer is bound. -/
structure Mesh where
  count : ℕ := 0
  primitive : MeshPrimitive := .points
  position : Option ℕ := none
  normal : Option ℕ := none
  textureCoordinate : Option ℕ := none
  vertexColor : Option ℕ := none
  indexed : Bool := false
  deriving DecidableEq, Repr

/-- `ObjectMeshPackage`. The address stands for the mesh inside it; the index
buffer is kept as the indices that `compressIndices` encodes into it. -/
structure ObjectMeshPackage where
  address : ℕ
  indexBuffer : List UInt32 := []
  vertexBuffer : List Single := []
  mesh : Mesh := {}
  object : ℕ
  drawable : ℕ
  deriving DecidableEq, Repr

def identity : Mat4 := ⟨[one, 0, 0, 0, 0, one, 0, 0, 0, 0, one, 0, 0, 0, 0, one]⟩

structure Object3D where
  parent : Option ℕ := none
  transformation : Mat4 := identity
  deriving DecidableEq, Repr

/-- The members of `OpaqueDrawable` with their initializers; the uniform
color starts as `{1.f, 0.9f, 0.7f}`. -/
structure OpaqueDrawable where
  object : ℕ
  mesh : ℕ
  coloring : Coloring := .uniformColor
  uniformColor : Vec3 := ⟨0x3F800000, 0x3F666666, 0x3F333333⟩
  shading : Shading := .valueNotSet
  deriving DecidableEq, Repr

structure OpenGLScene where
  objects : String → Option ObjectMeshPackage := fun _ => none
  graph : ℕ → Option Object3D := fun _ => none
  rootObject : Option ℕ := none
  drawables : ℕ → Option OpaqueDrawable := fun _ => none
  next : ℕ := 0

structure Iterates (items : SceneItems) (entries : List (String × SceneItemInfo)) : Prop where
  keysNodup : (entries.map Prod.fst).Nodup
  mem_iff : ∀ id info, (id, info) ∈ entries ↔ items.lookup id = some info

structure MapOrder where
  first : SceneItems → List (String × SceneItemInfo)
  second : SceneItems → List (String × SceneItemInfo)
  first_iterates : ∀ items, Iterates items (first items)
  second_iterates : ∀ items, Iterates items (second items)

def up (s : OpenGLScene) (o : ℕ) : Option ℕ := (s.graph o).bind (·.parent)

/-- `setParent`: Magnum ignores the call when the new parent is the object
itself or one of its descendants. -/
def setParent (s : OpenGLScene) (o p : ℕ) : OpenGLScene :=
  if climbs (up s) s.next p o then s
  else
    let moved := (s.graph o).map fun object => { object with parent := some p }
    { s with graph := Function.update s.graph o moved }

/-- Erasing an object deletes its subtree and the drawables attached to it. -/
def eraseObject (s : OpenGLScene) (r : ℕ) : OpenGLScene where
  objects := s.objects
  graph := fun o => if climbs (up s) s.next o r then none else s.graph o
  rootObject := s.rootObject
  drawables := fun d => (s.drawables d).filter fun drawable =>
    !climbs (up s) s.next drawable.object r
  next := s.next

def newPackage (s : OpenGLScene) : ObjectMeshPackage where
  address := s.next + 1
  object := s.next
  drawable := s.next + 2

def allocatePackage (s : OpenGLScene) : OpenGLScene where
  objects := s.objects
  graph := Function.update s.graph s.next (some {})
  rootObject := s.rootObject
  drawables := Function.update s.drawables (s.next + 2)
    (some { object := s.next, mesh := s.next + 1 })
  next := s.next + 3

/-- `objects_.emplace(key, make_unique<ObjectMeshPackage>(...))`. The package
is built first and destroyed again when the key is taken. -/
def emplace (s : OpenGLScene) (key : String) : OpenGLScene :=
  if (s.objects key).isSome then allocatePackage s
  else { allocatePackage s with
    objects := Function.update s.objects key (some (newPackage s)) }

structure Loading where
  bufferData : List Single := []
  offset : ℕ := 0
  mesh : Mesh

def loadPositions (list : Option (List Single)) (l : Loading) : Loading :=
  match list with
  | none => l
  | some positions =>
    { bufferData := l.bufferData ++ positions
      offset := l.offset + positions.length * 4
      mesh := { l.mesh with count := positions.length / 3, position := some l.offset } }

def loadNormals (list : Option (List Single)) (l : Loading) : Loading :=
  match list with
  | none => l
  | some normals =>
    { bufferData := l.bufferData ++ normals
      offset := l.offset + normals.length * 4
      mesh := { l.mesh with normal := some l.offset } }

def loadTexCoords (list : Option (List Single)) (l : Loading) : Loading :=
  match list with
  | none => l
  | some texCoords =>
    { bufferData := l.bufferData ++ texCoords
      offset := l.offset + texCoords.length * 4
      mesh := { l.mesh with textureCoordinate := some l.offset } }

def loadVertexColors (list : Option (List Single)) (l : Loading) : Loading :=
  match list with
  | none => l
  | some vertexColors =>
    { l with
      bufferData := l.bufferData ++ vertexColors
      mesh := { l.mesh with vertexColor := some l.offset } }

def loadIndices (list : Option (List UInt32)) (package : ObjectMeshPackage) : ObjectMeshPackage :=
  match list with
  | none | some [] => package
  | some (index::indices) =>
    { package with
      indexBuffer := index::indices
      mesh := { package.mesh with count := (index::indices).length, indexed := true } }

def loadGeometry (geometry : GeometryInfo3D) (package : ObjectMeshPackage) : ObjectMeshPackage :=
  let loaded := loadVertexColors geometry.vertexColors
    (loadTexCoords geometry.texCoords
      (loadNormals geometry.normals
        (loadPositions geometry.positions { mesh := { package.mesh with count := 0 } })))
  loadIndices geometry.indices
    { package with vertexBuffer := loaded.bufferData, mesh := loaded.mesh }

def updateGeometry (info : SceneItemInfo) (package : ObjectMeshPackage) : ObjectMeshPackage :=
  match info.geometryInfo with
  | none => package
  | some geometry => loadGeometry geometry package

def setPackage (s : OpenGLScene) (id : String) (package : ObjectMeshPackage) : OpenGLScene :=
  { s with objects := Function.update s.objects id (some package) }

def displayFormat (info : SceneItemInfo) : Option GeometryFormat :=
  info.displayInfo.bind (·.geometryFormat)

def updatePrimitive (info : SceneItemInfo) (package : ObjectMeshPackage) :
    Except Failure ObjectMeshPackage :=
  match displayFormat info with
  | none => .ok package
  | some format => (fromProto format).map fun primitive =>
      { package with mesh := { package.mesh with primitive } }

def setTransformation (s : OpenGLScene) (o : ℕ) (transformation : Option Mat4) : OpenGLScene :=
  match transformation with
  | none => s
  | some transformation =>
    let moved := (s.graph o).map fun object => { object with transformation }
    { s with graph := Function.update s.graph o moved }

def updateDrawable (display : DisplayInfo) (drawable : OpaqueDrawable) : OpaqueDrawable :=
  { drawable with
    coloring := display.coloring.getD drawable.coloring
    uniformColor := display.uniformColor.getD drawable.uniformColor
    shading := display.shading.getD drawable.shading }

def validTransformation (display : DisplayInfo) : Bool :=
  match display.transformation with
  | none => true
  | some transformation => transformation.data.length = 16

/-- `OpaqueDrawable::update_display_info` through a package's pointer, which
never dangles. -/
def updateDisplayInfo (s : OpenGLScene) (d : ℕ) (display : DisplayInfo) :
    Outcome Failure OpenGLScene :=
  match s.drawables d with
  | none => .done s
  | some drawable =>
    if validTransformation display then
      let moved := setTransformation s drawable.object display.transformation
      let updated := updateDrawable display drawable
      .done { moved with drawables := Function.update s.drawables d (some updated) }
    else .raised (.assertion "display_info.transformation().data_size() == 16") s

def eraseKey (s : OpenGLScene) (id : String) : OpenGLScene :=
  { s with objects := Function.update s.objects id none }

def placeItem (s : OpenGLScene) (info : SceneItemInfo) (package : ObjectMeshPackage) :
    Outcome Failure OpenGLScene :=
  match s.objects info.parentValue with
  | none =>
    .raised (.invalidArgument ("Parent id '" ++ info.parentValue ++ "' not found in scene"))
      (eraseKey s info.idValue)
  | some parent =>
    let placed := setParent s package.object parent.object
    match info.displayInfo with
    | none => .done placed
    | some display => updateDisplayInfo placed package.drawable display

def updateItem (s : OpenGLScene) (info : SceneItemInfo) : Outcome Failure OpenGLScene :=
  match s.objects info.idValue with
  | none => .raised .outOfRange s
  | some package =>
    let loaded := updateGeometry info package
    match updatePrimitive info loaded with
    | .error failure => .raised failure (setPackage s info.idValue loaded)
    | .ok ready => placeItem (setPackage s info.idValue ready) info ready

def addItem (s : OpenGLScene) (info : SceneItemInfo) : Outcome Failure OpenGLScene :=
  if info.geometryInfo.isSome then updateItem (emplace s info.idValue) info
  else .raised (.assertion "info.has_geometry_info()") s

/-- `scene_.children().erase(root_object_)`: Magnum asserts that the root is in
the scene's own list of children. -/
def eraseRoot (s : OpenGLScene) : Outcome Failure OpenGLScene :=
  match s.rootObject with
  | none => .done s
  | some r =>
    if (up s r).isNone then .done (eraseObject s r)
    else .raised (.assertion "item->_list == this") s

def freshRoot (s : OpenGLScene) : OpenGLScene :=
  emplace { s with objects := fun _ => none, rootObject := some s.next } ""

def emplaceAll (s : OpenGLScene) : List (String × SceneItemInfo) → OpenGLScene
  | [] => s
  | item::items => emplaceAll (emplace s item.1) items

def reset (order : MapOrder) (s : OpenGLScene) (items : SceneItems) :
    Outcome Failure OpenGLScene :=
  (eraseRoot s).andThen fun erased =>
    Outcome.drive (fun s item => updateItem s item.2)
      (emplaceAll (freshRoot erased) (order.first items)) (order.second items)

/-- The constructor ends with `reset({})`. -/
def construct : OpenGLScene := freshRoot {}

def applyUpdate (order : MapOrder) (s : OpenGLScene) : SceneUpdate → Outcome Failure OpenGLScene
  | .addItem info => addItem s info
  | .updateItem info => updateItem s info
  | .resetAllItems items => reset order s items
  | .removeItem _ | .updateNotSet => .done s

def update (order : MapOrder) (s : OpenGLScene) (updates : List SceneUpdate) :
    Outcome Failure OpenGLScene := Outcome.drive (applyUpdate order) s updates

structure DisplayState where
  transformation : Mat4
  coloring : Coloring
  uniformColor : Vec3
  shading : Shading
  primitive : MeshPrimitive
  deriving DecidableEq, Repr

def displayState (s : OpenGLScene) (id : String) : Option DisplayState :=
  (s.objects id).bind fun package => (s.graph package.object).bind fun object =>
    (s.drawables package.drawable).map fun drawable =>
      { transformation := object.transformation
        coloring := drawable.coloring
        uniformColor := drawable.uniformColor
        shading := drawable.shading
        primitive := package.mesh.primitive }

def RootOnTop (s : OpenGLScene) : Prop := ∀ r, s.rootObject = some r → up s r = none

def HangsUnder (s : OpenGLScene) (id parent : String) : Prop :=
  ∃ package above, s.objects id = some package ∧ s.objects parent = some above ∧
    up s package.object = some above.object

end GVS.Vis
