import Gvs.Outcomes
import Gvs.Server

/-!
# Log parameters and item streams

The functors of `log_params.hpp` and the stream of `geometry_item_stream.cpp`.
A functor writes its field into the item of the stream, or answers with its
name when the field is already there. The overloads that take vectors of
tuples copy the same floats. A call through the stub reaches the server.
-/

set_option autoImplicit false

namespace GVS.LogParams
open GVS.Proto GVS.ItemDefaults GVS.Server

abbrev Functor := SceneItemInfo → Except String SceneItemInfo

def mutableGeometryInfo (info : SceneItemInfo) : GeometryInfo3D := info.geometryInfo.getD {}

def mutableDisplayInfo (info : SceneItemInfo) : DisplayInfo := info.displayInfo.getD {}

def writeGeometry (name : String) (has : GeometryInfo3D → Bool)
    (set : GeometryInfo3D → GeometryInfo3D) : Functor := fun info =>
  let geometry := mutableGeometryInfo info
  if has geometry then .error name else .ok { info with geometryInfo := some (set geometry) }

def writeDisplay (name : String) (has : DisplayInfo → Bool) (set : DisplayInfo → DisplayInfo) :
    Functor := fun info =>
  let display := mutableDisplayInfo info
  if has display then .error name else .ok { info with displayInfo := some (set display) }

def positions3d (data : List Single) : Functor :=
  writeGeometry "positions_3d" (·.positions.isSome)
    fun geometry => { geometry with positions := some data }

def normals3d (data : List Single) : Functor :=
  writeGeometry "normals_3d" (·.normals.isSome)
    fun geometry => { geometry with normals := some data }

def texCoords3d (data : List Single) : Functor :=
  writeGeometry "tex_coords_3d" (·.texCoords.isSome)
    fun geometry => { geometry with texCoords := some data }

def vertexColors3d (data : List Single) : Functor :=
  writeGeometry "vertex_colors_3d" (·.vertexColors.isSome)
    fun geometry => { geometry with vertexColors := some data }

/-- Indices also set the format, which is not checked and may be overwritten. -/
def indices (format : GeometryFormat) (data : List UInt32) : Functor := fun info =>
  (writeGeometry "indices" (·.indices.isSome)
    (fun geometry => { geometry with indices := some data }) info).map fun written =>
      { written with
        displayInfo := some { mutableDisplayInfo written with geometryFormat := some format } }

def geometryFormat (data : GeometryFormat) : Functor :=
  writeDisplay "geometry_format" (·.geometryFormat.isSome)
    fun display => { display with geometryFormat := some data }

def coloring (data : Coloring) : Functor :=
  writeDisplay "coloring" (·.coloring.isSome)
    fun display => { display with coloring := some data }

def parent (data : String) : Functor := fun info =>
  if info.parent.isSome then .error "parent" else .ok { info with parent := some ⟨data⟩ }

structure LambertianShading where
  lightDirection : Vec3
  lightColor : Vec3
  ambientColor : Vec3
  deriving DecidableEq, Repr

structure Arguments where
  values : List Vec3
  atMostThree : values.length ≤ 3
  deriving DecidableEq, Repr

/-- The constructor, with the defaults of its three parameters:
`{-1.f, -1.f, -1.f}`, `{1.f, 1.f, 1.f}` and `{0.15f, 0.15f, 0.15f}`. -/
def lambertianShading (arguments : Arguments) : LambertianShading where
  lightDirection := arguments.values[0]?.getD ⟨0xBF800000, 0xBF800000, 0xBF800000⟩
  lightColor := arguments.values[1]?.getD ⟨one, one, one⟩
  ambientColor := arguments.values[2]?.getD ⟨0x3E19999A, 0x3E19999A, 0x3E19999A⟩

/-- `mutable_shading()` makes an empty message and `uniform_color()` only reads
from it: no case is set. -/
def shadingUniformColor : Functor :=
  writeDisplay "shading" (·.shading.isSome)
    fun display => { display with shading := some .valueNotSet }

def shadingLambertian (data : LambertianShading) : Functor :=
  writeDisplay "shading" (·.shading.isSome) fun display =>
    { display with
      shading := some (.lambertian
        { lightDirection := some data.lightDirection
          lightColor := some data.lightColor
          ambientColor := some data.ambientColor }) }

structure Matrix where
  entries : List Single
  sixteen : entries.length = 16
  deriving DecidableEq, Repr

def transformation (data : Matrix) : Functor :=
  writeDisplay "transformation" (·.transformation.isSome)
    fun display => { display with transformation := some ⟨data.entries⟩ }

def uniformColor (data : Vec3) : Functor :=
  writeDisplay "uniform_color" (·.uniformColor.isSome)
    fun display => { display with uniformColor := some data }

inductive ShadingParam where
  | uniformColor
  | lambertian (arguments : Arguments)
  deriving DecidableEq, Repr

inductive LogParam where
  | positions3d (data : List Single)
  | normals3d (data : List Single)
  | texCoords3d (data : List Single)
  | vertexColors3d (data : List Single)
  | indices (format : GeometryFormat) (data : List UInt32)
  | geometryFormat (data : GeometryFormat)
  | coloring (data : Coloring)
  | parent (data : String)
  | shading (data : ShadingParam)
  | transformation (data : Matrix)
  | uniformColor (data : Vec3)
  deriving DecidableEq, Repr

def LogParam.functor : LogParam → Functor
  | .positions3d data => LogParams.positions3d data
  | .normals3d data => LogParams.normals3d data
  | .texCoords3d data => LogParams.texCoords3d data
  | .vertexColors3d data => LogParams.vertexColors3d data
  | .indices format data => LogParams.indices format data
  | .geometryFormat data => LogParams.geometryFormat data
  | .coloring data => LogParams.coloring data
  | .parent data => LogParams.parent data
  | .shading .uniformColor => shadingUniformColor
  | .shading (.lambertian arguments) => shadingLambertian (lambertianShading arguments)
  | .transformation data => LogParams.transformation data
  | .uniformColor data => LogParams.uniformColor data

section Streams

structure GeometryItemStream where
  id : String
  stub : Bool
  info : SceneItemInfo := {}
  errorMessage : String := ""
  deriving DecidableEq, Repr

def GeometryItemStream.success (stream : GeometryItemStream) : Bool := stream.errorMessage.isEmpty

/-- `operator<<`; a raise stands for `std::invalid_argument`. -/
def push (stream : GeometryItemStream) (functor : Functor) : Outcome String GeometryItemStream :=
  match functor stream.info with
  | .error name => .raised (name ++ " is already set") stream
  | .ok info => .done { stream with info }

def pushAll (stream : GeometryItemStream) (params : List LogParam) :
    Outcome String GeometryItemStream :=
  Outcome.drive (fun stream param => push stream param.functor) stream params

/-- The item while a functor looks into it: `mutable_geometry_info()` and
`mutable_display_info()` make the message they lead to. -/
def LogParam.touched (param : LogParam) (info : SceneItemInfo) : SceneItemInfo :=
  match param with
  | .positions3d _ | .normals3d _ | .texCoords3d _ | .vertexColors3d _ | .indices _ _ =>
    { info with geometryInfo := some (mutableGeometryInfo info) }
  | .geometryFormat _ | .coloring _ | .shading _ | .transformation _ | .uniformColor _ =>
    { info with displayInfo := some (mutableDisplayInfo info) }
  | .parent _ => info

/-- A functor called on the item of a stream: what it leaves there and the
name it returns, which is empty when it has written its field. -/
def LogParam.called (param : LogParam) (info : SceneItemInfo) : SceneItemInfo × String :=
  match param.functor (param.touched info) with
  | .ok written => (written, "")
  | .error name => (param.touched info, name)

def shiftLeft (stream : GeometryItemStream) (param : LogParam) :
    Outcome String GeometryItemStream :=
  let called := param.called stream.info
  let left := { stream with info := called.1 }
  if called.2.isEmpty then .done left else .raised (called.2 ++ " is already set") left

inductive SendType where
  | safe
  | replace
  | append
  deriving DecidableEq, Repr

def request (info : SceneItemInfo) : SendType → SceneUpdateRequest
  | .safe => .safeSetItem info
  | .replace => .replaceItem info
  | .append => .appendToItem info

def sendCurrentData (s : SceneServer) (stream : GeometryItemStream) (type : SendType) :
    SceneServer × GeometryItemStream :=
  let info := { stream.info with id := some ⟨stream.id⟩ }
  if stream.stub then
    let answer := requestUpdateScene s (request info type)
    (answer.1, { stream with info := {}, errorMessage := answer.2.errorMsg })
  else (s, { stream with info := {} })

/-- What becomes of a send: there is no stub, `UpdateScene` ends with a status
that is not OK, or it is answered. -/
inductive Reply where
  | noStub
  | notOk (errorMessage : String)
  | answered (errors : Errors)
  deriving DecidableEq, Repr

def sendWith (stream : GeometryItemStream) (type : SendType) (reply : Reply) :
    Option SceneUpdateRequest × GeometryItemStream :=
  let info := { stream.info with id := some ⟨stream.id⟩ }
  match reply with
  | .noStub => (none, { stream with info := {} })
  | .notOk errorMessage => (some (request info type), { stream with info := {}, errorMessage })
  | .answered errors =>
    (some (request info type), { stream with info := {}, errorMessage := errors.errorMsg })

end Streams

end GVS.LogParams
