import Gvs.Vis

/-!
# The general shader

The uniforms of `GeneralShader3D`, its two stages and `OpaqueDrawable::draw`.
All drawables share one shader program, so a draw finds the uniforms that the
draw before it left. Arithmetic on floats is that of Magnum and of the driver
and is a parameter. What the stages compute depends on the drawable, the
camera and its place in the scene, and on nothing that was left behind.
-/

set_option autoImplicit false

namespace GVS.Shader
open GVS.Proto GVS.ItemDefaults GVS.Vis

/-- The arithmetic of `Magnum::Matrix4`, `Matrix3` and of the shading language.
Magnum computes the transformation of an object relative to a camera from the
camera matrix and the transformations from the scene down to the object. -/
structure Arithmetic (M N : Type*) where
  identity : M
  identityNormals : N
  relative : M → List Mat4 → M
  multiply : M → M → M
  inverted : M → M
  rotationScaling : M → N
  timesPoint : M → Vec3 × Single → Vec3 × Single
  timesNormal : N → Vec3 → Vec3
  normalize : Vec3 → Vec3
  negate : Vec3 → Vec3
  dot : Vec3 → Vec3 → Single
  max : Single → Single → Single
  scale : Single → Vec3 → Vec3
  add : Vec3 → Vec3 → Vec3
  times : Vec3 → Vec3 → Vec3
  shift : Vec3 → Single → Vec3

def white : Vec3 := ⟨one, one, one⟩

def half : Single := 0x3F000000

structure Uniforms (M N : Type*) where
  worldFromLocal : M
  worldFromLocalNormals : N
  projectionFromLocal : M
  coloring : ℤ := 4
  uniformColor : Vec3 := ⟨0x3F800000, 0x3F666666, 0x3F333333⟩
  opacity : Single := one
  shading : ℤ := 0
  lightDirection : Vec3 := ⟨0xBF800000, 0xBF800000, 0xBF800000⟩
  lightColor : Vec3 := white
  ambientColor : Vec3 := ⟨0x3E19999A, 0x3E19999A, 0x3E19999A⟩

structure Vertex where
  localPosition : Vec3 × Single
  localNormal : Vec3
  textureCoordinates : Single × Single
  vertexColor : Vec3

structure Varyings where
  worldPosition : Vec3
  worldNormal : Vec3
  textureCoordinates : Single × Single
  vertexColor : Vec3

variable {M N : Type*}

def vertexMain (a : Arithmetic M N) (u : Uniforms M N) (v : Vertex) :
    Varyings × (Vec3 × Single) :=
  ({ worldPosition := (a.timesPoint u.worldFromLocal v.localPosition).1
     worldNormal := a.timesNormal u.worldFromLocalNormals v.localNormal
     textureCoordinates := v.textureCoordinates
     vertexColor := v.vertexColor },
   a.timesPoint u.projectionFromLocal v.localPosition)

def shapeColor (a : Arithmetic M N) (u : Uniforms M N) (v : Varyings) : Vec3 :=
  match u.coloring with
  | 0 => v.worldPosition
  | 1 => a.shift (a.scale half v.worldNormal) half
  | 2 => ⟨v.textureCoordinates.1, v.textureCoordinates.2, one⟩
  | 3 => v.vertexColor
  | 4 => u.uniformColor
  | _ => white

def fragmentMain (a : Arithmetic M N) (u : Uniforms M N) (v : Varyings) : Vec3 × Single :=
  let surfaceNormal := a.normalize v.worldNormal
  let directionToLight := a.normalize (a.negate u.lightDirection)
  let finalColor :=
    match u.shading with
    | 0 => shapeColor a u v
    | 1 =>
      let diffuseLighting := a.scale (a.max 0 (a.dot surfaceNormal directionToLight)) u.lightColor
      a.times (a.add diffuseLighting u.ambientColor) (shapeColor a u v)
    | _ => white
  (finalColor, u.opacity)

def coloringNumber : Coloring → ℤ
  | .positions => 0
  | .normals => 1
  | .textureCoordinates => 2
  | .vertexColors => 3
  | .uniformColor => 4
  | .texture => 5
  | .white => 6
  | .unrecognized number _ => number

def setWorldFromLocalMatrix (m : M) (u : Uniforms M N) : Uniforms M N :=
  { u with worldFromLocal := m }

def setWorldFromLocalNormalMatrix (n : N) (u : Uniforms M N) : Uniforms M N :=
  { u with worldFromLocalNormals := n }

def setProjectionFromLocalMatrix (m : M) (u : Uniforms M N) : Uniforms M N :=
  { u with projectionFromLocal := m }

def setColoring (coloring : Coloring) (u : Uniforms M N) : Uniforms M N :=
  { u with coloring := coloringNumber coloring }

def setUniformColor (color : Vec3) (u : Uniforms M N) : Uniforms M N :=
  { u with uniformColor := color }

/-- `set_shading`. The light is left alone unless the shading is Lambertian,
and its absent parts have defaults of their own here. -/
def setShading (shading : Shading) (u : Uniforms M N) : Uniforms M N :=
  match shading with
  | .valueNotSet | .uniformColor => { u with shading := 0 }
  | .lambertian lambertian =>
    { u with
      shading := 1
      lightDirection := lambertian.lightDirection.getD ⟨0xBF800000, 0xBF800000, 0xBF800000⟩
      lightColor := lambertian.lightColor.getD white
      ambientColor := lambertian.ambientColor.getD ⟨0x3E19999A, 0x3E19999A, 0x3E19999A⟩ }

def constructShader (a : Arithmetic M N) : Uniforms M N :=
  setUniformColor ⟨0x3F800000, 0x3F000000, 0x3DCCCCCD⟩
    { worldFromLocal := a.identity
      worldFromLocalNormals := a.identityNormals
      projectionFromLocal := a.identity }

/-- `camera_` when a frame is drawn: the inverse of its transformation and the
projection taken from the camera package. -/
structure Camera (M : Type*) where
  cameraMatrix : M
  projectionMatrix : M

def draw (a : Arithmetic M N) (camera : Camera M) (drawable : OpaqueDrawable)
    (transformationMatrix : M) (u : Uniforms M N) : Uniforms M N :=
  let worldTransform := a.multiply (a.inverted camera.cameraMatrix) transformationMatrix
  setShading drawable.shading (setUniformColor drawable.uniformColor
    (setColoring drawable.coloring
      (setProjectionFromLocalMatrix (a.multiply camera.projectionMatrix transformationMatrix)
        (setWorldFromLocalNormalMatrix (a.rotationScaling worldTransform)
          (setWorldFromLocalMatrix worldTransform u)))))

/-- Uniforms with which both stages compute the same. The light matters only
where the shading asks for it. -/
structure Alike (u v : Uniforms M N) : Prop where
  worldFromLocal : u.worldFromLocal = v.worldFromLocal
  worldFromLocalNormals : u.worldFromLocalNormals = v.worldFromLocalNormals
  projectionFromLocal : u.projectionFromLocal = v.projectionFromLocal
  coloring : u.coloring = v.coloring
  uniformColor : u.uniformColor = v.uniformColor
  opacity : u.opacity = v.opacity
  shading : u.shading = v.shading
  light : u.shading = 1 → u.lightDirection = v.lightDirection ∧ u.lightColor = v.lightColor ∧
    u.ambientColor = v.ambientColor

theorem Alike.vertexMain {u v : Uniforms M N} (h : Alike u v) (a : Arithmetic M N) :
    vertexMain a u = Shader.vertexMain a v := by
  ext1 vertex
  rw [Shader.vertexMain, Shader.vertexMain, h.worldFromLocal, h.worldFromLocalNormals,
    h.projectionFromLocal]

theorem Alike.shapeColor {u v : Uniforms M N} (h : Alike u v) (a : Arithmetic M N)
    (varyings : Varyings) : shapeColor a u varyings = Shader.shapeColor a v varyings := by
  rw [Shader.shapeColor, Shader.shapeColor, h.coloring, h.uniformColor]

theorem Alike.fragmentMain {u v : Uniforms M N} (h : Alike u v) (a : Arithmetic M N) :
    fragmentMain a u = Shader.fragmentMain a v := by
  ext1 varyings
  simp only [Shader.fragmentMain, h.shapeColor, h.opacity]
  by_cases hlit : u.shading = 1
  · obtain ⟨hdirection, hcolor, hambient⟩ := h.light hlit
    rw [h.shading, hdirection, hcolor, hambient]
  · rw [← h.shading]
    split
    · rfl
    · contradiction
    · rfl

/-- A draw sets everything that its stages read, but for the opacity. -/
theorem draw_alike (a : Arithmetic M N) (camera : Camera M) (drawable : OpaqueDrawable)
    (transformationMatrix : M) {u v : Uniforms M N} (h : u.opacity = v.opacity) :
    Alike (draw a camera drawable transformationMatrix u)
      (draw a camera drawable transformationMatrix v) := by
  unfold draw
  cases drawable.shading with
  | valueNotSet => exact ⟨rfl, rfl, rfl, rfl, rfl, h, rfl, fun hlit => by cases hlit⟩
  | uniformColor => exact ⟨rfl, rfl, rfl, rfl, rfl, h, rfl, fun hlit => by cases hlit⟩
  | lambertian lambertian => exact ⟨rfl, rfl, rfl, rfl, rfl, h, rfl, fun _ => ⟨rfl, rfl, rfl⟩⟩

@[simp] theorem draw_opacity (a : Arithmetic M N) (camera : Camera M) (drawable : OpaqueDrawable)
    (transformationMatrix : M) (u : Uniforms M N) :
    (draw a camera drawable transformationMatrix u).opacity = u.opacity := by
  unfold draw
  cases drawable.shading <;> rfl

end GVS.Shader
