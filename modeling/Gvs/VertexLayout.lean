import Gvs.Vis
import Gvs.Slices
import Mathlib.Tactic.Ring

/-!
# Layout of the vertex buffer

The attributes of `general_shader_3d.hpp` and where `update_item` binds them.
`compute` repeats its arithmetic on `int` and `GLintptr`, none on overflow,
and `encodedSize` is the wire size of the geometry: four bytes a packed float.
The layout is exact for every geometry but for the index buffer of an earlier
one, which stays bound.
-/

set_option autoImplicit false

namespace GVS.VertexLayout
open GVS.Proto GVS.ItemDefaults GVS.Vis

inductive Attribute where
  | position
  | normal
  | textureCoordinate
  | vertexColor
  deriving DecidableEq, Repr

instance : Fintype Attribute :=
  ⟨{.position, .normal, .textureCoordinate, .vertexColor}, fun a => by cases a <;> decide⟩

def Attribute.components : Attribute → ℕ
  | .position => 3
  | .normal => 3
  | .textureCoordinate => 2
  | .vertexColor => 3

def Attribute.place : Attribute → ℕ
  | .position => 0
  | .normal => 1
  | .textureCoordinate => 2
  | .vertexColor => 3

def sent (geometry : GeometryInfo3D) : Attribute → Option (List Single)
  | .position => geometry.positions
  | .normal => geometry.normals
  | .textureCoordinate => geometry.texCoords
  | .vertexColor => geometry.vertexColors

def floats (geometry : GeometryInfo3D) (a : Attribute) : List Single := (sent geometry a).getD []

def parts (geometry : GeometryInfo3D) : List (List Single) :=
  [floats geometry .position, floats geometry .normal, floats geometry .textureCoordinate,
    floats geometry .vertexColor]

def begins (geometry : GeometryInfo3D) (a : Attribute) : ℕ := Slices.start (parts geometry) a.place

def offsetOf (mesh : Mesh) : Attribute → Option ℕ
  | .position => mesh.position
  | .normal => mesh.normal
  | .textureCoordinate => mesh.textureCoordinate
  | .vertexColor => mesh.vertexColor

def indexList (geometry : GeometryInfo3D) : List UInt32 := geometry.indices.getD []

def drawn (package : ObjectMeshPackage) : List ℕ :=
  if package.mesh.indexed then
    (package.indexBuffer.take package.mesh.count).map UInt32.toNat
  else List.range package.mesh.count

/-- The floats of a vertex, read with the attribute's size as the stride. A
float starts at a multiple of four bytes. -/
def fetch (buffer : List Single) (offset components vertex : ℕ) : Option (List Single) :=
  let byte := offset + vertex * (4 * components)
  if byte % 4 = 0 then some (Slices.tupleAt buffer (byte / 4) components) else none

section Machine

def word (bits : ℕ) (value : ℤ) : Option ℤ :=
  if -2 ^ (bits - 1) ≤ value ∧ value < 2 ^ (bits - 1) then some value else none

def asInt (value : ℤ) : Option ℤ := word 32 value

def asGLintptr (value : ℤ) : Option ℤ := word 64 value

structure Registers where
  offset : ℤ := 0
  count : ℤ := 0
  bound : List (Attribute × ℤ) := []
  deriving DecidableEq, Repr

def advance (values : List Single) (r : Registers) : Option Registers := do
  let size ← asInt values.length
  let bytes ← asInt (size * 4)
  let offset ← asGLintptr (r.offset + bytes)
  some { r with offset }

def bindAttribute (a : Attribute) (r : Registers) : Registers :=
  { r with bound := r.bound ++ [(a, r.offset)] }

def computePositions (list : Option (List Single)) (r : Registers) : Option Registers :=
  match list with
  | none => some r
  | some positions => do
    let size ← asInt positions.length
    advance positions (bindAttribute .position { r with count := size / 3 })

def computeAttribute (a : Attribute) (list : Option (List Single)) (r : Registers) :
    Option Registers :=
  match list with
  | none => some r
  | some values => advance values (bindAttribute a r)

/-- The last attribute leaves the offset as it is. -/
def computeVertexColors (list : Option (List Single)) (r : Registers) : Option Registers :=
  match list with
  | none => some r
  | some _ => some (bindAttribute .vertexColor r)

def computeIndices (list : Option (List UInt32)) (r : Registers) : Option Registers :=
  match list with
  | none | some [] => some r
  | some (index::indices) => do
    let count ← asInt (index::indices).length
    some { r with count }

def compute (geometry : GeometryInfo3D) : Option Registers := do
  let r ← computePositions geometry.positions {}
  let r ← computeAttribute .normal geometry.normals r
  let r ← computeAttribute .textureCoordinate geometry.texCoords r
  let r ← computeVertexColors geometry.vertexColors r
  computeIndices geometry.indices r

end Machine

section Wire

def varintSize (n : ℕ) : ℕ := n.log2 / 7 + 1

def delimited (size : ℕ) : ℕ := 1 + varintSize size + size

/-- A packed repeated field; an empty one is not written. -/
def packed (size : ℕ) : ℕ := if size = 0 then 0 else delimited size

def floatListSize (values : List Single) : ℕ := packed (4 * values.length)

def uintListSize (values : List UInt32) : ℕ :=
  packed (values.map fun value => varintSize value.toNat).sum

def messageSize (size : Option ℕ) : ℕ := (size.map delimited).getD 0

def encodedSize (geometry : GeometryInfo3D) : ℕ :=
  messageSize (geometry.positions.map floatListSize) +
    messageSize (geometry.normals.map floatListSize) +
    messageSize (geometry.texCoords.map floatListSize) +
    messageSize (geometry.vertexColors.map floatListSize) +
    messageSize (geometry.indices.map uintListSize)

theorem le_packed (size : ℕ) : size ≤ packed size := by
  unfold packed delimited
  split <;> omega

theorem le_messageSize (size : ℕ) : size ≤ messageSize (some size) := by
  simp only [messageSize, delimited, Option.map_some, Option.getD_some]
  omega

theorem floats_size (list : Option (List Single)) :
    4 * (list.getD []).length ≤ messageSize (list.map floatListSize) := by
  cases list with
  | none => simp
  | some values => exact (le_packed _).trans (le_messageSize _)

theorem varints_size (values : List UInt32) :
    values.length ≤ (values.map fun value => varintSize value.toNat).sum := by
  induction values with
  | nil => simp
  | cons value values ih =>
    have hvalue : 1 ≤ varintSize value.toNat := Nat.le_add_left _ _
    simp only [List.length_cons, List.map_cons, List.sum_cons]
    omega

theorem indices_size (list : Option (List UInt32)) :
    (list.getD []).length ≤ messageSize (list.map uintListSize) := by
  cases list with
  | none => simp
  | some values =>
    exact (varints_size values).trans ((le_packed _).trans (le_messageSize _))

/-- What the wire limit says about the lists of the geometry. -/
theorem sizes_le (geometry : GeometryInfo3D) :
    4 * (floats geometry .position).length + 4 * (floats geometry .normal).length +
      4 * (floats geometry .textureCoordinate).length + 4 * (floats geometry .vertexColor).length +
      (indexList geometry).length ≤ encodedSize geometry := by
  have hp := floats_size geometry.positions
  have hn := floats_size geometry.normals
  have ht := floats_size geometry.texCoords
  have hv := floats_size geometry.vertexColors
  have hi := indices_size geometry.indices
  simp only [floats, sent, indexList, encodedSize]
  omega

end Wire

section Loaded

theorem begins_eq (geometry : GeometryInfo3D) (a : Attribute) :
    begins geometry a = match a with
      | .position => 0
      | .normal => (floats geometry .position).length
      | .textureCoordinate => (floats geometry .position).length + (floats geometry .normal).length
      | .vertexColor => (floats geometry .position).length + (floats geometry .normal).length +
          (floats geometry .textureCoordinate).length := by
  cases a <;> simp [begins, parts, Slices.start, Attribute.place, Nat.add_assoc]

theorem parts_place (geometry : GeometryInfo3D) (a : Attribute) :
    (parts geometry).getD a.place [] = floats geometry a := by
  cases a <;> rfl

def counted (geometry : GeometryInfo3D) : ℕ :=
  if indexList geometry = [] then (floats geometry .position).length / 3
  else (indexList geometry).length

def boundAt (geometry : GeometryInfo3D) (mesh : Mesh) (a : Attribute) : Option ℕ :=
  ((sent geometry a).map fun _ => 4 * begins geometry a).or (offsetOf mesh a)

theorem loadIndices_eq (list : Option (List UInt32)) (package : ObjectMeshPackage) :
    loadIndices list package =
      if list.getD [] = [] then package
      else
        { package with
          indexBuffer := list.getD []
          mesh := { package.mesh with count := (list.getD []).length, indexed := true } } := by
  obtain _ | _ | ⟨index, indices⟩ := list <;> simp [loadIndices]

theorem loadPositions_eq (list : Option (List Single)) (mesh : Mesh) :
    loadPositions list { mesh := { mesh with count := 0 } } =
      { bufferData := list.getD []
        offset := 4 * (list.getD []).length
        mesh :=
          { mesh with
            count := (list.getD []).length / 3
            position := (list.map fun _ => 0).or mesh.position } } := by
  cases list with
  | none => simp [loadPositions]
  | some positions => simp [loadPositions, Nat.mul_comm 4]

theorem loadNormals_eq (list : Option (List Single)) (l : Loading) :
    loadNormals list l =
      { bufferData := l.bufferData ++ list.getD []
        offset := l.offset + 4 * (list.getD []).length
        mesh := { l.mesh with normal := (list.map fun _ => l.offset).or l.mesh.normal } } := by
  cases list with
  | none => simp [loadNormals]
  | some normals => simp [loadNormals, Nat.mul_comm 4]

theorem loadTexCoords_eq (list : Option (List Single)) (l : Loading) :
    loadTexCoords list l =
      { bufferData := l.bufferData ++ list.getD []
        offset := l.offset + 4 * (list.getD []).length
        mesh :=
          { l.mesh with
            textureCoordinate := (list.map fun _ => l.offset).or l.mesh.textureCoordinate } } := by
  cases list with
  | none => simp [loadTexCoords]
  | some texCoords => simp [loadTexCoords, Nat.mul_comm 4]

theorem loadVertexColors_eq (list : Option (List Single)) (l : Loading) :
    loadVertexColors list l =
      { l with
        bufferData := l.bufferData ++ list.getD []
        mesh := { l.mesh with vertexColor := (list.map fun _ => l.offset).or l.mesh.vertexColor } } := by
  cases list with
  | none => simp [loadVertexColors]
  | some vertexColors => simp [loadVertexColors]

/-- The package after its geometry is loaded, as one record. -/
theorem loadGeometry_eq (geometry : GeometryInfo3D) (package : ObjectMeshPackage) :
    loadGeometry geometry package =
      { package with
        indexBuffer := if indexList geometry = [] then package.indexBuffer else indexList geometry
        vertexBuffer := (parts geometry).flatten
        mesh :=
          { count := counted geometry
            primitive := package.mesh.primitive
            position := boundAt geometry package.mesh .position
            normal := boundAt geometry package.mesh .normal
            textureCoordinate := boundAt geometry package.mesh .textureCoordinate
            vertexColor := boundAt geometry package.mesh .vertexColor
            indexed := !(indexList geometry).isEmpty || package.mesh.indexed } } := by
  rw [loadGeometry, loadPositions_eq, loadNormals_eq, loadTexCoords_eq, loadVertexColors_eq,
    loadIndices_eq]
  by_cases h : geometry.indices.getD [] = []
  · simp [h, indexList, counted, boundAt, parts, floats, sent, offsetOf, begins_eq, Nat.mul_add]
  · simp [h, indexList, counted, boundAt, parts, floats, sent, offsetOf, begins_eq, Nat.mul_add]

end Loaded

section Computed

theorem word_eq {bits : ℕ} {value : ℤ} (hlow : -2 ^ (bits - 1) ≤ value)
    (hhigh : value < 2 ^ (bits - 1)) : word bits value = some value := if_pos ⟨hlow, hhigh⟩

theorem asInt_eq {value : ℤ} (hlow : 0 ≤ value) (hhigh : value < 2147483648) :
    asInt value = some value := by
  apply word_eq
  · norm_num
    omega
  · norm_num
    omega

theorem asGLintptr_eq {value : ℤ} (hlow : 0 ≤ value) (hhigh : value < 2147483648) :
    asGLintptr value = some value := by
  apply word_eq
  · norm_num
    omega
  · norm_num
    omega

theorem advance_eq {values : List Single} {r : Registers} (hlow : 0 ≤ r.offset)
    (hhigh : r.offset + 4 * values.length < 2147483648) :
    advance values r = some { r with offset := r.offset + 4 * values.length } := by
  have hsize : asInt values.length = some (values.length : ℤ) := asInt_eq (by omega) (by omega)
  have hbytes : asInt (values.length * 4 : ℤ) = some (values.length * 4 : ℤ) :=
    asInt_eq (by omega) (by omega)
  have hoffset : asGLintptr (r.offset + values.length * 4) =
      some (r.offset + values.length * 4) := asGLintptr_eq (by omega) (by omega)
  simp only [advance, Option.bind_eq_bind]
  rw [hsize, Option.bind_some, hbytes, Option.bind_some, hoffset, Option.bind_some, mul_comm (4 : ℤ)]

theorem computePositions_eq {list : Option (List Single)}
    (h : 4 * ((list.getD []).length : ℤ) < 2147483648) :
    computePositions list {} =
      some
        { offset := 4 * (list.getD []).length
          count := (list.getD []).length / 3
          bound := (list.map fun _ => (.position, 0)).toList } := by
  cases list with
  | none => rfl
  | some positions =>
    simp only [Option.getD_some] at h
    have hsize : asInt positions.length = some (positions.length : ℤ) :=
      asInt_eq (by omega) (by omega)
    simp only [computePositions, Option.bind_eq_bind]
    rw [hsize, Option.bind_some]
    have hstart : (bindAttribute .position
        { count := (positions.length : ℤ) / 3 : Registers }).offset = 0 := rfl
    rw [advance_eq hstart.ge (by rw [hstart, Int.zero_add]; exact h), hstart, Int.zero_add]
    rfl

theorem computeAttribute_eq (a : Attribute) {list : Option (List Single)} {r : Registers}
    (hlow : 0 ≤ r.offset) (hhigh : r.offset + 4 * (list.getD []).length < 2147483648) :
    computeAttribute a list r =
      some
        { r with
          offset := r.offset + 4 * (list.getD []).length
          bound := r.bound ++ (list.map fun _ => (a, r.offset)).toList } := by
  cases list with
  | none => simp [computeAttribute]
  | some values =>
    rw [computeAttribute, advance_eq (by exact hlow) (by exact hhigh)]
    simp [bindAttribute]

theorem computeVertexColors_eq (list : Option (List Single)) (r : Registers) :
    computeVertexColors list r =
      some { r with bound := r.bound ++ (list.map fun _ => (.vertexColor, r.offset)).toList } := by
  cases list with
  | none => simp [computeVertexColors]
  | some values => simp [computeVertexColors, bindAttribute]

theorem computeIndices_eq {list : Option (List UInt32)} (r : Registers)
    (h : ((list.getD []).length : ℤ) < 2147483648) :
    computeIndices list r =
      some { r with count := if list.getD [] = [] then r.count else (list.getD []).length } := by
  obtain _ | _ | ⟨index, indices⟩ := list
  · simp [computeIndices]
  · simp [computeIndices]
  · rw [computeIndices, asInt_eq (Int.natCast_nonneg _) (by exact h)]
    rfl

def calls (geometry : GeometryInfo3D) : List (Attribute × ℤ) :=
  ([.position, .normal, .textureCoordinate, .vertexColor] : List Attribute).flatMap fun a =>
    ((sent geometry a).map fun _ => (a, 4 * (begins geometry a : ℤ))).toList

theorem mem_calls (geometry : GeometryInfo3D) (a : Attribute) (offset : ℤ) :
    (a, offset) ∈ calls geometry ↔
      (sent geometry a).isSome ∧ offset = 4 * (begins geometry a : ℤ) := by
  simp only [calls, List.mem_flatMap, Option.mem_toList, Option.map_eq_some_iff]
  constructor
  · rintro ⟨b, -, list, hlist, hpair⟩
    obtain ⟨rfl, rfl⟩ := Prod.mk.injEq .. ▸ hpair
    exact ⟨by rw [hlist]; rfl, rfl⟩
  · rintro ⟨hsent, rfl⟩
    obtain ⟨list, hlist⟩ := Option.isSome_iff_exists.mp hsent
    exact ⟨a, by cases a <;> simp, list, hlist, rfl⟩

/-- Within the wire limit no step of the arithmetic overflows. -/
theorem compute_eq {geometry : GeometryInfo3D} (h : encodedSize geometry ≤ 2 ^ 31 - 1) :
    compute geometry =
      some
        { offset := 4 * begins geometry .vertexColor
          count := counted geometry
          bound := calls geometry } := by
  have hsizes := sizes_le geometry
  norm_num only at h
  simp only [floats, sent, indexList] at hsizes
  simp only [compute, Option.bind_eq_bind]
  rw [computePositions_eq (by omega), Option.bind_some,
    computeAttribute_eq .normal (by simp only; omega) (by simp only; omega), Option.bind_some,
    computeAttribute_eq .textureCoordinate (by simp only; omega) (by simp only; omega),
    Option.bind_some, computeVertexColors_eq, Option.bind_some, computeIndices_eq _ (by omega)]
  by_cases hindices : geometry.indices.getD [] = []
  · simp [hindices, calls, counted, indexList, begins_eq, floats, sent, mul_add]
  · simp [hindices, calls, counted, indexList, begins_eq, floats, sent, mul_add]

end Computed

section Layout

def slice (geometry : GeometryInfo3D) (a : Attribute) : Set ℕ :=
  Set.Ico (begins geometry a) (begins geometry a + (floats geometry a).length)

def reads (offset components vertex : ℕ) : Set ℕ :=
  Set.Ico ((offset + vertex * (4 * components)) / 4)
    ((offset + vertex * (4 * components)) / 4 + components)

def Describes (geometry : GeometryInfo3D) (n : ℕ) : Prop :=
  ∀ a, (sent geometry a).isSome → (floats geometry a).length = a.components * n

structure Exact (geometry : GeometryInfo3D) (loaded : ObjectMeshPackage) : Prop where
  computed : ∃ r, compute geometry = some r ∧ r.count = loaded.mesh.count ∧
    ∀ a offset, (a, offset) ∈ r.bound ↔
      (sent geometry a).isSome ∧ offset = 4 * (begins geometry a : ℤ)
  bound : ∀ a, (sent geometry a).isSome →
    offsetOf loaded.mesh a = some (4 * begins geometry a)
  begun : ∀ a, Slices.tupleAt loaded.vertexBuffer (begins geometry a)
    (floats geometry a).length = floats geometry a
  disjoint : ∀ a b, a ≠ b → Disjoint (slice geometry a) (slice geometry b)
  covered : ∀ index, index < loaded.vertexBuffer.length ↔
    ∃ a, (sent geometry a).isSome ∧ index ∈ slice geometry a
  fetched : ∀ a vertex, a.components * (vertex + 1) ≤ (floats geometry a).length →
    fetch loaded.vertexBuffer (4 * begins geometry a) a.components vertex =
      some (Slices.tupleAt (floats geometry a) (a.components * vertex) a.components)
  inside : ∀ n, Describes geometry n → ∀ a, (sent geometry a).isSome → ∀ vertex < n,
    reads (4 * begins geometry a) a.components vertex ⊆ slice geometry a
  counted : ∀ n, Describes geometry n → geometry.positions.isSome → indexList geometry = [] →
    loaded.mesh.count = n ∧ drawn loaded = List.range n

/-- No index buffer is bound when a geometry without indices is loaded, or one
that begins with the vertices in order. -/
def FreeOfIndices (geometry : GeometryInfo3D) (package : ObjectMeshPackage) : Prop :=
  ∀ n, Describes geometry n → geometry.positions.isSome → indexList geometry = [] →
    package.mesh.indexed = true → (package.indexBuffer.take n).map UInt32.toNat = List.range n

theorem slice_eq_places (geometry : GeometryInfo3D) (a : Attribute) :
    slice geometry a = Slices.places (parts geometry) a.place := by
  rw [slice, Slices.places, parts_place, begins]

theorem place_inj {a b : Attribute} (h : a.place = b.place) : a = b := by
  cases a <;> cases b <;> first | rfl | exact absurd h (by decide)

theorem exists_place {k : ℕ} (h : k < 4) : ∃ a : Attribute, a.place = k := by
  match k with
  | 0 => exact ⟨.position, rfl⟩
  | 1 => exact ⟨.normal, rfl⟩
  | 2 => exact ⟨.textureCoordinate, rfl⟩
  | 3 => exact ⟨.vertexColor, rfl⟩

theorem covered_iff (geometry : GeometryInfo3D) (index : ℕ) :
    index < (parts geometry).flatten.length ↔
      ∃ a, (sent geometry a).isSome ∧ index ∈ slice geometry a := by
  rw [← Slices.mem_places_iff]
  constructor
  · rintro ⟨k, hk, hmem⟩
    obtain ⟨a, rfl⟩ := exists_place hk
    rw [← slice_eq_places] at hmem
    refine ⟨a, ?_, hmem⟩
    cases hlist : sent geometry a with
    | none =>
      simp only [slice, floats, hlist, Option.getD_none, List.length_nil, Set.mem_Ico] at hmem
      omega
    | some list => rfl
  · rintro ⟨a, -, hmem⟩
    refine ⟨a.place, by cases a <;> simp [parts, Attribute.place], ?_⟩
    rwa [← slice_eq_places]

theorem byte_eq (start vertex components : ℕ) :
    4 * start + vertex * (4 * components) = 4 * (start + components * vertex) := by ring

theorem fetch_eq {geometry : GeometryInfo3D} {a : Attribute} {vertex : ℕ}
    (h : a.components * (vertex + 1) ≤ (floats geometry a).length) :
    fetch (parts geometry).flatten (4 * begins geometry a) a.components vertex =
      some (Slices.tupleAt (floats geometry a) (a.components * vertex) a.components) := by
  rw [Nat.mul_succ, ← parts_place] at h
  have htuple := Slices.tupleAt_start (parts geometry) h
  rw [parts_place] at htuple
  simp [fetch, byte_eq, begins, htuple]

theorem reads_subset {geometry : GeometryInfo3D} {n : ℕ} {a : Attribute} {vertex : ℕ}
    (hlength : (floats geometry a).length = a.components * n) (hvertex : vertex < n) :
    reads (4 * begins geometry a) a.components vertex ⊆ slice geometry a := by
  have hfit : a.components * vertex + a.components ≤ a.components * n := by
    rw [← Nat.mul_succ]
    exact Nat.mul_le_mul_left _ hvertex
  rw [reads, byte_eq, Nat.mul_div_cancel_left _ (by decide), slice, hlength]
  exact Set.Ico_subset_Ico (by omega) (by omega)

theorem counted_eq {geometry : GeometryInfo3D} {n : ℕ} (h : Describes geometry n)
    (hpositions : geometry.positions.isSome) (hindices : indexList geometry = []) :
    counted geometry = n := by
  rw [counted, if_pos hindices, h .position hpositions, Attribute.components,
    Nat.mul_div_cancel_left n (by decide)]

/-- Nothing unbinds an index buffer: a geometry without indices is drawn
through the one that the package has. -/
theorem drawn_unindexed {geometry : GeometryInfo3D} (h : indexList geometry = [])
    (package : ObjectMeshPackage) :
    drawn (loadGeometry geometry package) =
      if package.mesh.indexed then
        (package.indexBuffer.take (counted geometry)).map UInt32.toNat
      else List.range (counted geometry) := by
  rw [loadGeometry_eq, drawn]
  simp [h]

theorem drawn_range_iff {geometry : GeometryInfo3D} {n : ℕ} (h : indexList geometry = [])
    (hcount : counted geometry = n) (package : ObjectMeshPackage) :
    drawn (loadGeometry geometry package) = List.range n ↔
      (package.mesh.indexed = true →
        (package.indexBuffer.take n).map UInt32.toNat = List.range n) := by
  rw [drawn_unindexed h, hcount]
  cases package.mesh.indexed <;> simp

def segment : GeometryInfo3D :=
  { positions := some [0, 0, 0, one, 0, 0]
    texCoords := some [0, 0, one, one] }

def triangle : GeometryInfo3D :=
  { positions := some [0, 0, 0, one, 0, 0, 0, one, 0]
    indices := some [0, 1, 2, 2, 1, 0] }

def square : GeometryInfo3D :=
  { positions := some [0, 0, 0, one, 0, 0, one, one, 0, 0, one, 0] }

end Layout

end GVS.VertexLayout
