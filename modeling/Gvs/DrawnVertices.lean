import Gvs.Rendering

/-!
# Vertices of a draw call

What the vertex stage is given for a vertex: a tuple of each attribute that a
buffer is bound to, and the initial value of the others, which nothing sets.
A tuple that ends after the buffer leaves the vertex undefined. A mesh that
has loaded a well formed geometry gives the stage the vertices of that
geometry, in the order of its indices where it has some.
-/

set_option autoImplicit false

namespace GVS.DrawnVertices
open GVS.Proto GVS.ItemDefaults GVS.Vis GVS.VertexLayout GVS.DrawStates GVS.Shader GVS.Rendering

section Fetching

def drawnVertices (mesh : DrawState) : List ℕ :=
  match mesh.indices with
  | some indices => (indices.take mesh.count).map UInt32.toNat
  | none => List.range mesh.count

def attributeAt (mesh : DrawState) (a : Attribute) (vertex : ℕ) : Option (List Single) :=
  match mesh.offset a with
  | some offset => fetch mesh.vertexBuffer offset a.components vertex
  | none => some (List.replicate a.components 0)

/-- The stage reads positions of three floats as a `vec4`, whose last float is
then one. -/
def vertexAt (mesh : DrawState) (vertex : ℕ) : Option Vertex :=
  match attributeAt mesh .position vertex, attributeAt mesh .normal vertex,
    attributeAt mesh .textureCoordinate vertex, attributeAt mesh .vertexColor vertex with
  | some [x, y, z], some [nx, ny, nz], some [s, t], some [r, g, b] =>
    some
      { localPosition := (⟨x, y, z⟩, one)
        localNormal := ⟨nx, ny, nz⟩
        textureCoordinates := (s, t)
        vertexColor := ⟨r, g, b⟩ }
  | _, _, _, _ => none

def stageOutputs (call : DrawCall) : List (Option (Varyings × (Vec3 × Single))) :=
  (drawnVertices call.mesh).map fun vertex => (vertexAt call.mesh vertex).map call.vertex

end Fetching

section Loaded

def Formed (geometry : GeometryInfo3D) : Prop :=
  ∃ n, Describes geometry n ∧ ∀ index ∈ indexList geometry, index.toNat < n

def vertexOf (geometry : GeometryInfo3D) (vertex : ℕ) : Vertex :=
  let value := fun a j => (floats geometry a).getD (a.components * vertex + j) 0
  { localPosition := (⟨value .position 0, value .position 1, value .position 2⟩, one)
    localNormal := ⟨value .normal 0, value .normal 1, value .normal 2⟩
    textureCoordinates := (value .textureCoordinate 0, value .textureCoordinate 1)
    vertexColor := ⟨value .vertexColor 0, value .vertexColor 1, value .vertexColor 2⟩ }

def drawingOrder (geometry : GeometryInfo3D) : List ℕ :=
  if indexList geometry = [] then List.range ((floats geometry .position).length / 3)
  else (indexList geometry).map UInt32.toNat

theorem drawnVertices_redraw (geometry : GeometryInfo3D) :
    drawnVertices (redraw freshDraw geometry) = drawingOrder geometry := by
  by_cases h : indexList geometry = []
  · simp [drawnVertices, redraw, freshDraw, drawingOrder, counted, h]
  · simp [drawnVertices, redraw, drawingOrder, counted, h]

theorem attributeAt_redraw {geometry : GeometryInfo3D} {n : ℕ} (h : Describes geometry n)
    (a : Attribute) {vertex : ℕ} (hvertex : vertex < n) :
    attributeAt (redraw freshDraw geometry) a vertex =
      some ((List.range a.components).map fun j =>
        (floats geometry a).getD (a.components * vertex + j) 0) := by
  cases hsent : sent geometry a with
  | none =>
    have hoffset : (redraw freshDraw geometry).offset a = none := by
      simp [redraw, freshDraw, hsent]
    simp only [attributeAt, hoffset, floats, hsent]
    simp
  | some list =>
    have hoffset : (redraw freshDraw geometry).offset a = some (4 * begins geometry a) := by
      simp [redraw, hsent]
    have hfit : a.components * (vertex + 1) ≤ (floats geometry a).length := by
      rw [h a (by rw [hsent]; rfl)]
      exact Nat.mul_le_mul_left _ hvertex
    simp only [attributeAt, hoffset]
    show fetch (parts geometry).flatten _ _ _ = _
    rw [fetch_eq hfit, Slices.tupleAt_eq]
    rwa [Nat.mul_succ] at hfit

theorem vertexAt_redraw {geometry : GeometryInfo3D} {n : ℕ} (h : Describes geometry n)
    {vertex : ℕ} (hvertex : vertex < n) :
    vertexAt (redraw freshDraw geometry) vertex = some (vertexOf geometry vertex) := by
  simp only [vertexAt, attributeAt_redraw h _ hvertex, Attribute.components]
  rfl

theorem drawingOrder_lt {geometry : GeometryInfo3D} {n : ℕ} (h : Describes geometry n)
    (hindices : ∀ index ∈ indexList geometry, index.toNat < n) :
    ∀ vertex ∈ drawingOrder geometry, vertex < n := by
  intro vertex hmem
  unfold drawingOrder at hmem
  split at hmem
  · rw [List.mem_range] at hmem
    cases hpositions : geometry.positions with
    | none => simp [floats, sent, hpositions] at hmem
    | some positions =>
      rwa [h .position (by rw [sent, hpositions]; rfl), Attribute.components,
        Nat.mul_div_cancel_left n (by decide)] at hmem
  · obtain ⟨index, hindex, rfl⟩ := List.mem_map.mp hmem
    exact hindices index hindex

/-- The stage runs on the vertices of the geometry and on no others. -/
theorem stageOutputs_redraw {call : DrawCall} {geometry : GeometryInfo3D}
    (hmesh : call.mesh = redraw freshDraw geometry) (h : Formed geometry) :
    stageOutputs call =
      (drawingOrder geometry).map fun vertex => some (call.vertex (vertexOf geometry vertex)) := by
  obtain ⟨n, hdescribes, hindices⟩ := h
  rw [stageOutputs, hmesh, drawnVertices_redraw]
  apply List.map_congr_left
  intro vertex hmem
  rw [vertexAt_redraw hdescribes (drawingOrder_lt hdescribes hindices vertex hmem)]
  rfl

theorem stageOutputs_fresh {call : DrawCall} (hmesh : call.mesh = freshDraw) :
    stageOutputs call = [] := by
  rw [stageOutputs, hmesh]
  rfl

end Loaded

end GVS.DrawnVertices
