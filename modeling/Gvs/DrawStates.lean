import Gvs.VertexLayout
import Gvs.GuardedRuns

/-!
# What a mesh draws

The draw state of a package: its element count, its index binding with the
indices, its vertex buffer and where each attribute is bound. Loading a
geometry changes only the bindings of what the geometry has, so that what an
earlier geometry bound, and a later one lacks, stays bound.
-/

set_option autoImplicit false

namespace GVS.DrawStates
open GVS.Proto GVS.ItemDefaults GVS.Vis GVS.VertexLayout GuardedRuns

structure DrawState where
  count : ℕ
  indices : Option (List UInt32)
  vertexBuffer : List Single
  offset : Attribute → Option ℕ

def drawState (package : ObjectMeshPackage) : DrawState where
  count := package.mesh.count
  indices := if package.mesh.indexed then some package.indexBuffer else none
  vertexBuffer := package.vertexBuffer
  offset := offsetOf package.mesh

def freshDraw : DrawState where
  count := 0
  indices := none
  vertexBuffer := []
  offset := fun _ => none

def redraw (d : DrawState) (geometry : GeometryInfo3D) : DrawState where
  count := counted geometry
  indices := if indexList geometry = [] then d.indices else some (indexList geometry)
  vertexBuffer := (parts geometry).flatten
  offset := fun a => ((sent geometry a).map fun _ => 4 * begins geometry a).or (d.offset a)

def redrawn (info : SceneItemInfo) (d : DrawState) : DrawState :=
  match info.geometryInfo with
  | none => d
  | some geometry => redraw d geometry

theorem drawState_newPackage (s : OpenGLScene) : drawState (newPackage s) = freshDraw := by
  simp only [drawState, newPackage, freshDraw, DrawState.mk.injEq, true_and]
  exact ⟨rfl, funext fun a => by cases a <;> rfl⟩

theorem drawState_loadGeometry (geometry : GeometryInfo3D) (package : ObjectMeshPackage) :
    drawState (loadGeometry geometry package) = redraw (drawState package) geometry := by
  rw [loadGeometry_eq]
  simp only [drawState, redraw, DrawState.mk.injEq, true_and]
  constructor
  · by_cases h : indexList geometry = [] <;> simp [h]
  · ext1 a
    cases a <;> rfl

theorem drawState_updateGeometry (info : SceneItemInfo) (package : ObjectMeshPackage) :
    drawState (updateGeometry info package) = redrawn info (drawState package) := by
  unfold updateGeometry redrawn
  cases info.geometryInfo with
  | none => rfl
  | some geometry => exact drawState_loadGeometry geometry package

theorem drawState_updatePrimitive {info : SceneItemInfo} {package ready : ObjectMeshPackage}
    (h : updatePrimitive info package = .ok ready) : drawState ready = drawState package := by
  unfold updatePrimitive at h
  cases hf : displayFormat info with
  | none =>
    simp only [hf, Except.ok.injEq] at h
    rw [h]
  | some format =>
    rw [hf] at h
    cases hp : fromProto format with
    | error failure => simp [hp, Except.map] at h
    | ok primitive =>
      simp only [hp, Except.map, Except.ok.injEq] at h
      rw [← h]
      simp only [drawState, DrawState.mk.injEq, true_and]
      exact funext fun a => by cases a <;> rfl

section Scenes

theorem setParent_objects (s : OpenGLScene) (o p : ℕ) : (setParent s o p).objects = s.objects := by
  unfold setParent
  split <;> rfl

theorem setTransformation_objects (s : OpenGLScene) (o : ℕ) (transformation : Option Mat4) :
    (setTransformation s o transformation).objects = s.objects := by
  unfold setTransformation
  split <;> rfl

theorem updateDisplayInfo_objects (s : OpenGLScene) (d : ℕ) (display : DisplayInfo) :
    (updateDisplayInfo s d display).state.objects = s.objects := by
  unfold updateDisplayInfo
  cases s.drawables d with
  | none => rfl
  | some drawable =>
    simp only
    split
    · exact setTransformation_objects s _ _
    · rfl

theorem placeItem_objects (s : OpenGLScene) (info : SceneItemInfo) (package : ObjectMeshPackage) :
    (placeItem s info package).state.objects =
      if (s.objects info.parentValue).isSome then s.objects
      else Function.update s.objects info.idValue none := by
  unfold placeItem
  cases s.objects info.parentValue with
  | none => rfl
  | some parent =>
    cases info.displayInfo with
    | none => simp [setParent_objects]
    | some display => simp [updateDisplayInfo_objects, setParent_objects]

theorem updateItem_other (s : OpenGLScene) (info : SceneItemInfo) {id : String}
    (h : id ≠ info.idValue) : (updateItem s info).state.objects id = s.objects id := by
  unfold updateItem
  cases s.objects info.idValue with
  | none => rfl
  | some package =>
    cases hu : updatePrimitive info (updateGeometry info package) with
    | error failure => simp [hu, setPackage, h]
    | ok ready =>
      simp only [hu, placeItem_objects]
      split <;> simp [setPackage, h]

/-- A package that an update of its item leaves behind was there before, and
has loaded the geometry of the update. -/
theorem updateItem_self {s : OpenGLScene} {info : SceneItemInfo} {ready : ObjectMeshPackage}
    (h : (updateItem s info).state.objects info.idValue = some ready) :
    ∃ package, s.objects info.idValue = some package ∧
      drawState ready = redrawn info (drawState package) := by
  unfold updateItem at h
  cases hp : s.objects info.idValue with
  | none => simp [hp] at h
  | some package =>
    refine ⟨package, rfl, ?_⟩
    rw [← drawState_updateGeometry]
    cases hu : updatePrimitive info (updateGeometry info package) with
    | error failure =>
      simp only [hp, hu, Outcome.state_raised, setPackage, Function.update_self,
        Option.some.injEq] at h
      rw [h]
    | ok placed =>
      simp only [hp, hu, placeItem_objects] at h
      split at h
      · simp only [setPackage, Function.update_self, Option.some.injEq] at h
        rw [← h, drawState_updatePrimitive hu]
      · simp at h

theorem updateItem_kept {s : OpenGLScene} {info : SceneItemInfo}
    (hid : (s.objects info.idValue).isSome) (hparent : (s.objects info.parentValue).isSome) :
    ∃ ready, (updateItem s info).state.objects info.idValue = some ready := by
  unfold updateItem
  obtain ⟨package, hp⟩ := Option.isSome_iff_exists.mp hid
  simp only [hp]
  cases hu : updatePrimitive info (updateGeometry info package) with
  | error failure => simp [setPackage]
  | ok ready =>
    have hknown : ((setPackage s info.idValue ready).objects info.parentValue).isSome := by
      by_cases he : info.parentValue = info.idValue
      · simp [setPackage, he]
      · simpa [setPackage, he] using hparent
    simp only [placeItem_objects, hknown, if_true]
    simp [setPackage]

def draws (s : OpenGLScene) (id : String) : Option DrawState := (s.objects id).map drawState

theorem draws_emplace (s : OpenGLScene) (key k : String) :
    draws (emplace s key) k =
      if k = key ∧ s.objects key = none then some freshDraw else draws s k := by
  unfold draws emplace
  cases hkey : s.objects key with
  | some package => simp [allocatePackage]
  | none =>
    by_cases hk : k = key
    · simp [hk, drawState_newPackage]
    · simp [hk, allocatePackage]

end Scenes

section Runs

/-- An update of the scene, after which the scene goes on whether or not it
raised. -/
def attempt (s : OpenGLScene) (info : SceneItemInfo) : OpenGLScene := (updateItem s info).state

def geometriesOf (id : String) (infos : List SceneItemInfo) : List GeometryInfo3D :=
  infos.filterMap fun info => if info.idValue = id then info.geometryInfo else none

/-- A package still there after any updates has loaded all their geometries. -/
theorem attempts_drawState (infos : List SceneItemInfo) {s : OpenGLScene} {id : String}
    {package : ObjectMeshPackage} (h : (run attempt s infos).objects id = some package) :
    ∃ first, s.objects id = some first ∧
      drawState package = (geometriesOf id infos).foldl redraw (drawState first) := by
  induction infos generalizing s with
  | nil => exact ⟨package, h, rfl⟩
  | cons info infos ih =>
    obtain ⟨next, hnext, hdraw⟩ := ih h
    by_cases hid : info.idValue = id
    · subst hid
      obtain ⟨first, hfirst, hredrawn⟩ := updateItem_self hnext
      refine ⟨first, hfirst, ?_⟩
      rw [hdraw, hredrawn]
      cases hg : info.geometryInfo <;> simp [geometriesOf, redrawn, hg]
    · rw [attempt, updateItem_other s info (Ne.symm hid)] at hnext
      refine ⟨next, hnext, ?_⟩
      rw [hdraw]
      simp [geometriesOf, hid]

theorem offset_isSome (geometries : List GeometryInfo3D) (d : DrawState) (a : Attribute) :
    ((geometries.foldl redraw d).offset a).isSome ↔
      (d.offset a).isSome ∨ ∃ older ∈ geometries, (sent older a).isSome := by
  induction geometries generalizing d with
  | nil => simp
  | cons geometry geometries ih =>
    rw [List.foldl_cons, ih]
    cases hsent : sent geometry a <;> simp [redraw, hsent]

theorem indices_isSome (geometries : List GeometryInfo3D) (d : DrawState) :
    (geometries.foldl redraw d).indices.isSome ↔
      d.indices.isSome ∨ ∃ older ∈ geometries, indexList older ≠ [] := by
  induction geometries generalizing d with
  | nil => simp
  | cons geometry geometries ih =>
    rw [List.foldl_cons, ih]
    by_cases h : indexList geometry = [] <;> simp [redraw, h]

end Runs

section Replacing

structure Covers (older newer : GeometryInfo3D) : Prop where
  attributes : ∀ a, (sent older a).isSome → (sent newer a).isSome
  indices : indexList older ≠ [] → indexList newer ≠ []

def NothingStale (d : DrawState) (geometry : GeometryInfo3D) : Prop :=
  (∀ a, (d.offset a).isSome → (sent geometry a).isSome) ∧
    (d.indices.isSome → indexList geometry ≠ [])

theorem redraw_fresh_iff (d : DrawState) (geometry : GeometryInfo3D) :
    redraw d geometry = redraw freshDraw geometry ↔ NothingStale d geometry := by
  constructor
  · intro h
    constructor
    · intro a hbound
      have ha := congrFun (congrArg DrawState.offset h) a
      cases hsent : sent geometry a with
      | none =>
        simp only [redraw, freshDraw, hsent, Option.map_none, Option.none_or] at ha
        simp [ha] at hbound
      | some list => rfl
    · intro hbound hempty
      have hi := congrArg DrawState.indices h
      simp only [redraw, freshDraw, hempty, if_true] at hi
      simp [hi] at hbound
  · rintro ⟨hattributes, hindices⟩
    simp only [redraw, freshDraw, DrawState.mk.injEq, true_and]
    constructor
    · by_cases hempty : indexList geometry = []
      · have hnone : d.indices = none := by
          rw [← Option.not_isSome_iff_eq_none]
          exact fun hbound => hindices hbound hempty
        simp [hempty, hnone]
      · simp [hempty]
    · ext1 a
      cases hsent : sent geometry a with
      | none =>
        have hnone : d.offset a = none := by
          rw [← Option.not_isSome_iff_eq_none]
          intro hbound
          simpa [hsent] using hattributes a hbound
        simp [hnone]
      | some list => simp

theorem nothingStale_iff (geometries : List GeometryInfo3D) (geometry : GeometryInfo3D) :
    NothingStale (geometries.foldl redraw freshDraw) geometry ↔
      ∀ older ∈ geometries, Covers older geometry := by
  simp only [NothingStale, offset_isSome, indices_isSome, freshDraw, Option.isSome_none,
    Bool.false_eq_true, false_or]
  constructor
  · rintro ⟨hattributes, hindices⟩ older holder
    exact ⟨fun a hsent => hattributes a ⟨older, holder, hsent⟩,
      fun hsent => hindices ⟨older, holder, hsent⟩⟩
  · intro h
    exact ⟨fun a ⟨older, holder, hsent⟩ => (h older holder).attributes a hsent,
      fun ⟨older, holder, hsent⟩ => (h older holder).indices hsent⟩

/-- After any updates of a new package, a geometry draws as in a package of its
own exactly when it binds all that the item's earlier geometries bound. -/
theorem replacing_leaves_nothing (s : OpenGLScene) {id : String} (hfree : s.objects id = none)
    (earlier : List SceneItemInfo) {info : SceneItemInfo} {geometry : GeometryInfo3D}
    (hknown : ((run attempt (emplace s id) earlier).objects id).isSome)
    (hid : info.idValue = id) (hgeometry : info.geometryInfo = some geometry)
    (hparent : ((run attempt (emplace s id) earlier).objects info.parentValue).isSome) :
    ∃ ready, (run attempt (emplace s id) (earlier ++ [info])).objects id = some ready ∧
      (drawState ready = drawState (loadGeometry geometry (newPackage s)) ↔
        ∀ older ∈ geometriesOf id earlier, Covers older geometry) := by
  subst hid
  obtain ⟨package, hpackage⟩ := Option.isSome_iff_exists.mp hknown
  obtain ⟨ready, hready⟩ := updateItem_kept hknown hparent
  refine ⟨ready, by rw [run_append]; exact hready, ?_⟩
  obtain ⟨package', hpackage', hdraw⟩ := updateItem_self hready
  obtain rfl : package = package' := Option.some.inj (hpackage.symm.trans hpackage')
  obtain ⟨first, hfirst, hhistory⟩ := attempts_drawState earlier hpackage
  have hnew : first = newPackage s := by
    simpa [emplace, hfree, eq_comm] using hfirst
  rw [hdraw, hhistory, hnew, redrawn, hgeometry, drawState_loadGeometry, drawState_newPackage,
    redraw_fresh_iff, nothingStale_iff]

def indexedTriangle : GeometryInfo3D :=
  { positions := some [0, 0, 0, one, 0, 0, 0, one, 0]
    indices := some [0, 1, 2] }

def plainTriangle : GeometryInfo3D := { positions := indexedTriangle.positions }

def triangleItem (geometry : GeometryInfo3D) : SceneItemInfo :=
  { id := some ⟨"item"⟩, geometryInfo := some geometry }

theorem indexed_replaces_plain :
    ∃ ready, (run attempt (emplace construct "item")
        ([triangleItem plainTriangle] ++ [triangleItem indexedTriangle])).objects "item" =
          some ready ∧
      (drawState ready = drawState (loadGeometry indexedTriangle (newPackage construct)) ↔
        ∀ older ∈ geometriesOf "item" [triangleItem plainTriangle],
          Covers older indexedTriangle) :=
  @replacing_leaves_nothing construct "item" (by decide) [triangleItem plainTriangle]
    (triangleItem indexedTriangle) indexedTriangle (by decide) rfl rfl (by decide)

/-- The plain triangle is still drawn through the indices of the old one. -/
theorem plain_keeps_indices :
    ∃ ready, (run attempt (emplace construct "item")
        [triangleItem indexedTriangle, triangleItem plainTriangle]).objects "item" = some ready ∧
      (drawState ready).indices = some [0, 1, 2] ∧
      drawState ready ≠ drawState (loadGeometry plainTriangle (newPackage construct)) := by
  obtain ⟨ready, hready⟩ := Option.isSome_iff_exists.mp (show ((run attempt
    (emplace construct "item") [triangleItem indexedTriangle,
      triangleItem plainTriangle]).objects "item").isSome by decide)
  have hkept : ((run attempt (emplace construct "item") [triangleItem indexedTriangle,
      triangleItem plainTriangle]).objects "item").map (fun p => (drawState p).indices) =
        some (some [0, 1, 2]) := by decide
  rw [hready, Option.map_some, Option.some.injEq] at hkept
  refine ⟨ready, hready, hkept, fun h => ?_⟩
  have hfresh : (drawState (loadGeometry plainTriangle (newPackage construct))).indices = none := rfl
  rw [← h, hkept] at hfresh
  exact absurd hfresh (by decide)

end Replacing

end GVS.DrawStates
