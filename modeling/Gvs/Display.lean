import Gvs.Wiring

/-!
# What the viewer shows

The display state of an item after each operation, and exactly when an
operation returns. On a wired scene an update overlays the display state of
its item with the fields it carries and leaves every other item alone.
-/

set_option autoImplicit false

namespace GVS.Display
open GVS.Proto GVS.ItemDefaults GVS.Vis GVS.SceneBooks GVS.Wiring

def freshDisplay : DisplayState where
  transformation := identity
  coloring := .uniformColor
  uniformColor := ⟨0x3F800000, 0x3F666666, 0x3F333333⟩
  shading := .valueNotSet
  primitive := .points

def primitiveOf : GeometryFormat → Option MeshPrimitive
  | .points => some .points
  | .lines => some .lines
  | .lineStrip => some .lineStrip
  | .triangles => some .triangles
  | .triangleStrip => some .triangleStrip
  | .triangleFan => some .triangleFan
  | .unrecognized _ _ => none

def overlayDisplay (display : DisplayInfo) (shown : DisplayState) : DisplayState where
  transformation := display.transformation.getD shown.transformation
  coloring := display.coloring.getD shown.coloring
  uniformColor := display.uniformColor.getD shown.uniformColor
  shading := display.shading.getD shown.shading
  primitive := (display.geometryFormat.bind primitiveOf).getD shown.primitive

def displayOf (info : SceneItemInfo) : DisplayInfo := info.displayInfo.getD {}

def Loadable (info : SceneItemInfo) : Prop :=
  validFormat info = true ∧ validTransformation (displayOf info) = true

def showPackage (package : ObjectMeshPackage) (object : Object3D) (drawable : OpaqueDrawable) :
    DisplayState where
  transformation := object.transformation
  coloring := drawable.coloring
  uniformColor := drawable.uniformColor
  shading := drawable.shading
  primitive := package.mesh.primitive

theorem displayState_eq {s : OpenGLScene} {id : String} {package : ObjectMeshPackage}
    {object : Object3D} {drawable : OpaqueDrawable} (hp : s.objects id = some package)
    (ho : s.graph package.object = some object)
    (hd : s.drawables package.drawable = some drawable) :
    displayState s id = some (showPackage package object drawable) := by
  simp [displayState, hp, ho, hd, showPackage]

theorem displayState_none {s : OpenGLScene} {id : String} (h : s.objects id = none) :
    displayState s id = none := by simp [displayState, h]

theorem package_parts {s : OpenGLScene} (hs : Wired (books s)) {id : String}
    {package : ObjectMeshPackage} (hp : s.objects id = some package) :
    ∃ object drawable, s.graph package.object = some object ∧
      s.drawables package.drawable = some drawable ∧ drawable.object = package.object := by
  have hb : (books s).packages id = some (handles package) := by simp [books, hp]
  have ho := hs.object_live id _ hb
  have ha := hs.attached id _ hb
  simp only [books, handles, Option.isSome_map] at ho
  obtain ⟨object, ho⟩ := Option.isSome_iff_exists.mp ho
  simp only [books, handles, Option.map_eq_some_iff] at ha
  obtain ⟨drawable, hd, ha⟩ := ha
  exact ⟨object, drawable, ho, hd, congrArg Attachment.object ha⟩

theorem displayState_isSome {s : OpenGLScene} (hs : Wired (books s)) (id : String) :
    (displayState s id).isSome = (s.objects id).isSome := by
  cases hp : s.objects id with
  | none => rw [displayState_none hp]; rfl
  | some package =>
    obtain ⟨object, drawable, ho, hd, -⟩ := package_parts hs hp
    rw [displayState_eq hp ho hd]
    rfl

theorem displayState_eq_none {s : OpenGLScene} (hs : Wired (books s)) (id : String) :
    displayState s id = none ↔ s.objects id = none := by
  rw [← Option.not_isSome_iff_eq_none, ← Option.not_isSome_iff_eq_none, displayState_isSome hs]

theorem packages_apart {s : OpenGLScene} (hs : Wired (books s)) {id id' : String}
    {package package' : ObjectMeshPackage} (hp : s.objects id = some package)
    (hp' : s.objects id' = some package') (hne : id ≠ id') :
    package.object ≠ package'.object ∧ package.drawable ≠ package'.drawable := by
  have hb : (books s).packages id = some (handles package) := by simp [books, hp]
  have hb' : (books s).packages id' = some (handles package') := by simp [books, hp']
  exact ⟨fun h => hne (hs.object_inj id id' _ _ hb hb' h),
    fun h => hne (hs.drawable_inj hb hb' h)⟩

theorem displayState_setParent (s : OpenGLScene) (o p : ℕ) (id : String) :
    displayState (setParent s o p) id = displayState s id := by
  unfold setParent
  split
  · rfl
  · simp only [displayState]
    cases s.objects id with
    | none => rfl
    | some package =>
      by_cases ho : package.object = o
      · subst ho
        cases hg : s.graph package.object <;> simp [hg]
      · simp [ho]

theorem displayState_setPackage {s : OpenGLScene} {id : String}
    {package new : ObjectMeshPackage} (hp : s.objects id = some package)
    (hh : handles new = handles package) (k : String) :
    displayState (setPackage s id new) k =
      if k = id then (displayState s k).map
        (fun shown => { shown with primitive := new.mesh.primitive })
      else displayState s k := by
  have ho : new.object = package.object := congrArg Handles.object hh
  have hd : new.drawable = package.drawable := congrArg Handles.drawable hh
  by_cases hk : k = id
  · subst hk
    simp only [displayState, setPackage, Function.update_self, hp, Option.bind_some, ho, hd, if_true]
    cases s.graph package.object with
    | none => rfl
    | some object => cases s.drawables package.drawable <;> rfl
  · simp [displayState, setPackage, hk]

theorem displayState_updateDisplayInfo {s s' : OpenGLScene} (hs : Wired (books s)) {id : String}
    {package : ObjectMeshPackage} (hp : s.objects id = some package) (display : DisplayInfo)
    (h : updateDisplayInfo s package.drawable display = .done s') (k : String) :
    displayState s' k =
      if k = id then (displayState s k).map
        (fun shown => { overlayDisplay display shown with primitive := shown.primitive })
      else displayState s k := by
  obtain ⟨object, drawable, ho, hd, hobj⟩ := package_parts hs hp
  simp only [updateDisplayInfo, hd] at h
  split at h
  · cases h
    cases hk : s.objects k with
    | none =>
      have hk' : k ≠ id := fun he => by simp [he, hp] at hk
      cases ht : display.transformation <;>
        simp [displayState, setTransformation, hk, hk']
    | some other =>
      obtain ⟨object', drawable', ho', hd', -⟩ := package_parts hs hk
      by_cases he : k = id
      · subst he
        obtain rfl : package = other := Option.some.inj (hp.symm.trans hk)
        cases ht : display.transformation <;>
          simp [displayState, setTransformation, hp, ho, hd, ht, hobj, updateDrawable,
            overlayDisplay]
      · obtain ⟨hoo, hdd⟩ := packages_apart hs hk hp he
        cases ht : display.transformation <;>
          simp [displayState, setTransformation, hk, ho', hd', hobj, he, hoo, hdd]
  · cases h

theorem displayState_emplace {s : OpenGLScene} (hs : Wired (books s)) (key k : String) :
    displayState (emplace s key) k =
      if k = key ∧ s.objects key = none then some freshDisplay else displayState s k := by
  have hold : ∀ (f : String → Option ObjectMeshPackage) (package : ObjectMeshPackage),
      s.objects k = some package → f k = some package →
      displayState { allocatePackage s with objects := f } k = displayState s k := by
    intro f package hp hf
    obtain ⟨object, drawable, ho, hd, -⟩ := package_parts hs hp
    have hlt := hs.node_lt package.object (by simp [books, ho])
    have hlt' := hs.drawable_lt package.drawable ⟨drawable.object, drawable.mesh⟩
      (by simp [books, hd])
    have hne : package.object ≠ s.next := Nat.ne_of_lt hlt
    have hne' : package.drawable ≠ s.next + 2 := by
      change package.drawable < s.next at hlt'
      omega
    simp [displayState, allocatePackage, hf, hp, hne, hne']
  have hkeep : ∀ f : String → Option ObjectMeshPackage, f k = s.objects k →
      displayState { allocatePackage s with objects := f } k = displayState s k := by
    intro f hf
    cases hk : s.objects k with
    | none => rw [displayState_none hk, displayState_none (by rw [← hk, ← hf])]
    | some package => exact hold f package hk (by rw [hf, hk])
  unfold emplace
  cases hkey : s.objects key with
  | some package =>
    simp only [Option.isSome_some, if_true, reduceCtorEq, and_false, if_false]
    exact hkeep s.objects rfl
  | none =>
    simp only [Option.isSome_none, Bool.false_eq_true, if_false, and_true]
    by_cases hk : k = key
    · subst hk
      simp [displayState, allocatePackage, newPackage, freshDisplay]
    · rw [if_neg hk]
      exact hkeep _ (by simp [hk])

theorem updatePrimitive_shown {info : SceneItemInfo} {package ready : ObjectMeshPackage}
    (h : updatePrimitive info package = .ok ready) :
    ready.mesh.primitive =
      ((displayOf info).geometryFormat.bind primitiveOf).getD package.mesh.primitive := by
  unfold updatePrimitive displayFormat at h
  cases hd : info.displayInfo with
  | none =>
    simp only [hd, Option.bind_none, Except.ok.injEq] at h
    simp [displayOf, hd, h]
  | some display =>
    cases hf : display.geometryFormat with
    | none =>
      simp only [hd, hf, Option.bind_some, Except.ok.injEq] at h
      simp [displayOf, hd, hf, h]
    | some format =>
      cases format <;> simp [hd, hf, fromProto, Except.map] at h <;>
        simp [displayOf, hd, hf, primitiveOf, ← h]

theorem loadIndices_primitive (list : Option (List UInt32)) (package : ObjectMeshPackage) :
    (loadIndices list package).mesh.primitive = package.mesh.primitive := by
  rcases list with _ | _ | _ <;> rfl

theorem updateGeometry_primitive (info : SceneItemInfo) (package : ObjectMeshPackage) :
    (updateGeometry info package).mesh.primitive = package.mesh.primitive := by
  unfold updateGeometry
  cases info.geometryInfo with
  | none => rfl
  | some geometry =>
    rcases geometry with ⟨_ | _, _ | _, _ | _, _ | _, i⟩ <;>
      exact loadIndices_primitive i _

/-- Placing a filled package keeps what is shown, but for the primitive. -/
theorem displayState_placed {s : OpenGLScene} (hs : Wired (books s)) {info : SceneItemInfo}
    {package ready : ObjectMeshPackage} (hid : s.objects info.idValue = some package)
    (hprimitive : updatePrimitive info (updateGeometry info package) = .ok ready)
    (parent : ObjectMeshPackage) (k : String) :
    displayState (placed s info ready parent) k =
      if k = info.idValue then (displayState s k).map fun shown =>
        { shown with
          primitive := ((displayOf info).geometryFormat.bind primitiveOf).getD shown.primitive }
      else displayState s k := by
  have hhandles := (updatePrimitive_ok hprimitive).2.trans (updateGeometry_handles info package)
  have hready : ready.mesh.primitive =
      ((displayOf info).geometryFormat.bind primitiveOf).getD package.mesh.primitive := by
    rw [updatePrimitive_shown hprimitive, updateGeometry_primitive]
  rw [placed, displayState_setParent, displayState_setPackage hid hhandles]
  by_cases hk : k = info.idValue
  · subst hk
    obtain ⟨object, drawable, hobject, hdrawable, -⟩ := package_parts hs hid
    simp [displayState_eq hid hobject hdrawable, showPackage, hready]
  · simp [hk]

theorem wired_placed {s : OpenGLScene} (hs : Wired (books s)) {info : SceneItemInfo}
    {package ready parent : ObjectMeshPackage} (hid : s.objects info.idValue = some package)
    (hprimitive : updatePrimitive info (updateGeometry info package) = .ok ready)
    (hparent : (setPackage s info.idValue ready).objects info.parentValue = some parent) :
    Wired (books (placed s info ready parent)) ∧
      (placed s info ready parent).objects info.idValue = some ready := by
  have hhandles := (updatePrimitive_ok hprimitive).2.trans (updateGeometry_handles info package)
  have hw : Wired (books (setPackage s info.idValue ready)) := by
    rw [books_setPackage s hid hhandles]
    exact hs
  have hready : (setPackage s info.idValue ready).objects info.idValue = some ready := by
    simp [setPackage]
  constructor
  · rw [placed, books_setParent]
    exact wired_setParent hw
      (hw.object_live info.idValue (handles ready) (by simp [books, hready]))
      (hw.object_live info.parentValue (handles parent) (by simp [books, hparent]))
  · unfold placed setParent
    split <;> exact hready

/-- An update returns exactly when its id and its parent are known and its
payload is loadable. -/
theorem updateItem_returns {s : OpenGLScene} (hs : Wired (books s)) (info : SceneItemInfo) :
    (Vis.updateItem s info).Returns ↔
      (s.objects info.idValue).isSome ∧ (s.objects info.parentValue).isSome ∧ Loadable info := by
  have hupdate := updateItem_updated s info
  generalize Vis.updateItem s info = o at hupdate ⊢
  unfold Loadable
  cases hupdate with
  | unknown hid => simp [hid]
  | invalid hid hprimitive => simp [updatePrimitive_error hprimitive]
  | orphan hid hprimitive hparent => simp [hparent]
  | @bare package ready parent hid hprimitive hparent hdisplay =>
    have hknown := setPackage_known hid ready info.parentValue
    rw [hparent] at hknown
    simp [hid, ← hknown, (updatePrimitive_ok hprimitive).1, displayOf, hdisplay,
      validTransformation]
  | @displayed package ready parent display _ hid hprimitive hparent hdisplay ho =>
    have hknown := setPackage_known hid ready info.parentValue
    rw [hparent] at hknown
    obtain ⟨hw, hready⟩ := wired_placed hs hid hprimitive hparent
    obtain ⟨object, drawable, -, hdrawable, -⟩ := package_parts hw hready
    rw [← ho]
    cases hvalid : validTransformation display <;>
      simp [updateDisplayInfo, hdrawable, hvalid, hid, ← hknown,
        (updatePrimitive_ok hprimitive).1, displayOf, hdisplay]

theorem updateItem_shown {s s' : OpenGLScene} (hs : Wired (books s)) {info : SceneItemInfo}
    (h : Vis.updateItem s info = .done s') (k : String) :
    displayState s' k =
      if k = info.idValue then (displayState s k).map (overlayDisplay (displayOf info))
      else displayState s k := by
  have hupdate := updateItem_updated s info
  rw [h] at hupdate
  cases hupdate with
  | bare hid hprimitive hparent hdisplay =>
    have hempty : displayOf info = {} := by rw [displayOf, hdisplay, Option.getD_none]
    rw [displayState_placed hs hid hprimitive, hempty]
    cases displayState s k <;> rfl
  | @displayed package ready parent display _ hid hprimitive hparent hdisplay ho =>
    obtain ⟨hw, hready⟩ := wired_placed hs hid hprimitive hparent
    rw [displayState_updateDisplayInfo hw hready display ho k, displayState_placed hs hid hprimitive]
    by_cases hk : k = info.idValue
    · subst hk
      cases displayState s info.idValue <;> simp [overlayDisplay, displayOf, hdisplay]
    · simp [hk]

end GVS.Display
