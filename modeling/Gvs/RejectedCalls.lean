import Gvs.ResetOrder

/-!
# What a throwing call leaves behind

A call can throw after it has changed the scene: an addition has made its
object, a reset its new root, and an update has loaded the geometry, or has
erased the key of an item that it was not the one to add. Only an update that
throws at its first look into the map, or that repeats the geometry its item
has loaded, leaves the scene as it was.
-/

set_option autoImplicit false

namespace GVS.RejectedCalls
open GVS.Proto GVS.Vis GVS.SceneBooks GVS.Wiring GVS.Links GVS.Bookkeeping GVS.VertexLayout
open GVS.DrawStates GVS.ResetOrder GuardedRuns

def Thrown : Failure → Prop
  | .outOfRange | .invalidArgument _ => True
  | .assertion _ => False

structure Unchanged (s s' : OpenGLScene) : Prop where
  objects : s'.objects = s.objects
  graph : s'.graph = s.graph
  drawables : s'.drawables = s.drawables
  root : s'.rootObject = s.rootObject

structure AlreadyLoaded (geometry : GeometryInfo3D) (package : ObjectMeshPackage) : Prop where
  buffer : package.vertexBuffer = (parts geometry).flatten
  count : package.mesh.count = counted geometry
  bound : ∀ a, (sent geometry a).isSome → offsetOf package.mesh a = some (4 * begins geometry a)
  indices : indexList geometry ≠ [] →
    package.mesh.indexed = true ∧ package.indexBuffer = indexList geometry

/-- The throwing calls that change nothing: updates of unknown items, and
updates with an invalid format whose geometry, if any, is loaded already. -/
def LeavesAlone (s : OpenGLScene) : Call → Prop
  | .updateItem info =>
    match s.objects info.idValue with
    | none => True
    | some package => validFormat info = false ∧
        ∀ geometry, info.geometryInfo = some geometry → AlreadyLoaded geometry package
  | .addItem _ | .reset _ _ => False

theorem boundAt_eq_iff (geometry : GeometryInfo3D) (mesh : Mesh) (a : Attribute) :
    boundAt geometry mesh a = offsetOf mesh a ↔
      ((sent geometry a).isSome → offsetOf mesh a = some (4 * begins geometry a)) := by
  unfold boundAt
  cases sent geometry a with
  | none => simp
  | some list => simp [eq_comm]

theorem loadGeometry_eq_self_iff (geometry : GeometryInfo3D) (package : ObjectMeshPackage) :
    loadGeometry geometry package = package ↔ AlreadyLoaded geometry package := by
  have hbound := boundAt_eq_iff geometry package.mesh
  rw [loadGeometry_eq]
  constructor
  · intro h
    have hmesh := congrArg ObjectMeshPackage.mesh h
    refine ⟨(congrArg ObjectMeshPackage.vertexBuffer h).symm, (congrArg Mesh.count hmesh).symm,
      fun a => (hbound a).mp ?_, fun hindices => ⟨?_, ?_⟩⟩
    · cases a with
      | position => exact congrArg Mesh.position hmesh
      | normal => exact congrArg Mesh.normal hmesh
      | textureCoordinate => exact congrArg Mesh.textureCoordinate hmesh
      | vertexColor => exact congrArg Mesh.vertexColor hmesh
    · have hindexed := congrArg Mesh.indexed hmesh
      simpa [hindices] using hindexed
    · have hbuffer := congrArg ObjectMeshPackage.indexBuffer h
      rw [if_neg hindices] at hbuffer
      exact hbuffer.symm
  · rintro ⟨hbuffer, hcount, hattributes, hindices⟩
    have hall := fun a => (hbound a).mpr (hattributes a)
    rw [hall, hall, hall, hall]
    obtain ⟨address, indexBuffer, vertexBuffer, mesh, object, drawable⟩ := package
    obtain ⟨count, primitive, position, normal, textureCoordinate, vertexColor, indexed⟩ := mesh
    simp only at hbuffer hcount hindices
    subst hbuffer hcount
    by_cases hempty : indexList geometry = []
    · simp [hempty, offsetOf]
    · obtain ⟨rfl, rfl⟩ := hindices hempty
      simp [hempty, offsetOf]

theorem updateGeometry_eq_self_iff (info : SceneItemInfo) (package : ObjectMeshPackage) :
    updateGeometry info package = package ↔
      ∀ geometry, info.geometryInfo = some geometry → AlreadyLoaded geometry package := by
  unfold updateGeometry
  cases info.geometryInfo with
  | none => simp
  | some geometry => simp [loadGeometry_eq_self_iff]

/-- Where an update throws, and what it has changed by then. -/
theorem updateItem_thrown {s s' : OpenGLScene} {info : SceneItemInfo} {failure : Failure}
    (h : Vis.updateItem s info = .raised failure s') (ht : Thrown failure) :
    (s.objects info.idValue = none ∧ s' = s) ∨
      (∃ package, s.objects info.idValue = some package ∧ validFormat info = false ∧
        s' = setPackage s info.idValue (updateGeometry info package)) ∨
      ∃ package, s.objects info.idValue = some package ∧ validFormat info = true ∧
        s'.objects info.idValue = none := by
  have hupdate := updateItem_updated s info
  rw [h] at hupdate
  cases hupdate with
  | unknown hid => exact Or.inl ⟨hid, rfl⟩
  | invalid hid hprimitive =>
    exact Or.inr (Or.inl ⟨_, hid, updatePrimitive_error hprimitive, rfl⟩)
  | orphan hid hprimitive hparent =>
    exact Or.inr (Or.inr ⟨_, hid, (updatePrimitive_ok hprimitive).1, by simp [eraseKey]⟩)
  | @displayed package ready parent display _ hid hprimitive hparent hdisplay ho =>
    rcases updateDisplayInfo_aborts (placed s info ready parent) ready.drawable display with
      hret | ⟨expression, t, ha⟩
    · rw [ho] at hret
      exact absurd hret (Outcome.not_returns_raised failure s')
    · rw [ho, Outcome.raised.injEq] at ha
      rw [ha.1] at ht
      exact ht.elim

theorem updateItem_unchanged_iff {s s' : OpenGLScene} {info : SceneItemInfo} {failure : Failure}
    (h : Vis.updateItem s info = .raised failure s') (ht : Thrown failure) :
    Unchanged s s' ↔ LeavesAlone s (.updateItem info) := by
  unfold LeavesAlone
  rcases updateItem_thrown h ht with ⟨hnone, rfl⟩ | ⟨package, hsome, hv, rfl⟩ |
    ⟨package, hsome, hv, herased⟩
  · exact iff_of_true ⟨rfl, rfl, rfl, rfl⟩ (by simp [hnone])
  · simp only [hsome, hv, true_and]
    rw [← updateGeometry_eq_self_iff]
    constructor
    · intro hsame
      have hid := congrFun hsame.objects info.idValue
      simpa [setPackage, hsome] using hid
    · intro hloaded
      refine ⟨?_, rfl, rfl, rfl⟩
      rw [hloaded]
      exact (Function.update_eq_self_iff ..).mpr hsome.symm
  · simp only [hsome, hv, Bool.true_eq_false, false_and, iff_false]
    intro hsame
    have hid := congrFun hsame.objects info.idValue
    rw [herased, hsome] at hid
    cases hid

section Additions

theorem nodes_updateItem (b : Books) (id parent : String) (valid : Bool) (o : ℕ) :
    ((b.updateItem id parent valid).nodes o).isSome = (b.nodes o).isSome := by
  unfold Books.updateItem
  split
  · rfl
  · split
    · split
      · rfl
      · exact nodes_setParent_live b _ _ o
    · rfl

theorem addItem_allocates {s : OpenGLScene} {info : SceneItemInfo}
    (hg : info.geometryInfo.isSome) :
    ((books (Vis.addItem s info).state).nodes s.next).isSome := by
  rw [Vis.addItem, if_pos hg, books_updateItem, nodes_updateItem, books_emplace]
  simp [Books.emplace, books]

theorem reset_allocates (order : MapOrder) {s : OpenGLScene} (htop : RootOnTop s)
    (items : SceneItems) : ((books (reset order s items).state).nodes s.next).isSome := by
  have hroot : ((books (Vis.freshRoot (erased s))).nodes s.next).isSome := by
    have hnext := erased_next s
    unfold Vis.freshRoot
    rw [books_emplace]
    simp [Books.emplace, books, hnext]
  have hopened := emplaceAll_keeps (P := fun b => (b.nodes s.next).isSome)
    (fun _ key hb => nodes_emplace_live key hb) hroot (order.first items)
  have hstep : ∀ (t : OpenGLScene) (item : String × SceneItemInfo),
      ((books t).nodes s.next).isSome →
        ((books (Vis.updateItem t item.2).state).nodes s.next).isSome := by
    intro t item ht
    rwa [books_updateItem, nodes_updateItem]
  rw [reset_onTop order htop]
  exact Outcome.drive_state (fun t item => Vis.updateItem t item.2) hstep hopened
    (order.second items)

theorem changed_of_allocates {s s' : OpenGLScene} (hs : Wired (books s))
    (h : ((books s').nodes s.next).isSome) : ¬ Unchanged s s' := by
  intro hsame
  have hdead := hs.fresh_dead (n := s.next) (le_refl _)
  have hnodes : (books s').nodes = (books s).nodes := by simp only [books, hsame.graph]
  rw [hnodes, hdead] at h
  cases h

end Additions

/-- In every scene that calls lead to, a further call that throws leaves the
scene as it was exactly when it is one of the updates above. -/
theorem throwing_call_unchanged_iff (calls : List Call) {s s' : OpenGLScene}
    (h : run act (some construct) calls = some s) (c : Call) {failure : Failure}
    (hc : call s c = .raised failure s') (ht : Thrown failure) :
    Unchanged s s' ↔ LeavesAlone s c := by
  have hs := wired_reachable h
  have hstate : (call s c).state = s' := by rw [hc, Outcome.state_raised]
  cases c with
  | reset order items =>
    have htop : RootOnTop s := by
      by_contra hhung
      rw [call, reset_hung order hhung, Outcome.raised.injEq] at hc
      rw [← hc.1] at ht
      exact ht
    apply iff_of_false
    · apply changed_of_allocates hs
      rw [← hstate]
      exact reset_allocates order htop items
    · exact id
  | addItem info =>
    apply iff_of_false
    · apply changed_of_allocates hs
      by_cases hg : info.geometryInfo.isSome
      · rw [← hstate]
        exact addItem_allocates hg
      · simp only [call, Vis.addItem, hg, Bool.false_eq_true, if_false, Outcome.raised.injEq] at hc
        rw [← hc.1] at ht
        exact ht.elim
    · exact id
  | updateItem info => exact updateItem_unchanged_iff hc ht

theorem unknown_update_unchanged :
    ∃ s s', run act (some construct) [.addItem (shapedItem "item" "")] = some s ∧
      call s (.updateItem (shapedItem "other" "")) = .raised .outOfRange s' ∧
      (Unchanged s s' ↔ LeavesAlone s (.updateItem (shapedItem "other" ""))) :=
  ⟨_, _, rfl, rfl, throwing_call_unchanged_iff [.addItem (shapedItem "item" "")] rfl
    (.updateItem (shapedItem "other" "")) rfl trivial⟩

theorem unknown_parent_removes_item :
    ∃ s s', run act (some construct) [.addItem (shapedItem "item" "")] = some s ∧
      call s (.updateItem (shapedItem "item" "missing")) =
        .raised (.invalidArgument "Parent id 'missing' not found in scene") s' ∧
      (s.objects "item").isSome ∧ s'.objects "item" = none ∧ ¬ Unchanged s s' := by
  obtain ⟨s, hs⟩ : ∃ s, run act (some construct) [.addItem (shapedItem "item" "")] = some s :=
    ⟨_, rfl⟩
  refine ⟨s, _, hs, by cases hs; rfl, by cases hs; rfl, by cases hs; rfl, ?_⟩
  intro hsame
  have hid := congrFun hsame.objects "item"
  cases hs
  cases hid

end GVS.RejectedCalls
