import Gvs.Vis

/-!
# Who owns what in the viewer

The books of a scene forget geometry and display state and keep the pointers:
which object, mesh and drawable each package has, which objects live in the
graph and under which parent, and what each registered drawable refers to.
Every operation of the scene acts on its books alone. A scene is wired when
the pointers of its packages are valid and unshared and the graph is a
forest; every operation, raising or not, keeps it wired.
-/

set_option autoImplicit false

namespace GVS.SceneBooks
open GVS.Proto GVS.Vis ParentForest

structure Handles where
  address : ℕ
  object : ℕ
  drawable : ℕ
  deriving DecidableEq

structure Attachment where
  object : ℕ
  mesh : ℕ
  deriving DecidableEq

structure Books where
  packages : String → Option Handles
  nodes : ℕ → Option (Option ℕ)
  drawables : ℕ → Option Attachment
  root : Option ℕ
  next : ℕ

def handles (package : ObjectMeshPackage) : Handles :=
  ⟨package.address, package.object, package.drawable⟩

def books (s : OpenGLScene) : Books where
  packages id := (s.objects id).map handles
  nodes o := (s.graph o).map (·.parent)
  drawables d := (s.drawables d).map fun drawable => ⟨drawable.object, drawable.mesh⟩
  root := s.rootObject
  next := s.next

namespace Books

def up (b : Books) (o : ℕ) : Option ℕ := (b.nodes o).join

def setParent (b : Books) (o p : ℕ) : Books :=
  if climbs b.up b.next p o then b
  else { b with nodes := Function.update b.nodes o ((b.nodes o).map fun _ => some p) }

def eraseObject (b : Books) (r : ℕ) : Books :=
  { b with
    nodes := fun o => if climbs b.up b.next o r then none else b.nodes o
    drawables := fun d => (b.drawables d).filter fun a => !climbs b.up b.next a.object r }

def emplace (b : Books) (key : String) : Books where
  packages := if (b.packages key).isSome then b.packages
    else Function.update b.packages key (some ⟨b.next + 1, b.next, b.next + 2⟩)
  nodes := Function.update b.nodes b.next (some none)
  drawables := Function.update b.drawables (b.next + 2) (some ⟨b.next, b.next + 1⟩)
  root := b.root
  next := b.next + 3

def eraseKey (b : Books) (id : String) : Books :=
  { b with packages := Function.update b.packages id none }

def updateItem (b : Books) (id parent : String) (valid : Bool) : Books :=
  match b.packages id with
  | none => b
  | some h =>
    if valid then
      match b.packages parent with
      | none => b.eraseKey id
      | some above => b.setParent h.object above.object
    else b

def eraseRoot (b : Books) : Books :=
  match b.root with
  | none => b
  | some r => b.eraseObject r

def freshRoot (b : Books) : Books :=
  emplace { b.eraseRoot with packages := fun _ => none, root := some b.next } ""

end Books

def validFormat (info : SceneItemInfo) : Bool :=
  match displayFormat info with
  | some (.unrecognized _ _) => false
  | _ => true

theorem up_books (s : OpenGLScene) : (books s).up = up s := by
  ext o : 1
  simp only [Books.up, books, up]
  cases s.graph o <;> rfl

theorem loadIndices_handles (list : Option (List UInt32)) (package : ObjectMeshPackage) :
    handles (loadIndices list package) = handles package := by
  rcases list with _ | _ | _ <;> rfl

theorem updateGeometry_handles (info : SceneItemInfo) (package : ObjectMeshPackage) :
    handles (updateGeometry info package) = handles package := by
  unfold updateGeometry
  split
  · rfl
  · exact loadIndices_handles _ _

theorem updatePrimitive_error {info : SceneItemInfo} {package : ObjectMeshPackage}
    {failure : Failure} (h : updatePrimitive info package = .error failure) :
    validFormat info = false := by
  unfold updatePrimitive at h
  unfold validFormat
  cases hf : displayFormat info with
  | none => simp [hf] at h
  | some format => cases format <;> simp [hf, fromProto, Except.map] at h ⊢

theorem updatePrimitive_ok {info : SceneItemInfo} {package ready : ObjectMeshPackage}
    (h : updatePrimitive info package = .ok ready) :
    validFormat info = true ∧ handles ready = handles package := by
  unfold updatePrimitive at h
  unfold validFormat
  cases hf : displayFormat info with
  | none =>
    simp only [hf, Except.ok.injEq] at h
    exact ⟨rfl, by rw [h]⟩
  | some format =>
    cases format <;> simp [hf, fromProto, Except.map] at h ⊢ <;> simp [← h, handles]

section Updates

variable {κ α β : Type*} [DecidableEq κ]

theorem map_update (g : α → β) (f : κ → Option α) (k : κ) (v : Option α) :
    (fun i => (Function.update f k v i).map g) =
      Function.update (fun i => (f i).map g) k (v.map g) :=
  Function.comp_update (Option.map g) f k v

theorem map_update_self (g : α → β) {f : κ → Option α} {k : κ} {v : Option α}
    (h : v.map g = (f k).map g) :
    (fun i => (Function.update f k v i).map g) = fun i => (f i).map g := by
  rw [map_update, h]
  exact Function.update_eq_self k fun i => (f i).map g

end Updates

theorem books_setPackage (s : OpenGLScene) {id : String} {package new : ObjectMeshPackage}
    (hp : s.objects id = some package) (hh : handles new = handles package) :
    books (setPackage s id new) = books s := by
  have hsame : (some new).map handles = (s.objects id).map handles := by
    rw [hp, Option.map_some, Option.map_some, hh]
  simp only [books, setPackage, map_update_self handles hsame]

theorem books_setParent (s : OpenGLScene) (o p : ℕ) :
    books (setParent s o p) = (books s).setParent o p := by
  unfold setParent Books.setParent
  rw [up_books]
  show books (if climbs (up s) s.next p o = true then _ else _) =
    if climbs (up s) s.next p o = true then _ else _
  split
  · rfl
  · simp only [books, map_update, Option.map_map]
    rfl

theorem books_eraseObject (s : OpenGLScene) (r : ℕ) :
    books (eraseObject s r) = (books s).eraseObject r := by
  unfold Books.eraseObject
  rw [up_books]
  simp only [books, eraseObject, Books.mk.injEq, and_true, true_and]
  constructor
  · funext o
    by_cases hc : climbs (up s) s.next o r = true <;> simp [hc]
  · funext d
    cases hd : s.drawables d with
    | none => rfl
    | some drawable =>
      by_cases hc : climbs (up s) s.next drawable.object r <;> simp [Option.filter, hc]

theorem books_emplace (s : OpenGLScene) (key : String) :
    books (emplace s key) = (books s).emplace key := by
  have hkey : ((books s).packages key).isSome = (s.objects key).isSome := Option.isSome_map
  unfold emplace Books.emplace
  rw [hkey]
  by_cases hk : (s.objects key).isSome = true
  · simp only [hk, if_true, books, allocatePackage, map_update]
    rfl
  · simp only [hk, Bool.false_eq_true, if_false, books, allocatePackage, map_update]
    rfl

theorem books_eraseKey (s : OpenGLScene) (id : String) :
    books (eraseKey s id) = (books s).eraseKey id := by
  simp only [books, eraseKey, map_update]
  rfl

theorem books_setTransformation (s : OpenGLScene) (o : ℕ) (transformation : Option Mat4) :
    books (setTransformation s o transformation) = books s := by
  cases transformation with
  | none => rfl
  | some transformation =>
    have hsame : ((s.graph o).map fun object => { object with transformation }).map
        Object3D.parent = (s.graph o).map Object3D.parent := by
      rw [Option.map_map]
      rfl
    simp only [books, setTransformation, map_update_self Object3D.parent hsame]

theorem books_updateDisplayInfo (s : OpenGLScene) (d : ℕ) (display : DisplayInfo) :
    books (updateDisplayInfo s d display).state = books s := by
  unfold updateDisplayInfo
  cases hd : s.drawables d with
  | none => rfl
  | some drawable =>
    simp only
    split
    · have ht := books_setTransformation s drawable.object display.transformation
      have hsame : (some (updateDrawable display drawable)).map
          (fun drawable => (⟨drawable.object, drawable.mesh⟩ : Attachment)) =
            (s.drawables d).map fun drawable => ⟨drawable.object, drawable.mesh⟩ := by
        rw [hd]
        rfl
      simp only [books, Outcome.state_done, Books.mk.injEq] at ht ⊢
      exact ⟨ht.1, ht.2.1, map_update_self _ hsame, ht.2.2.2⟩
    · rfl

theorem books_placeItem (s : OpenGLScene) (info : SceneItemInfo) (package : ObjectMeshPackage) :
    books (placeItem s info package).state =
      match (books s).packages info.parentValue with
      | none => (books s).eraseKey info.idValue
      | some above => (books s).setParent package.object above.object := by
  unfold placeItem
  have hb : (books s).packages info.parentValue = (s.objects info.parentValue).map handles := rfl
  cases hp : s.objects info.parentValue with
  | none => simp [hb, hp, books_eraseKey]
  | some parent =>
    rw [hb, hp]
    cases hd : info.displayInfo with
    | none => simp [books_setParent, handles]
    | some display => simp [books_updateDisplayInfo, books_setParent, handles]

def placed (s : OpenGLScene) (info : SceneItemInfo) (ready parent : ObjectMeshPackage) :
    OpenGLScene :=
  setParent (setPackage s info.idValue ready) ready.object parent.object

/-- How an update ends: the id is not known, the format is not a member, the
parent is not known, or the item is placed and then has its display updated. -/
inductive Updated (s : OpenGLScene) (info : SceneItemInfo) : Outcome Failure OpenGLScene → Prop
  | unknown (hid : s.objects info.idValue = none) : Updated s info (.raised .outOfRange s)
  | invalid {package : ObjectMeshPackage} {failure : Failure}
      (hid : s.objects info.idValue = some package)
      (hprimitive : updatePrimitive info (updateGeometry info package) = .error failure) :
      Updated s info
        (.raised failure (setPackage s info.idValue (updateGeometry info package)))
  | orphan {package ready : ObjectMeshPackage} (hid : s.objects info.idValue = some package)
      (hprimitive : updatePrimitive info (updateGeometry info package) = .ok ready)
      (hparent : s.objects info.parentValue = none) :
      Updated s info
        (.raised (.invalidArgument ("Parent id '" ++ info.parentValue ++ "' not found in scene"))
          (eraseKey (setPackage s info.idValue ready) info.idValue))
  | bare {package ready parent : ObjectMeshPackage} (hid : s.objects info.idValue = some package)
      (hprimitive : updatePrimitive info (updateGeometry info package) = .ok ready)
      (hparent : (setPackage s info.idValue ready).objects info.parentValue = some parent)
      (hdisplay : info.displayInfo = none) : Updated s info (.done (placed s info ready parent))
  | displayed {package ready parent : ObjectMeshPackage} {display : DisplayInfo}
      {o : Outcome Failure OpenGLScene} (hid : s.objects info.idValue = some package)
      (hprimitive : updatePrimitive info (updateGeometry info package) = .ok ready)
      (hparent : (setPackage s info.idValue ready).objects info.parentValue = some parent)
      (hdisplay : info.displayInfo = some display)
      (ho : updateDisplayInfo (placed s info ready parent) ready.drawable display = o) :
      Updated s info o

theorem setPackage_known {s : OpenGLScene} {id : String} {package : ObjectMeshPackage}
    (hp : s.objects id = some package) (new : ObjectMeshPackage) (k : String) :
    ((setPackage s id new).objects k).isSome = (s.objects k).isSome := by
  by_cases hk : k = id
  · simp [setPackage, hk, hp]
  · simp [setPackage, hk]

theorem updateItem_updated (s : OpenGLScene) (info : SceneItemInfo) :
    Updated s info (Vis.updateItem s info) := by
  unfold Vis.updateItem
  cases hid : s.objects info.idValue with
  | none => exact .unknown hid
  | some package =>
    cases hprimitive : updatePrimitive info (updateGeometry info package) with
    | error failure =>
      simp only [hprimitive]
      exact .invalid hid hprimitive
    | ok ready =>
      simp only [hprimitive, placeItem]
      cases hparent : (setPackage s info.idValue ready).objects info.parentValue with
      | none =>
        have hnone := setPackage_known hid ready info.parentValue
        rw [hparent, Option.isSome_none, eq_comm, Option.isSome_eq_false_iff,
          Option.isNone_iff_eq_none] at hnone
        exact .orphan hid hprimitive hnone
      | some parent =>
        cases hdisplay : info.displayInfo with
        | none => exact .bare hid hprimitive hparent hdisplay
        | some display => exact .displayed hid hprimitive hparent hdisplay rfl

/-- Updating an item acts on the books through its id, its parent and the
validity of its format, whether it returns or raises. -/
theorem books_updateItem (s : OpenGLScene) (info : SceneItemInfo) :
    books (Vis.updateItem s info).state =
      (books s).updateItem info.idValue info.parentValue (validFormat info) := by
  unfold Vis.updateItem Books.updateItem
  have hb : (books s).packages info.idValue = (s.objects info.idValue).map handles := rfl
  cases hp : s.objects info.idValue with
  | none => simp [hb, hp]
  | some package =>
    have hg := updateGeometry_handles info package
    rw [hb, hp]
    cases hu : updatePrimitive info (updateGeometry info package) with
    | error failure =>
      simp [hu, updatePrimitive_error hu, books_setPackage s hp hg]
    | ok ready =>
      obtain ⟨hv, hr⟩ := updatePrimitive_ok hu
      have ho : ready.object = package.object := by
        have h := congrArg Handles.object (hr.trans hg)
        exact h
      simp [hu, hv, books_placeItem, books_setPackage s hp (hr.trans hg), ho, handles]

def erased (s : OpenGLScene) : OpenGLScene :=
  match s.rootObject with
  | none => s
  | some r => Vis.eraseObject s r

theorem eraseRoot_done {s t : OpenGLScene} :
    Vis.eraseRoot s = .done t ↔ RootOnTop s ∧ erased s = t := by
  unfold Vis.eraseRoot RootOnTop erased
  cases s.rootObject with
  | none => simp
  | some r => cases hup : Vis.up s r <;> simp [hup]

theorem eraseRoot_raised {s : OpenGLScene} (h : ¬ RootOnTop s) :
    Vis.eraseRoot s = .raised (.assertion "item->_list == this") s := by
  unfold RootOnTop at h
  push Not at h
  obtain ⟨r, hr, hup⟩ := h
  obtain ⟨p, hp⟩ := Option.ne_none_iff_exists'.mp hup
  simp [Vis.eraseRoot, hr, hp]

theorem reset_onTop (order : MapOrder) {s : OpenGLScene} (h : RootOnTop s) (items : SceneItems) :
    reset order s items = Outcome.drive (fun s item => Vis.updateItem s item.2)
      (emplaceAll (Vis.freshRoot (erased s)) (order.first items)) (order.second items) := by
  rw [reset, eraseRoot_done.mpr ⟨h, rfl⟩, Outcome.done_andThen]

theorem reset_hung (order : MapOrder) {s : OpenGLScene} (h : ¬ RootOnTop s) (items : SceneItems) :
    reset order s items = .raised (.assertion "item->_list == this") s := by
  rw [reset, eraseRoot_raised h, Outcome.raised_andThen]

theorem rootOnTop_of_reset {order : MapOrder} {s s' : OpenGLScene} {items : SceneItems}
    (h : reset order s items = .done s') : RootOnTop s := by
  by_contra hs
  rw [reset_hung order hs] at h
  cases h

theorem books_erased (s : OpenGLScene) : books (erased s) = (books s).eraseRoot := by
  unfold erased Books.eraseRoot
  show books (match s.rootObject with | none => s | some r => Vis.eraseObject s r) =
    match s.rootObject with | none => books s | some r => (books s).eraseObject r
  cases s.rootObject with
  | none => rfl
  | some r => exact books_eraseObject s r

theorem erased_next (s : OpenGLScene) : (erased s).next = s.next := by
  unfold erased
  split <;> rfl

/-- Erasing the root object and every package. What is left of the graph is
what did not hang below the root. -/
def emptied (b : Books) : Books :=
  { b.eraseRoot with packages := fun _ => none, root := some b.next }

theorem books_cleared (s : OpenGLScene) :
    books { erased s with objects := fun _ => none, rootObject := some (erased s).next } =
      emptied (books s) := by
  unfold emptied
  rw [← books_erased]
  simp [books, erased_next]

theorem books_freshRoot (s : OpenGLScene) :
    books (Vis.freshRoot (erased s)) = (books s).freshRoot := by
  unfold Vis.freshRoot Books.freshRoot
  rw [books_emplace]
  exact congrArg (Books.emplace · "") (books_cleared s)

end GVS.SceneBooks
