import Gvs.LoggedItems
import Gvs.ViewerPictures
import Gvs.MessageClients

/-!
# The logbook

Loggers stream parameters and send them, in any interleaving, to one server.
What they have done is written in a book that knows nothing of messages: for
each id the parameters that the sends have left, for each stream those that
wait for its next send. The streams and the server refine the book, and a
viewer shows of each parameter the one that the book has last.
-/

set_option autoImplicit false

namespace GVS.Logbook
open GVS.Proto GVS.ItemDefaults GVS.Server GVS.RequestTable GVS.LogParams GVS.LoggedItems GuardedRuns
open GVS.MessageClients (Call)

section Loggers

/-- `GeometryLogger::item_stream` with the uuid that is generated for an empty
id; `stub` tells whether the logger is connected. -/
def itemStream (stub : Bool) (id uuid : String) : GeometryItemStream where
  id := if id.isEmpty then uuid else id
  stub := stub

def sendThrough (s : SceneServer) (stream : GeometryItemStream) (type : SendType) (call : Call) :
    SceneServer × GeometryItemStream :=
  let failed := fun statusMessage =>
    (sendWith stream type (if stream.stub then .notOk statusMessage else .noStub)).2
  match call with
  | .lost statusMessage => (s, failed statusMessage)
  | .cut statusMessage => ((sendCurrentData s stream type).1, failed statusMessage)
  | .answered => sendCurrentData s stream type

def clearAllItems (s : SceneServer) (stub : Bool) (call : Call) : SceneServer × String :=
  if stub then
    let answer := requestUpdateScene s .clearAll
    match call with
    | .lost statusMessage => (s, statusMessage)
    | .cut statusMessage => (answer.1, statusMessage)
    | .answered => (answer.1, answer.2.errorMsg)
  else (s, "")

inductive Operation where
  | itemStream (id uuid : String)
  | shift (param : LogParam)
  | send (type : SendType) (call : Call)
  | clearAllItems (call : Call)

structure Loggers where
  server : SceneServer := {}
  stubs : ℕ → Bool
  streams : ℕ → GeometryItemStream

def hold (c : Loggers) (k : ℕ) (stream : GeometryItemStream) : Loggers :=
  { c with streams := Function.update c.streams k stream }

/-- What `operator<<` throws is caught by the client. -/
def turn (c : Loggers) : ℕ × Operation → Loggers
  | (k, .itemStream id uuid) => hold c k (itemStream (c.stubs k) id uuid)
  | (k, .shift param) => hold c k (shiftLeft (c.streams k) param).state
  | (k, .send type call) =>
    let sent := sendThrough c.server (c.streams k) type call
    { hold c k sent.2 with server := sent.1 }
  | (k, .clearAllItems call) => { c with server := (clearAllItems c.server (c.stubs k) call).1 }

theorem sendThrough_server (s : SceneServer) (stream : GeometryItemStream) (type : SendType)
    (call : Call) : (sendThrough s stream type call).1 =
      if stream.stub && call.arrives then
        (requestUpdateScene s (request { stream.info with id := some ⟨stream.id⟩ } type)).1
      else s := by
  cases hstub : stream.stub <;> cases call <;>
    simp [sendThrough, sendCurrentData, Call.arrives, hstub]

theorem clearAllItems_server (s : SceneServer) (stub : Bool) (call : Call) :
    (clearAllItems s stub call).1 =
      if stub && call.arrives then (requestUpdateScene s .clearAll).1 else s := by
  cases stub <;> cases call <;> rfl

end Loggers

section Book

/-- The parameters of an id, newest first: those of the send that created it,
those of the last send that had geometry, and those of all its sends. -/
structure Logged where
  created : List LogParam
  geometry : Option (List LogParam)
  params : List LogParam

def hasGeometry (params : List LogParam) : Bool := params.any isGeometry

def Logged.first (params : List LogParam) : Logged where
  created := params
  geometry := if hasGeometry params then some params else none
  params := params

def Logged.add (l : Logged) (params : List LogParam) : Logged where
  created := l.created
  geometry := if hasGeometry params then some params else l.geometry
  params := params ++ l.params

def heard (errorMsg : String) : Call → String
  | .lost statusMessage | .cut statusMessage => statusMessage
  | .answered => errorMsg

def enter (id : String) (params : List LogParam) :
    Option Logged → SendType → Option Logged × String
  | none, .append => (some (.first params), "")
  | none, .safe | none, .replace =>
    if hasGeometry params then (some (.first params), "") else (none, doesNotExistMsg id)
  | some l, .safe =>
    if hasGeometry params then (some l, alreadyExistsMsg id) else (some (l.add params), "")
  | some l, .replace => (some (l.add params), "")
  | some l, .append =>
    (some l, if hasGeometry params then "Appending geometry is not supported yet" else "")

structure Page where
  id : String
  pending : List LogParam := []
  errorMessage : String := ""

structure Book where
  stubs : ℕ → Bool
  logged : String → Option Logged := fun _ => none
  pages : ℕ → Page

def Book.write (b : Book) (k : ℕ) (page : Page) : Book :=
  { b with pages := Function.update b.pages k page }

def Book.turn (b : Book) : ℕ × Operation → Book
  | (k, .itemStream id uuid) => b.write k { id := if id.isEmpty then uuid else id }
  | (k, .shift param) =>
    let page := b.pages k
    if (given (checked param) page.pending).isSome then b
    else b.write k { page with pending := param :: page.pending }
  | (k, .send type call) =>
    let page := b.pages k
    if b.stubs k then
      let entered := enter page.id page.pending (b.logged page.id) type
      let b' := b.write k { page with pending := [], errorMessage := heard entered.2 call }
      if call.arrives then { b' with logged := Function.update b.logged page.id entered.1 } else b'
    else b.write k { page with pending := [] }
  | (k, .clearAllItems call) =>
    if b.stubs k && call.arrives then { b with logged := fun _ => none } else b

def Logged.item (id : String) (l : Logged) : SceneItemInfo where
  id := some ⟨id⟩
  geometryInfo := l.geometry.map givenGeometry
  displayInfo := some
    { readableId := some id
      geometryFormat := some ((given .geometryFormat l.params).getD defaultGeomFormat)
      transformation := some (((given .transformation l.params).map fun data =>
        ⟨data.entries⟩).getD defaultTransformation)
      uniformColor := some ((given .uniformColor l.params).getD defaultColor)
      coloring := some ((given .coloring l.params).getD defaultColoring)
      shading := some (((given .shading l.params).map encodedShading).getD .uniformColor) }
  parent := (given .parent l.created).map ID.mk

structure Refines (c : Loggers) (b : Book) : Prop where
  stubs : c.stubs = b.stubs
  stored : ∀ id, c.server.scene.lookup id = (b.logged id).map (Logged.item id)
  streams : ∀ k, c.streams k =
    { id := (b.pages k).id
      stub := b.stubs k
      info := draft (b.pages k).pending
      errorMessage := (b.pages k).errorMessage }

end Book

section Sends

theorem given_append (slot : Slot) (params older : List LogParam) :
    given slot (params ++ older) = (given slot params).or (given slot older) :=
  List.findSome?_append

theorem setShadingDefaults_encoded (shading : Option ShadingParam) :
    setShadingDefaults (shading.map encodedShading) =
      (shading.map encodedShading).getD .uniformColor := by
  rcases shading with _ | _ | arguments <;> rfl

theorem item_first (id : String) (params : List LogParam) :
    setDisplayDefaults { draft params with id := some ⟨id⟩ } = (Logged.first params).item id := by
  have hdisplay : (draft params).displayInfo.getD {} = givenDisplay params :=
    mutableDisplayInfo_draft params
  have hgeometry : (draft params).geometryInfo = (Logged.first params).geometry.map givenGeometry := by
    cases h : params.any isGeometry <;> simp [draft, Logged.first, hasGeometry, h]
  simp only [setDisplayDefaults, hdisplay, hgeometry, completeDisplayInfo, givenDisplay,
    setShadingDefaults_encoded]
  rfl

/-- An update merges into a display that is there, also when it has none. -/
theorem updateDisplayDefaults_some {old info : SceneItemInfo} {display : DisplayInfo}
    (h : old.displayInfo = some display) :
    updateDisplayDefaults old info =
      { old with displayInfo := some (copyPresentFields display (info.displayInfo.getD {})) } := by
  unfold updateDisplayDefaults
  cases hd : info.displayInfo with
  | none => simp [← h]
  | some given => simp [h]

theorem or_some_getD {α : Type*} (new old : Option α) (default : α) :
    new.or (some (old.getD default)) = some ((new.or old).getD default) := by
  cases new <;> rfl

theorem item_add (id : String) (l : Logged) (params : List LogParam) :
    merged (l.item id) { draft params with id := some ⟨id⟩ } = (l.add params).item id := by
  have hdisplay : (draft params).displayInfo.getD {} = givenDisplay params :=
    mutableDisplayInfo_draft params
  have hgeometry : (draft params).geometryInfo.or (l.geometry.map givenGeometry) =
      (l.add params).geometry.map givenGeometry := by
    cases h : params.any isGeometry <;> simp [draft, Logged.add, hasGeometry, h]
  rw [merged, updateDisplayDefaults_some rfl]
  simp only [hdisplay, copyPresentFields, givenDisplay, Logged.item, hgeometry, Logged.add,
    given_append, Option.map_or, or_some_getD]
  rfl

def carried (id : String) (params : List LogParam) : SceneItemInfo :=
  { draft params with id := some ⟨id⟩ }

theorem carried_geometry (id : String) (params : List LogParam) :
    (carried id params).geometryInfo =
      if hasGeometry params then some (givenGeometry params) else none := rfl

def Agrees (scene scene' : SceneItems) (id : String) (l : Option Logged) : Prop :=
  ∀ k, scene'.lookup k = if k = id then l.map (Logged.item k) else scene.lookup k

theorem agrees_same {scene : SceneItems} {id : String} {l : Option Logged}
    (h : scene.lookup id = l.map (Logged.item id)) : Agrees scene scene id l := by
  intro k
  by_cases hk : k = id
  · subst hk
    rw [if_pos rfl, h]
  · rw [if_neg hk]

theorem agrees_insert (scene : SceneItems) (id : String) (l : Logged) :
    Agrees scene (scene.insert id (l.item id)) id (some l) := by
  intro k
  rw [lookup_insert_ite]
  by_cases hk : k = id
  · subst hk
    simp
  · simp [hk]

theorem perform_create (s : SceneServer) (id : String) (params : List LogParam) :
    (perform s (.create (carried id params))).2.errorMsg = "" ∧
      Agrees s.scene (perform s (.create (carried id params))).1.scene id
        (some (.first params)) := by
  refine ⟨rfl, ?_⟩
  have hstored : setDisplayDefaults (carried id params) = (Logged.first params).item id :=
    item_first id params
  show Agrees s.scene (s.scene.insert id (setDisplayDefaults (carried id params))) id _
  rw [hstored]
  exact agrees_insert s.scene id _

theorem perform_merge (s : SceneServer) (id : String) (l : Logged) (params : List LogParam) :
    (perform s (.merge (l.item id) (carried id params))).2.errorMsg = "" ∧
      Agrees s.scene (perform s (.merge (l.item id) (carried id params))).1.scene id
        (some (l.add params)) := by
  refine ⟨rfl, ?_⟩
  have hstored : merged (l.item id) (carried id params) = (l.add params).item id :=
    item_add id l params
  show Agrees s.scene (s.scene.insert id (merged (l.item id) (carried id params))) id _
  rw [hstored]
  exact agrees_insert s.scene id _

/-- The table of the server and the book, for each type of send. -/
theorem perform_enter {s : SceneServer} {id : String} {l : Option Logged}
    (hl : s.scene.lookup id = l.map (Logged.item id)) (params : List LogParam) (type : SendType) :
    let answer := perform s (verdict s.scene (request (carried id params) type))
    answer.2.errorMsg = (enter id params l type).2 ∧
      Agrees s.scene answer.1.scene id (enter id params l type).1 := by
  have hgeometry := carried_geometry id params
  have hl' : s.scene.lookup (carried id params).idValue = l.map (Logged.item id) := hl
  have hreject : ∀ errorMsg, (perform s (.reject errorMsg)).2.errorMsg = errorMsg ∧
      Agrees s.scene (perform s (.reject errorMsg)).1.scene id l :=
    fun _ => ⟨rfl, agrees_same hl⟩
  cases hg : hasGeometry params with
  | true =>
    simp only [hg, if_true] at hgeometry
    cases l with
    | none =>
      have hv : verdict s.scene (request (carried id params) type) = .create (carried id params) := by
        cases type <;> simp [verdict, request, hl', hgeometry]
      rw [hv]
      cases type <;> simpa [enter, hg] using perform_create s id params
    | some l =>
      cases type with
      | safe =>
        have hv : verdict s.scene (request (carried id params) .safe) =
            .reject (alreadyExistsMsg id) := by
          simp [verdict, request, hl', hgeometry]
          rfl
        rw [hv]
        simpa [enter, hg] using hreject (alreadyExistsMsg id)
      | replace =>
        have hv : verdict s.scene (request (carried id params) .replace) =
            .merge (l.item id) (carried id params) := by
          simp [verdict, request, hl', hgeometry]
        rw [hv]
        exact perform_merge s id l params
      | append =>
        have hv : verdict s.scene (request (carried id params) .append) =
            .reject "Appending geometry is not supported yet" := by
          simp [verdict, request, hl', hgeometry]
        rw [hv]
        simpa [enter, hg] using hreject "Appending geometry is not supported yet"
  | false =>
    simp only [hg, Bool.false_eq_true, if_false] at hgeometry
    cases l with
    | none =>
      cases type with
      | append =>
        have hv : verdict s.scene (request (carried id params) .append) =
            .create (carried id params) := by
          simp [verdict, request, hl']
        rw [hv]
        exact perform_create s id params
      | safe | replace =>
        rw [show verdict s.scene _ = .reject (doesNotExistMsg id) by
          simp [verdict, request, hl', hgeometry]; rfl]
        simpa [enter, hg] using hreject (doesNotExistMsg id)
    | some l =>
      cases type with
      | append =>
        have hv : verdict s.scene (request (carried id params) .append) =
            .announce (l.item id) (carried id params) := by
          simp [verdict, request, hl', hgeometry]
        rw [hv]
        simpa [enter, hg, perform, write] using agrees_same hl
      | safe | replace =>
        rw [show verdict s.scene _ = .merge (l.item id) (carried id params) by
          simp [verdict, request, hl', hgeometry]]
        simpa [enter, hg] using perform_merge s id l params

/-- A send through a stub does what the book says about its id when its call
arrives, and nothing to the other ids. -/
theorem sendThrough_enter {s : SceneServer} {stream : GeometryItemStream}
    {params : List LogParam} {l : Option Logged} (hstub : stream.stub = true)
    (hinfo : stream.info = draft params)
    (hl : s.scene.lookup stream.id = l.map (Logged.item stream.id)) (type : SendType)
    (call : Call) :
    let sent := sendThrough s stream type call
    let entered := enter stream.id params l type
    sent.2 = { stream with info := {}, errorMessage := heard entered.2 call } ∧
      Agrees s.scene sent.1.scene stream.id (if call.arrives then entered.1 else l) := by
  obtain ⟨herror, hagrees⟩ := perform_enter hl params type
  have hsent : sendCurrentData s stream type =
      ((perform s (verdict s.scene (request (carried stream.id params) type))).1,
        { stream with info := {}, errorMessage := (enter stream.id params l type).2 }) := by
    simp only [sendCurrentData, if_pos hstub, hinfo, requestUpdateScene_eq]
    exact congrArg (fun message => (_, { stream with info := {}, errorMessage := message })) herror
  cases call with
  | lost statusMessage =>
    simp only [sendThrough, if_pos hstub]
    exact ⟨rfl, agrees_same hl⟩
  | cut statusMessage =>
    simp only [sendThrough, if_pos hstub, hsent]
    exact ⟨rfl, hagrees⟩
  | answered =>
    simp only [sendThrough, hsent]
    exact ⟨rfl, hagrees⟩

end Sends

section Refinement

theorem refines_hold {c : Loggers} {b : Book} (h : Refines c b) (k : ℕ) (page : Page) :
    Refines
      (hold c k
        { id := page.id
          stub := b.stubs k
          info := draft page.pending
          errorMessage := page.errorMessage })
      (b.write k page) := by
  refine ⟨h.stubs, h.stored, fun j => ?_⟩
  by_cases hj : j = k
  · subst hj
    simp [hold, Book.write]
  · simpa [hold, Book.write, hj] using h.streams j

theorem shiftLeft_draft {stream : GeometryItemStream} {params : List LogParam}
    (hinfo : stream.info = draft params) (p : LogParam) :
    (shiftLeft stream p).state =
      if (given (checked p) params).isSome then stream
      else { stream with info := draft (p :: params) } := by
  rw [shiftLeft_eq_push, push, hinfo, functor_spec]
  by_cases h : (given (checked p) params).isSome = true <;> simp [h]

theorem Book.turn_send {b : Book} {k : ℕ} (hb : b.stubs k = true) (type : SendType) (call : Call) :
    let page := b.pages k
    let entered := enter page.id page.pending (b.logged page.id) type
    b.turn (k, .send type call) =
      { b.write k { page with pending := [], errorMessage := heard entered.2 call } with
        logged := Function.update b.logged page.id
          (if call.arrives then entered.1 else b.logged page.id) } := by
  cases harrives : call.arrives <;> simp [Book.turn, Book.write, hb, harrives]

theorem refines_send {c : Loggers} {b : Book} (h : Refines c b) (k : ℕ) (type : SendType)
    (call : Call) : Refines (turn c (k, .send type call)) (b.turn (k, .send type call)) := by
  have hstream := h.streams k
  have hstub : (c.streams k).stub = b.stubs k := by rw [hstream]
  cases hb : b.stubs k with
  | false =>
    have hsent : turn c (k, .send type call) = hold c k { c.streams k with info := {} } := by
      cases call <;> simp [turn, sendThrough, sendCurrentData, sendWith, hstub, hb, hold]
    have hturn : b.turn (k, .send type call) = b.write k { b.pages k with pending := [] } := by
      simp [Book.turn, hb]
    rw [hsent, hturn, hstream]
    exact refines_hold h k { b.pages k with pending := [] }
  | true =>
    have hid : (c.streams k).id = (b.pages k).id := by rw [hstream]
    obtain ⟨hsent, hagrees⟩ := sendThrough_enter (hstub.trans hb)
      (congrArg GeometryItemStream.info hstream) (h.stored (c.streams k).id) type call
    rw [hid] at hsent hagrees
    rw [Book.turn_send hb]
    refine ⟨h.stubs, fun id => ?_, fun j => ?_⟩
    · show (sendThrough c.server (c.streams k) type call).1.scene.lookup id = _
      rw [hagrees id]
      by_cases hsame : id = (b.pages k).id
      · simp [hsame]
      · simpa [hsame] using h.stored id
    · show (hold c k (sendThrough c.server (c.streams k) type call).2).streams j = _
      rw [hsent, hstream]
      exact (refines_hold h k { b.pages k with pending := [], errorMessage := _ }).streams j

theorem refines_turn {c : Loggers} {b : Book} (h : Refines c b) (x : ℕ × Operation) :
    Refines (turn c x) (b.turn x) := by
  obtain ⟨k, op⟩ := x
  cases op with
  | itemStream id uuid =>
    have hstream := refines_hold h k { id := if id.isEmpty then uuid else id }
    rw [← h.stubs] at hstream
    exact hstream
  | shift param =>
    have hshift := shiftLeft_draft (congrArg GeometryItemStream.info (h.streams k)) param
    show Refines (hold c k _) (b.turn (k, .shift param))
    rw [hshift, h.streams k, Book.turn]
    split
    · have hsame := refines_hold h k (b.pages k)
      have hwrite : b.write k (b.pages k) = b := by simp [Book.write]
      rwa [hwrite] at hsame
    · exact refines_hold h k { b.pages k with pending := param :: (b.pages k).pending }
  | send type call => exact refines_send h k type call
  | clearAllItems call =>
    have hstub : c.stubs k = b.stubs k := by rw [h.stubs]
    cases hclear : b.stubs k && call.arrives with
    | false => simpa [turn, Book.turn, clearAllItems_server, hstub, hclear] using h
    | true =>
      refine ⟨?_, fun id => ?_, ?_⟩
      · simpa [turn, Book.turn, hclear] using h.stubs
      · simp [turn, Book.turn, clearAllItems_server, hstub, hclear, requestUpdateScene,
          Server.write]
      · simpa [turn, Book.turn, hclear] using h.streams

def opened (stubs : ℕ → Bool) (ids : ℕ → String) : Loggers where
  stubs := stubs
  streams := fun k => { id := ids k, stub := stubs k }

def blank (stubs : ℕ → Bool) (ids : ℕ → String) : Book where
  stubs := stubs
  pages := fun k => { id := ids k }

theorem refines_opened (stubs : ℕ → Bool) (ids : ℕ → String) :
    Refines (opened stubs ids) (blank stubs ids) :=
  ⟨rfl, fun id => by simp [opened, blank], fun _ => rfl⟩

theorem refines_run {c : Loggers} {b : Book} (h : Refines c b) (turns : List (ℕ × Operation)) :
    Refines (run turn c turns) (run Book.turn b turns) := by
  induction turns generalizing c b with
  | nil => exact h
  | cons x turns ih => exact ih (refines_turn h x)

/-- However the loggers take turns and whatever becomes of their calls: what is
stored for an id is the newest value of each display parameter that the sends
that arrived have carried, or the default; the geometry of the last of them
that was accepted with geometry; and the parent of the one that created it.
What waits in the streams and the messages of the last sends are those of the
book. -/
theorem loggers_refine_book (stubs : ℕ → Bool) (ids : ℕ → String)
    (turns : List (ℕ × Operation)) :
    Refines (run turn (opened stubs ids) turns) (run Book.turn (blank stubs ids) turns) :=
  refines_run (refines_opened stubs ids) turns

end Refinement

section Shown
open GVS.Vis GVS.SceneBooks GVS.Wiring GVS.Display GVS.Resetting GVS.Anchors GVS.Viewers
open GVS.ViewerSafety GVS.ViewerAppearance
open GVS.ViewerPictures (connected changes connected_simulation)

def Logged.shown (l : Logged) : DisplayState where
  transformation := ((given .transformation l.params).map fun data =>
    ⟨data.entries⟩).getD defaultTransformation
  coloring := (given .coloring l.params).getD defaultColoring
  uniformColor := (given .uniformColor l.params).getD defaultColor
  shading := ((given .shading l.params).map encodedShading).getD .uniformColor
  primitive := (primitiveOf ((given .geometryFormat l.params).getD defaultGeomFormat)).getD .points

def Welcome (b : Book) : ℕ × Operation → Prop
  | (k, .send type call) => b.stubs k = true → call.arrives = true → type ≠ .append ∧
      (∀ parent, given .parent (b.pages k).pending = some parent →
        parent = "" ∨ (b.logged parent).isSome) ∧
      ∀ format, given .geometryFormat (b.pages k).pending = some format →
        (primitiveOf format).isSome
  | (_, _) => True

theorem carried_parentValue (id : String) (params : List LogParam) :
    (carried id params).parentValue = (given .parent params).getD "" := by
  show (((given .parent params).map ID.mk).getD {}).value = _
  cases given .parent params <;> rfl

theorem displayOf_carried (id : String) (params : List LogParam) :
    displayOf (carried id params) = givenDisplay params := mutableDisplayInfo_draft params

theorem displayFormat_eq (info : SceneItemInfo) :
    displayFormat info = (displayOf info).geometryFormat := by
  unfold displayFormat displayOf
  cases info.displayInfo <;> rfl

theorem loadable_carried {id : String} {params : List LogParam}
    (h : ∀ format, given .geometryFormat params = some format → (primitiveOf format).isSome) :
    Loadable (carried id params) := by
  constructor
  · have hformat : displayFormat (carried id params) = given .geometryFormat params := by
      rw [displayFormat_eq, displayOf_carried]
      rfl
    unfold validFormat
    rw [hformat]
    split
    · rename_i number noMember hgiven
      have hsome := h _ hgiven
      cases hsome
    · rfl
  · rw [displayOf_carried]
    unfold validTransformation givenDisplay
    cases given .transformation params with
    | none => rfl
    | some data => simpa using data.sixteen

/-- A send that arrives has an id: `item_stream` never yields an empty one. -/
def Named (b : Book) : ℕ × Operation → Prop
  | (k, .send _ call) => b.stubs k = true → call.arrives = true → (b.pages k).id ≠ ""
  | (_, _) => True

structure Follows (s : SceneServer) (t : OpenGLScene) : Prop where
  shows : Shows s t
  anchored : Anchored (books t)
  loadable : LoadableItems s.scene
  named : "" ∉ s.scene

theorem follows_construct : Follows {} construct :=
  ⟨shows_construct, anchored_construct, fun id info h => by simp at h, Finmap.notMem_empty⟩

theorem named_step {s : SceneServer} {r : SceneUpdateRequest} (h : "" ∉ s.scene)
    (hr : ∀ info, requestInfo r = some info → info.idValue ≠ "") : "" ∉ (step s r).scene := by
  have hj := justified s.scene r
  have hinsert : ∀ info new, requestInfo r = some info →
      "" ∉ s.scene.insert info.idValue new := by
    intro info new hinfo hm
    exact (Finmap.mem_insert.mp hm).elim (fun he => hr info hinfo he.symm) h
  rw [step_eq]
  cases hv : verdict s.scene r with
  | reject errorMsg => exact h
  | create info =>
    rw [hv] at hj
    exact hinsert info _ hj.1
  | merge old info =>
    rw [hv] at hj
    exact hinsert info _ hj.1
  | announce old info => exact h
  | clear => exact Finmap.notMem_empty

theorem follows_step (order : MapOrder) {s : SceneServer} {t : OpenGLScene} (h : Follows s t)
    {r : SceneUpdateRequest} (hr : Admissible s r)
    (hnamed : ∀ info, requestInfo r = some info → info.idValue ≠ "") :
    ∃ t', Vis.update order t (broadcast s r) = .done t' ∧ Follows (step s r) t' := by
  obtain ⟨t', ht', hshows⟩ := shows_step order h.shows (rootOnTop_of_anchored h.anchored) hr
  have hkeeps : ∀ info, requestInfo r = some info → KeepsRoot info :=
    fun info hinfo hid => absurd hid (hnamed info hinfo)
  exact ⟨t', ht', hshows,
    anchored_update order _ h.shows.wired h.anchored (broadcast_anchoring hkeeps) ht',
    loadableItems_step s r h.loadable (admissible_viewerSafe hr), named_step h.named hnamed⟩

theorem follows_reset (order : MapOrder) {s s' : SceneServer} {t t' : OpenGLScene}
    (h : Follows s t) (h' : Follows s' t') :
    ∃ t'', reset order t s'.scene = .done t'' ∧ Follows s' t'' := by
  obtain ⟨t'', ht, hwired, hshown⟩ :=
    reset_shown order h.shows.wired (rootOnTop_of_anchored h.anchored) h'.loadable
  have hkeeps : ∀ id info, s'.scene.lookup id = some info → KeepsRoot info := by
    intro id info hl hid
    rw [filed_of_loadable h'.loadable id info hl] at hid
    exact absurd (hid ▸ Finmap.mem_of_lookup_eq_some hl) h'.named
  exact ⟨t'', ht, ⟨hwired, funext hshown⟩, anchored_reset order h.shows.wired hkeeps ht,
    h'.loadable, h'.named⟩

theorem admissible_carried {c : Loggers} {b : Book} (h : Refines c b) {k : ℕ} {type : SendType}
    {call : Call} (hstub : b.stubs k = true) (harrives : call.arrives = true)
    (hx : Welcome b (k, .send type call)) :
    Admissible c.server (request (carried (b.pages k).id (b.pages k).pending) type) := by
  obtain ⟨htype, hparent, hformat⟩ := hx hstub harrives
  have hknown : ParentKnown c.server.scene (carried (b.pages k).id (b.pages k).pending) := by
    unfold ParentKnown
    rw [carried_parentValue]
    cases hgiven : given .parent (b.pages k).pending with
    | none => exact Or.inl rfl
    | some parent =>
      refine (hparent parent hgiven).imp_right fun hlogged => ?_
      obtain ⟨l, hl⟩ := Option.isSome_iff_exists.mp hlogged
      rw [Option.getD_some, mem_iff_lookup]
      exact ⟨l.item parent, by rw [h.stored, hl, Option.map_some]⟩
  cases type with
  | append => exact absurd rfl htype
  | safe => exact ⟨hknown, loadable_carried hformat⟩
  | replace => exact ⟨hknown, loadable_carried hformat⟩

def posted (b : Book) : ℕ × Operation → Option SceneUpdateRequest
  | (k, .send type call) =>
    if b.stubs k && call.arrives then
      some (request (carried (b.pages k).id (b.pages k).pending) type)
    else none
  | (k, .clearAllItems call) => if b.stubs k && call.arrives then some .clearAll else none
  | (_, .itemStream _ _) | (_, .shift _) => none

theorem turn_posted {c : Loggers} {b : Book} (h : Refines c b) (x : ℕ × Operation) :
    (turn c x).server = (posted b x).elim c.server (step c.server) := by
  obtain ⟨k, op⟩ := x
  cases op with
  | itemStream id uuid => rfl
  | shift param => rfl
  | send type call =>
    have hstream := h.streams k
    cases hsend : b.stubs k && call.arrives with
    | false => simp [turn, posted, sendThrough_server, hstream, hsend]
    | true =>
      obtain ⟨hb, harrives⟩ := Bool.and_eq_true_iff.mp hsend
      simp [turn, posted, sendThrough_server, hstream, hb, harrives, step, carried]
  | clearAllItems call =>
    have hstub : c.stubs k = b.stubs k := by rw [h.stubs]
    cases hclear : b.stubs k && call.arrives with
    | false => simp [turn, posted, clearAllItems_server, hstub, hclear]
    | true => simp [turn, posted, clearAllItems_server, hstub, hclear, step]

theorem posted_cases {b : Book} {x : ℕ × Operation} {r : SceneUpdateRequest}
    (hr : posted b x = some r) :
    (∃ k type call, x = (k, .send type call) ∧ b.stubs k = true ∧ call.arrives = true ∧
      r = request (carried (b.pages k).id (b.pages k).pending) type) ∨ r = .clearAll := by
  obtain ⟨k, op⟩ := x
  cases op with
  | itemStream id uuid => cases hr
  | shift param => cases hr
  | send type call =>
    simp only [posted, Option.ite_none_right_eq_some, Bool.and_eq_true, Option.some.injEq] at hr
    obtain ⟨⟨hb, harrives⟩, rfl⟩ := hr
    exact Or.inl ⟨k, type, call, rfl, hb, harrives, rfl⟩
  | clearAllItems call =>
    simp only [posted, Option.ite_none_right_eq_some, Option.some.injEq] at hr
    exact Or.inr hr.2.symm

theorem posted_named {b : Book} {x : ℕ × Operation} (hx : Named b x) {r : SceneUpdateRequest}
    (hr : posted b x = some r) (info : SceneItemInfo) (hinfo : requestInfo r = some info) :
    info.idValue ≠ "" := by
  rcases posted_cases hr with ⟨k, type, call, rfl, hb, harrives, rfl⟩ | rfl
  · obtain rfl : carried (b.pages k).id (b.pages k).pending = info := by
      cases type <;> exact Option.some.inj hinfo
    exact hx hb harrives
  · cases hinfo

/-- What a turn makes of the server is one admissible request, or nothing. -/
theorem turn_server {c : Loggers} {b : Book} (h : Refines c b) {x : ℕ × Operation}
    (hx : Welcome b x) : (turn c x).server = c.server ∨
      ∃ r, (Admissible c.server r ∧ posted b x = some r) ∧
        (turn c x).server = step c.server r := by
  rw [turn_posted h]
  cases hr : posted b x with
  | none => exact Or.inl rfl
  | some r =>
    refine Or.inr ⟨r, ⟨?_, rfl⟩, rfl⟩
    rcases posted_cases hr with ⟨k, type, call, rfl, hb, harrives, rfl⟩ | rfl
    · exact admissible_carried h hb harrives hx
    · trivial

section Simulation

variable {order : MapOrder} {R : SceneServer → OpenGLScene → Prop}
  {guard : SceneServer → SceneUpdateRequest → Prop} {valid : Book → ℕ × Operation → Prop}

/-- A relation that guarded requests keep is kept by the turns of the loggers,
where each makes one of them or nothing. -/
theorem simulation_turns
    (hstep : ∀ s r t, R s t → guard s r →
      ∃ t', Vis.update order t (broadcast s r) = .done t' ∧ R (step s r) t')
    (hserver : ∀ c b t x, Refines c b → R c.server t → valid b x →
      (turn c x).server = c.server ∨
        ∃ r, guard c.server r ∧ (turn c x).server = step c.server r)
    {c : Loggers} {b : Book} (h : Refines c b) {t : OpenGLScene} (ht : R c.server t)
    {turns : List (ℕ × Operation)} (hturns : Along Book.turn valid b turns) :
    ∃ new t', (run turn c turns).server.sceneStream = c.server.sceneStream ++ new ∧
      Vis.update order t new = .done t' ∧ R (run turn c turns).server t' := by
  induction turns generalizing t c b with
  | nil => exact ⟨[], t, by simp [run], rfl, ht⟩
  | cons x turns ih =>
    rcases hserver c b t x h ht hturns.1 with hsame | ⟨r, hr, hstepped⟩
    · rw [← hsame] at ht ⊢
      exact ih (refines_turn h x) ht hturns.2
    · obtain ⟨t₁, ht₁, hR⟩ := hstep c.server r t ht hr
      have hnow := stream_step c.server r
      rw [← hstepped] at hR hnow
      obtain ⟨later, t', hlater, ht', hlast⟩ := ih (refines_turn h x) hR hturns.2
      refine ⟨broadcast c.server r ++ later, t', ?_, ?_, hlast⟩
      · rw [run, hlater, hnow, List.append_assoc]
      · rw [update_append, ht₁, Outcome.done_andThen, ht']

def Awaits (valid : Book → ℕ × Operation → Prop) (c : Loggers) (turns : List (ℕ × Operation)) :
    Prop := ∃ b, Refines c b ∧ Along Book.turn valid b turns

theorem awaits_append (c : Loggers) (turns later : List (ℕ × Operation))
    (h : Awaits valid c (turns ++ later)) :
    Awaits valid c turns ∧ Awaits valid (run turn c turns) later := by
  obtain ⟨b, hrefines, hturns⟩ := h
  obtain ⟨hnow, hlater⟩ := (along_append Book.turn valid b turns later).mp hturns
  exact ⟨⟨b, hrefines, hnow⟩, _, refines_run hrefines turns, hlater⟩

/-- Where a snapshot sets the relation up again it holds after any number of
connections. -/
theorem simulation_connected
    (hstep : ∀ s r t, R s t → guard s r →
      ∃ t', Vis.update order t (broadcast s r) = .done t' ∧ R (step s r) t')
    (hserver : ∀ c b t x, Refines c b → R c.server t → valid b x →
      (turn c x).server = c.server ∨
        ∃ r, guard c.server r ∧ (turn c x).server = step c.server r)
    (hreset : ∀ s t s' there, R s t → R s' there →
      ∃ t', reset order t s'.scene = .done t' ∧ R s' t')
    {c : Loggers} {b : Book} (h : Refines c b) {t : OpenGLScene} (ht : R c.server t)
    {connections : List (List (ℕ × Operation) × List (ℕ × Operation))}
    (hturns : Along Book.turn valid b (changes connections)) :
    ∃ t', Vis.update order t (connected turn Loggers.server c connections) = .done t' ∧
      R (run turn c (changes connections)).server t' := by
  have hawaits : Awaits valid c (changes connections) := ⟨b, h, hturns⟩
  refine connected_simulation (R := fun c t => R c.server t) order awaits_append ?_ ?_ ht hawaits
  · rintro c t missed hR ⟨b, hrefines, hmissed⟩
    obtain ⟨_, there, -, -, hthere⟩ := simulation_turns hstep hserver hrefines hR hmissed
    exact hreset _ t _ there hR hthere
  · rintro c t followed hR ⟨b, hrefines, hfollowed⟩
    obtain ⟨new, t', hnew, ht', hlast⟩ := simulation_turns hstep hserver hrefines hR hfollowed
    rw [hnew, List.drop_left]
    exact ⟨t', ht', hlast⟩

end Simulation

theorem grown_turns (order : MapOrder) {c : Loggers} {b : Book} (h : Refines c b)
    {t : OpenGLScene} (ht : Grown c.server t) (hload : LoadableItems c.server.scene)
    {turns : List (ℕ × Operation)} (hturns : Along Book.turn Welcome b turns) :
    ∃ new t', (run turn c turns).server.sceneStream = c.server.sceneStream ++ new ∧
      Vis.update order t new = .done t' ∧ Grown (run turn c turns).server t' ∧
      LoadableItems (run turn c turns).server.scene := by
  have hstep : ∀ s r t, Grown s t ∧ LoadableItems s.scene → Admissible s r →
      ∃ t', Vis.update order t (broadcast s r) = .done t' ∧
        (Grown (step s r) t' ∧ LoadableItems (step s r).scene) := by
    intro s r t hR hr
    obtain ⟨t', ht', hgrown⟩ := grown_step order s r t hR.1 hr
    exact ⟨t', ht', hgrown, loadableItems_step s r hR.2 (admissible_viewerSafe hr)⟩
  exact simulation_turns (R := fun s t => Grown s t ∧ LoadableItems s.scene) hstep
    (fun _ _ _ _ hrefines _ hx =>
      (turn_server hrefines hx).imp_right fun ⟨r, hr, hserver⟩ => ⟨r, hr.1, hserver⟩)
    h ⟨ht, hload⟩ hturns

theorem itemsView_logged {c : Loggers} {b : Book} (h : Refines c b) {id : String} (hid : id ≠ "") :
    itemsView c.server.scene id = (b.logged id).map Logged.shown := by
  unfold itemsView
  rw [h.stored id]
  cases b.logged id with
  | none => exact if_neg hid
  | some l => rfl

/-- Loggers whose sends are welcome bring every viewer to show the book: of
each parameter the value that was streamed last for the id, by whichever
logger, and the default where there is none. -/
theorem logged_is_shown (order order' : MapOrder) (stubs : ℕ → Bool) (ids : ℕ → String)
    (turns : List (ℕ × Operation)) (h : Along Book.turn Welcome (blank stubs ids) turns) :
    let s := (run turn (opened stubs ids) turns).server
    let b := run Book.turn (blank stubs ids) turns
    ∃ live late, liveViewer order s = .done live ∧ lateViewer order' s = .done late ∧
      ∀ id, id ≠ "" → displayState live id = (b.logged id).map Logged.shown ∧
        displayState late id = (b.logged id).map Logged.shown := by
  intro s b
  have hrefines : Refines _ b := refines_run (refines_opened stubs ids) turns
  obtain ⟨new, live, hnew, hlive, hgrown, hload⟩ :=
    grown_turns order (refines_opened stubs ids) grown_construct
      (fun id info h => by simp [opened] at h) h
  obtain ⟨late, hlate, -, hshown⟩ :=
    reset_shown order' wired_construct rootOnTop_construct hload
  refine ⟨live, late, ?_, hlate, fun id hid => ⟨?_, ?_⟩⟩
  · rw [liveViewer, hnew]
    exact hlive
  · rw [hgrown.shows.shown]
    exact itemsView_logged hrefines hid
  · rw [hshown]
    exact itemsView_logged hrefines hid

def itemSent : List (ℕ × Operation) :=
  [(0, .shift (.positions3d [0, 0, 0])), (1, .shift (.coloring .white)), (0, .send .safe .answered)]

def colorSent : List (ℕ × Operation) := [(1, .send .safe .answered)]

def twoStreams : Book := blank (fun _ => true) fun _ => "item"

theorem sent_welcome : Along Book.turn Welcome twoStreams (itemSent ++ colorSent) := by
  have hparent : ∀ params : List LogParam, given .parent params = none →
      ∀ b : Book, ∀ parent, given .parent params = some parent →
        parent = "" ∨ (b.logged parent).isSome := by
    intro params hnone b parent hsome
    rw [hnone] at hsome
    cases hsome
  exact ⟨trivial, trivial,
    fun _ _ => ⟨by decide, hparent _ rfl _, fun format hformat => by cases hformat⟩,
    fun _ _ => ⟨by decide, hparent _ rfl _, fun format hformat => by cases hformat⟩, trivial⟩

theorem sent_named : Along Book.turn Named twoStreams (itemSent ++ colorSent) := by
  have hid : "item" ≠ "" := by decide
  exact ⟨trivial, trivial, fun _ _ => hid, fun _ _ => hid, trivial⟩

theorem white_item_shown :
    ∃ live, liveViewer entryOrder
        (run turn (opened (fun _ => true) fun _ => "item") (itemSent ++ colorSent)).server =
          .done live ∧
      (displayState live "item").map DisplayState.coloring = some .white := by
  obtain ⟨live, late, hlive, -, hshown⟩ :=
    logged_is_shown entryOrder entryOrder (fun _ => true) (fun _ => "item") _ sent_welcome
  have hid : "item" ≠ "" := by decide
  have hitem := (hshown "item" hid).1
  exact ⟨live, hlive, by rw [hitem]; rfl⟩

theorem connected_follows (order : MapOrder) {c : Loggers} {b : Book} (h : Refines c b)
    {t : OpenGLScene} (ht : Follows c.server t)
    {connections : List (List (ℕ × Operation) × List (ℕ × Operation))}
    (hturns : Along Book.turn (fun b x => Welcome b x ∧ Named b x) b (changes connections)) :
    ∃ t', Vis.update order t (connected turn Loggers.server c connections) = .done t' ∧
      Follows (run turn c (changes connections)).server t' := by
  have hstep : ∀ s r t, Follows s t →
      (Admissible s r ∧ ∀ info, requestInfo r = some info → info.idValue ≠ "") →
      ∃ t', Vis.update order t (broadcast s r) = .done t' ∧ Follows (step s r) t' :=
    fun _ _ _ ht hr => follows_step order ht hr.1 hr.2
  refine simulation_connected hstep ?_ (fun _ _ _ _ ht hthere => follows_reset order ht hthere)
    h ht hturns
  intro c b t x hrefines _ hx
  exact (turn_server hrefines hx.1).imp_right
    fun ⟨r, hr, hserver⟩ => ⟨r, ⟨hr.1, posted_named hx.2 hr.2⟩, hserver⟩

/-- From the loggers to the screen: a viewer may join at any time, lose its
connection and get it back, with its callbacks and frames in any interleaving.
When the callbacks are done and no input comes it comes to rest, and at rest it
shows the book. -/
theorem screen_shows_book (order : MapOrder) (stubs : ℕ → Bool) (ids : ℕ → String)
    (connections : List (List (ℕ × Operation) × List (ℕ × Operation)))
    (h : Along Book.turn Welcome (blank stubs ids) (changes connections))
    (hnamed : Along Book.turn Named (blank stubs ids) (changes connections))
    (cs : List FrameLoop.Choice)
    (hidle : ∀ k, (run (FrameLoop.step order) {} cs).threads k = [])
    (hconnected : (FrameLoop.history order {} cs).flatMap Drains.appended =
      connected turn Loggers.server (opened stubs ids) connections) :
    (∃ ds, (∀ d ∈ ds, FrameCount.Calm d) ∧
      FrameLoop.Quiet (run (FrameLoop.step order) {} (cs ++ ds))) ∧
      ∀ ds, (∀ d ∈ ds, FrameCount.Calm d) →
        FrameLoop.Quiet (run (FrameLoop.step order) {} (cs ++ ds)) →
        ∃ t, (run (FrameLoop.step order) {} (cs ++ ds)).client.scene = .done t ∧
          ∀ id, id ≠ "" → displayState t id =
            ((run Book.turn (blank stubs ids) (changes connections)).logged id).map
              Logged.shown := by
  have hopened := refines_opened stubs ids
  obtain ⟨t, ht, hfollows⟩ :=
    connected_follows order hopened follows_construct (along_and Book.turn h hnamed)
  rw [← hconnected] at ht
  obtain ⟨hrests, hshown⟩ := FrameCount.shown_at_rest order hidle ht
  refine ⟨hrests, fun ds hcalm hquiet => ⟨t, hshown ds hcalm hquiet, fun id hid => ?_⟩⟩
  rw [hfollows.shows.shown]
  exact itemsView_logged (refines_run hopened _) hid

def joining : List FrameLoop.Choice :=
  [.call 0 (.onStateChange .notConnected
      (.answered (run turn (opened (fun _ => true) fun _ => "item") itemSent).server.scene)),
    .thread 0, .thread 0, .thread 0, .thread 0,
    .call 0 (.processSceneUpdate (.updateItem (carried "item" [.coloring .white]))),
    .thread 0, .thread 0, .thread 0]

theorem joining_shows_white : ∃ ds t,
    (run (FrameLoop.step entryOrder) {} (joining ++ ds)).client.scene = .done t ∧
      (displayState t "item").map DisplayState.coloring = some .white := by
  obtain ⟨⟨ds, hcalm, hquiet⟩, hrest⟩ :=
    screen_shows_book entryOrder (fun _ => true) (fun _ => "item") [(itemSent, colorSent)]
      sent_welcome sent_named joining (fun k => by cases k <;> rfl) rfl
  obtain ⟨t, ht, hshown⟩ := hrest ds hcalm hquiet
  have hid : "item" ≠ "" := by decide
  exact ⟨ds, t, ht, by rw [hshown "item" hid]; rfl⟩

end Shown

end GVS.Logbook
