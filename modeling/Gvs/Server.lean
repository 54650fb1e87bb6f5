import Gvs.ItemDefaults

/-!
# The scene server

The handlers of `scene_server.cpp`. The server state is the stored scene and
message list together with everything written so far to the two update
streams. `errors` is an out-parameter of the source and a result here; every
handler returns an OK status. `at` on a protobuf map aborts on a missing key,
so the model asks for the proof that the key is present.
-/

set_option autoImplicit false

namespace GVS.Server
open GVS.Proto GVS.ItemDefaults

structure SceneServer where
  scene : SceneItems := ∅
  messages : List Message := []
  messageStream : List Message := []
  sceneStream : List SceneUpdate := []
  deriving DecidableEq

def hasKey (items : SceneItems) (id : String) : Bool := decide (id ∈ items)

def atKey (items : SceneItems) (id : String) (h : id ∈ items) : SceneItemInfo :=
  (items.lookup id).get (Finmap.lookup_isSome.mpr h)

/-- `Map::insert`, which keeps an entry that is already there. -/
def insertEntry (items : SceneItems) (id : String) (info : SceneItemInfo) : SceneItems :=
  if hasKey items id then items else items.insert id info

theorem mem_insertEntry (items : SceneItems) (id : String) (info : SceneItemInfo) :
    id ∈ insertEntry items id info := by
  by_cases h : id ∈ items
  · simp [insertEntry, hasKey, h]
  · simp [insertEntry, hasKey, h]

def write (s : SceneServer) (update : SceneUpdate) : SceneServer :=
  { s with sceneStream := s.sceneStream ++ [update] }

def addItemAndSendUpdate (s : SceneServer) (info : SceneItemInfo) : SceneServer :=
  let id := info.idValue
  let inserted := insertEntry s.scene id info
  let stored := setDisplayDefaults (atKey inserted id (mem_insertEntry s.scene id info))
  write { s with scene := inserted.insert id stored } (.addItem stored)

def updateItemAndSendUpdate (s : SceneServer) (info : SceneItemInfo)
    (h : info.idValue ∈ s.scene) : SceneServer :=
  let id := info.idValue
  let updated := updateDisplayDefaults (atKey s.scene id h) info
  write { s with scene := s.scene.insert id updated } (.updateItem info)

def alreadyExistsMsg (id : String) : String :=
  "Item '" ++ id ++
    "' already exists. If this is expected, try using gvs::replace or gvs::append to modify geometry"

def doesNotExistMsg (id : String) : String :=
  "Item '" ++ id ++ "' does not exist and no geometry was specified."

def safeSetItem (s : SceneServer) (info : SceneItemInfo) : SceneServer × Errors :=
  let id := info.idValue
  if info.geometryInfo.isSome then
    if hasKey s.scene id then (s, { errorMsg := alreadyExistsMsg id })
    else (addItemAndSendUpdate s info, {})
  else
    if h : id ∈ s.scene then (updateItemAndSendUpdate s info h, {})
    else (s, { errorMsg := doesNotExistMsg id })

theorem mem_insert_self (items : SceneItems) (id : String) (info : SceneItemInfo) :
    id ∈ items.insert id info := Finmap.mem_insert.mpr (Or.inl rfl)

def replaceItem (s : SceneServer) (info : SceneItemInfo) : SceneServer × Errors :=
  let id := info.idValue
  match info.geometryInfo with
  | some geometry =>
    if h : id ∈ s.scene then
      let replaced := { atKey s.scene id h with geometryInfo := some geometry }
      (updateItemAndSendUpdate { s with scene := s.scene.insert id replaced } info
        (mem_insert_self s.scene id replaced), {})
    else (addItemAndSendUpdate s info, {})
  | none =>
    if h : id ∈ s.scene then (updateItemAndSendUpdate s info h, {})
    else (s, { errorMsg := doesNotExistMsg id })

def appendToItem (s : SceneServer) (info : SceneItemInfo) : SceneServer × Errors :=
  let id := info.idValue
  if hasKey s.scene id then
    if info.geometryInfo.isSome then
      (s, { errorMsg := "Appending geometry is not supported yet" })
    -- the stored item is not touched here, only the stream is
    else (write s (.updateItem info), {})
  else
    let inserted := insertEntry s.scene id info
    let stored := setDisplayDefaults (atKey inserted id (mem_insertEntry s.scene id info))
    (write { s with scene := inserted.insert id stored } (.addItem stored), {})

def requestUpdateScene (s : SceneServer) : SceneUpdateRequest → SceneServer × Errors
  | .safeSetItem info => safeSetItem s info
  | .replaceItem info => replaceItem s info
  | .appendToItem info => appendToItem s info
  | .updateItem _ | .removeItem _ => (s, { errorMsg := "Action not yet handled by server" })
  | .clearAll =>
    let cleared : SceneItems := ∅
    (write { s with scene := cleared } (.resetAllItems cleared), {})
  | .updateNotSet => (s, { errorMsg := "No update set" })

def requestGetAllItems (s : SceneServer) : SceneItems := s.scene

/-- The setter copies the whole map and writes nothing to a stream. -/
def requestSetAllItems (s : SceneServer) (scene : SceneItems) : SceneServer × Errors :=
  ({ s with scene }, {})

def requestSendMessage (s : SceneServer) (message : Message) : SceneServer × Errors :=
  ({ s with messages := s.messages ++ [message]
            messageStream := s.messageStream ++ [message] }, {})

def requestGetAllMessages (s : SceneServer) : List Message := s.messages

end GVS.Server
