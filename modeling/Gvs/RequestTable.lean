import Gvs.GuardedRuns
import Gvs.Server

/-!
# The request table

An abstract server decides each request from two facts, whether the id is
stored and whether geometry was sent, and then performs one of five actions.
The handlers of the source refine it. Every later statement about the server
is a statement about one of the five actions.
-/

set_option autoImplicit false

namespace GVS.RequestTable
open GVS.Proto GVS.ItemDefaults GVS.Server GuardedRuns

inductive Verdict where
  | reject (errorMsg : String)
  | create (info : SceneItemInfo)
  | merge (old info : SceneItemInfo)
  | announce (old info : SceneItemInfo)
  | clear

def verdict (scene : SceneItems) : SceneUpdateRequest → Verdict
  | .safeSetItem info =>
    match scene.lookup info.idValue, info.geometryInfo with
    | some _, some _ => .reject (alreadyExistsMsg info.idValue)
    | none, some _ => .create info
    | some old, none => .merge old info
    | none, none => .reject (doesNotExistMsg info.idValue)
  | .replaceItem info =>
    match scene.lookup info.idValue, info.geometryInfo with
    | some old, _ => .merge old info
    | none, some _ => .create info
    | none, none => .reject (doesNotExistMsg info.idValue)
  | .appendToItem info =>
    match scene.lookup info.idValue, info.geometryInfo with
    | some _, some _ => .reject "Appending geometry is not supported yet"
    | some old, none => .announce old info
    | none, _ => .create info
  | .updateItem _ | .removeItem _ => .reject "Action not yet handled by server"
  | .clearAll => .clear
  | .updateNotSet => .reject "No update set"

/-- The stored item after an update: new geometry replaces the old one as a
whole, display fields are merged one by one, id and parent stay. -/
def merged (old info : SceneItemInfo) : SceneItemInfo :=
  updateDisplayDefaults { old with geometryInfo := info.geometryInfo.or old.geometryInfo } info

def perform (s : SceneServer) : Verdict → SceneServer × Errors
  | .reject errorMsg => (s, { errorMsg })
  | .create info =>
    (write { s with scene := s.scene.insert info.idValue (setDisplayDefaults info) }
      (.addItem (setDisplayDefaults info)), {})
  | .merge old info =>
    (write { s with scene := s.scene.insert info.idValue (merged old info) }
      (.updateItem info), {})
  | .announce _ info => (write s (.updateItem info), {})
  | .clear => (write { s with scene := ∅ } (.resetAllItems ∅), {})

theorem atKey_eq {items : SceneItems} {id : String} {info : SceneItemInfo}
    (hl : items.lookup id = some info) (h : id ∈ items) : atKey items id h = info := by
  simp [atKey, hl]

theorem mem_of_lookup {items : SceneItems} {id : String} {info : SceneItemInfo}
    (hl : items.lookup id = some info) : id ∈ items := Finmap.mem_of_lookup_eq_some hl

theorem addItemAndSendUpdate_eq (s : SceneServer) (info : SceneItemInfo)
    (h : s.scene.lookup info.idValue = none) :
    addItemAndSendUpdate s info = (perform s (.create info)).1 := by
  have hn : info.idValue ∉ s.scene := Finmap.lookup_eq_none.mp h
  have hi : insertEntry s.scene info.idValue info = s.scene.insert info.idValue info := by
    simp [insertEntry, hasKey, hn]
  have ha : atKey (insertEntry s.scene info.idValue info) info.idValue
      (mem_insertEntry s.scene info.idValue info) = info :=
    atKey_eq (by rw [hi, Finmap.lookup_insert]) _
  simp only [addItemAndSendUpdate, ha]
  simp only [hi, Finmap.insert_insert, perform]

theorem updateItemAndSendUpdate_eq (s : SceneServer) (old info : SceneItemInfo)
    (hl : s.scene.lookup info.idValue = some old) (h : info.idValue ∈ s.scene) :
    updateItemAndSendUpdate s info h =
      write { s with scene := s.scene.insert info.idValue (updateDisplayDefaults old info) }
        (.updateItem info) := by
  simp only [updateItemAndSendUpdate, atKey_eq hl h]

theorem safeSetItem_eq (s : SceneServer) (info : SceneItemInfo) :
    safeSetItem s info = perform s (verdict s.scene (.safeSetItem info)) := by
  cases hl : s.scene.lookup info.idValue with
  | none =>
    have hn : info.idValue ∉ s.scene := Finmap.lookup_eq_none.mp hl
    cases hg : info.geometryInfo with
    | none => simp [safeSetItem, verdict, perform, hl, hg, hn]
    | some g =>
      simp [safeSetItem, verdict, hl, hg, hn, hasKey, addItemAndSendUpdate_eq s info hl, perform]
  | some old =>
    have hm : info.idValue ∈ s.scene := mem_of_lookup hl
    cases hg : info.geometryInfo with
    | none =>
      simp [safeSetItem, verdict, hl, hg, hm, perform, merged,
        updateItemAndSendUpdate_eq s old info hl hm]
    | some g => simp [safeSetItem, verdict, perform, hl, hg, hm, hasKey]

theorem replaceItem_eq (s : SceneServer) (info : SceneItemInfo) :
    replaceItem s info = perform s (verdict s.scene (.replaceItem info)) := by
  cases hl : s.scene.lookup info.idValue with
  | none =>
    have hn : info.idValue ∉ s.scene := Finmap.lookup_eq_none.mp hl
    cases hg : info.geometryInfo with
    | none => simp [replaceItem, verdict, perform, hl, hg, hn]
    | some g =>
      simp [replaceItem, verdict, hl, hg, hn, addItemAndSendUpdate_eq s info hl, perform]
  | some old =>
    have hm : info.idValue ∈ s.scene := mem_of_lookup hl
    cases hg : info.geometryInfo with
    | none =>
      simp [replaceItem, verdict, hl, hg, hm, perform, merged,
        updateItemAndSendUpdate_eq s old info hl hm]
    | some g =>
      -- the geometry is stored first, so the merge reads an item that already has it
      have hu := updateItemAndSendUpdate_eq
        { s with scene := s.scene.insert info.idValue { old with geometryInfo := some g } }
        { old with geometryInfo := some g } info (Finmap.lookup_insert _)
        (mem_insert_self s.scene info.idValue _)
      simp [replaceItem, verdict, hl, hg, hm, perform, merged, atKey_eq hl hm, hu]

theorem appendToItem_eq (s : SceneServer) (info : SceneItemInfo) :
    appendToItem s info = perform s (verdict s.scene (.appendToItem info)) := by
  cases hl : s.scene.lookup info.idValue with
  | none =>
    have hn : info.idValue ∉ s.scene := Finmap.lookup_eq_none.mp hl
    have ha := addItemAndSendUpdate_eq s info hl
    simp only [addItemAndSendUpdate] at ha
    simp [appendToItem, verdict, hl, hn, hasKey, ha, perform]
  | some old =>
    have hm : info.idValue ∈ s.scene := mem_of_lookup hl
    cases hg : info.geometryInfo with
    | none => simp [appendToItem, verdict, perform, hl, hg, hm, hasKey]
    | some g => simp [appendToItem, verdict, perform, hl, hg, hm, hasKey]

/-- The three handlers and the dispatch refine the table. -/
theorem requestUpdateScene_eq (s : SceneServer) (r : SceneUpdateRequest) :
    requestUpdateScene s r = perform s (verdict s.scene r) := by
  cases r with
  | safeSetItem info => exact safeSetItem_eq s info
  | replaceItem info => exact replaceItem_eq s info
  | appendToItem info => exact appendToItem_eq s info
  | updateItem info => rfl
  | removeItem info => rfl
  | clearAll => rfl
  | updateNotSet => rfl

def requestInfo : SceneUpdateRequest → Option SceneItemInfo
  | .safeSetItem info | .replaceItem info | .appendToItem info => some info
  | .updateItem info | .removeItem info => some info
  | .clearAll | .updateNotSet => none

def Justified (scene : SceneItems) (r : SceneUpdateRequest) : Verdict → Prop
  | .reject errorMsg => errorMsg ≠ ""
  | .create info => requestInfo r = some info ∧ scene.lookup info.idValue = none ∧
      (info.geometryInfo.isSome ∨ r = .appendToItem info)
  | .merge old info => requestInfo r = some info ∧ scene.lookup info.idValue = some old ∧
      r ≠ .appendToItem info
  | .announce old info => r = .appendToItem info ∧ scene.lookup info.idValue = some old ∧
      info.geometryInfo = none
  | .clear => r = .clearAll

theorem alreadyExistsMsg_ne (id : String) : alreadyExistsMsg id ≠ "" := by
  simp [alreadyExistsMsg]

theorem doesNotExistMsg_ne (id : String) : doesNotExistMsg id ≠ "" := by
  simp [doesNotExistMsg]

theorem justified (scene : SceneItems) (r : SceneUpdateRequest) :
    Justified scene r (verdict scene r) := by
  cases r with
  | safeSetItem info =>
    cases hl : scene.lookup info.idValue <;> cases hg : info.geometryInfo <;>
      simp [verdict, Justified, requestInfo, hl, hg, alreadyExistsMsg_ne, doesNotExistMsg_ne]
  | replaceItem info =>
    cases hl : scene.lookup info.idValue <;> cases hg : info.geometryInfo <;>
      simp [verdict, Justified, requestInfo, hl, hg, doesNotExistMsg_ne]
  | appendToItem info =>
    cases hl : scene.lookup info.idValue <;> cases hg : info.geometryInfo <;>
      simp [verdict, Justified, requestInfo, hl, hg]
  | updateItem info => simp [verdict, Justified]
  | removeItem info => simp [verdict, Justified]
  | clearAll => rfl
  | updateNotSet => simp [verdict, Justified]

def step (s : SceneServer) (r : SceneUpdateRequest) : SceneServer := (requestUpdateScene s r).1

def Reachable (s : SceneServer) : Prop := ∃ rs, run step {} rs = s

theorem step_eq (s : SceneServer) (r : SceneUpdateRequest) :
    step s r = (perform s (verdict s.scene r)).1 := by rw [step, requestUpdateScene_eq]

end GVS.RequestTable
