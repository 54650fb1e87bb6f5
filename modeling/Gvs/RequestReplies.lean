import Gvs.RequestTable

/-!
# What each request is answered with

The rows of the table in `scene_server.hpp` as statements about the handlers,
and the contract of the reply: an error leaves no trace, a success is
announced by exactly one update.
-/

set_option autoImplicit false

namespace GVS.RequestReplies
open GVS.Proto GVS.ItemDefaults GVS.Server GVS.RequestTable GuardedRuns

def Stores (s : SceneServer) (item : SceneItemInfo) (id : String)
    (reply : SceneServer × Errors) : Prop :=
  reply.2.errorMsg = "" ∧ reply.1.scene = s.scene.insert id item

def Refuses (s : SceneServer) (reply : SceneServer × Errors) : Prop :=
  reply.2.errorMsg ≠ "" ∧ reply.1.scene = s.scene

def PlainRow (s : SceneServer) (info : SceneItemInfo) (reply : SceneServer × Errors) : Prop :=
  info.geometryInfo = none →
    (∀ old, s.scene.lookup info.idValue = some old →
      Stores s (updateDisplayDefaults old info) info.idValue reply) ∧
    (s.scene.lookup info.idValue = none → Refuses s reply)

def SendRow (s : SceneServer) (info : SceneItemInfo) (reply : SceneServer × Errors) : Prop :=
  ∀ geometry, info.geometryInfo = some geometry →
    (∀ old, s.scene.lookup info.idValue = some old → Refuses s reply) ∧
    (s.scene.lookup info.idValue = none →
      Stores s (setDisplayDefaults info) info.idValue reply)

def ReplaceRow (s : SceneServer) (info : SceneItemInfo) (reply : SceneServer × Errors) : Prop :=
  ∀ geometry, info.geometryInfo = some geometry →
    (∀ old, s.scene.lookup info.idValue = some old →
      Stores s (updateDisplayDefaults { old with geometryInfo := some geometry } info)
        info.idValue reply) ∧
    (s.scene.lookup info.idValue = none →
      Stores s (setDisplayDefaults info) info.idValue reply)

def extend {α : Type} (old new : Option (List α)) : Option (List α) :=
  match new with
  | none => old
  | some added => some (old.getD [] ++ added)

def extendGeometry (old new : GeometryInfo3D) : GeometryInfo3D where
  positions := extend old.positions new.positions
  normals := extend old.normals new.normals
  texCoords := extend old.texCoords new.texCoords
  vertexColors := extend old.vertexColors new.vertexColors
  indices := extend old.indices new.indices

def formatOf (info : SceneItemInfo) : Option GeometryFormat :=
  info.displayInfo.bind (·.geometryFormat)

/-- The append row with geometry as the table documents it. -/
def DocumentedAppendRow (s : SceneServer) (info : SceneItemInfo)
    (reply : SceneServer × Errors) : Prop :=
  ∀ geometry, info.geometryInfo = some geometry →
    (∀ old, s.scene.lookup info.idValue = some old →
      (Refuses s reply ∧ ∃ format, formatOf info = some format ∧ formatOf old ≠ some format) ∨
      Stores s (updateDisplayDefaults
        { old with geometryInfo := some (extendGeometry (old.geometryInfo.getD {}) geometry) } info)
        info.idValue reply) ∧
    (s.scene.lookup info.idValue = none →
      Stores s (setDisplayDefaults info) info.idValue reply)

def DocumentedTable (s : SceneServer) (info : SceneItemInfo) : Prop :=
  (SendRow s info (safeSetItem s info) ∧ PlainRow s info (safeSetItem s info)) ∧
  (ReplaceRow s info (replaceItem s info) ∧ PlainRow s info (replaceItem s info)) ∧
  (DocumentedAppendRow s info (appendToItem s info) ∧ PlainRow s info (appendToItem s info))

theorem send_rows (s : SceneServer) (info : SceneItemInfo) :
    SendRow s info (safeSetItem s info) ∧ PlainRow s info (safeSetItem s info) := by
  rw [safeSetItem_eq]
  refine ⟨fun g hg => ⟨fun old hl => ?_, fun hl => ?_⟩,
    fun hg => ⟨fun old hl => ?_, fun hl => ?_⟩⟩
  · simp [verdict, hl, hg, perform, Refuses, alreadyExistsMsg_ne]
  · simp [verdict, hl, hg, perform, Stores, write]
  · simp [verdict, hl, hg, perform, Stores, write, merged]
  · simp [verdict, hl, hg, perform, Refuses, doesNotExistMsg_ne]

theorem replace_rows (s : SceneServer) (info : SceneItemInfo) :
    ReplaceRow s info (replaceItem s info) ∧ PlainRow s info (replaceItem s info) := by
  rw [replaceItem_eq]
  refine ⟨fun g hg => ⟨fun old hl => ?_, fun hl => ?_⟩,
    fun hg => ⟨fun old hl => ?_, fun hl => ?_⟩⟩
  · simp [verdict, hl, hg, perform, Stores, write, merged]
  · simp [verdict, hl, hg, perform, Stores, write]
  · simp [verdict, hl, hg, perform, Stores, write, merged]
  · simp [verdict, hl, hg, perform, Refuses, doesNotExistMsg_ne]

theorem append_rows (s : SceneServer) (info : SceneItemInfo) :
    SendRow s info (appendToItem s info) := by
  rw [appendToItem_eq]
  refine fun g hg => ⟨fun old hl => ?_, fun hl => ?_⟩
  · simp [verdict, hl, hg, perform, Refuses]
  · simp [verdict, hl, hg, perform, Stores, write]

/-- The rows the server implements. Appending geometry to a stored item is
refused, exactly as sending it is. -/
theorem request_table (s : SceneServer) (info : SceneItemInfo) :
    (SendRow s info (safeSetItem s info) ∧ PlainRow s info (safeSetItem s info)) ∧
    (ReplaceRow s info (replaceItem s info) ∧ PlainRow s info (replaceItem s info)) ∧
    SendRow s info (appendToItem s info) :=
  ⟨send_rows s info, replace_rows s info, append_rows s info⟩

def triangleItem : SceneItemInfo where
  id := some ⟨"item"⟩
  geometryInfo := some { positions := some [one, one, one] }

theorem append_geometry_refused :
    Reachable (step {} (.safeSetItem triangleItem)) ∧
    ¬ DocumentedTable (step {} (.safeSetItem triangleItem)) triangleItem := by
  refine ⟨⟨[.safeSetItem triangleItem], rfl⟩, fun h => ?_⟩
  have hl : (step {} (.safeSetItem triangleItem)).scene.lookup triangleItem.idValue =
      some (setDisplayDefaults triangleItem) := by decide
  rcases (h.2.2.1 _ rfl).1 _ hl with ⟨-, format, hf, -⟩ | ⟨he, -⟩
  · cases hf
  · exact absurd he (by decide)

def subject : SceneUpdate → Option String
  | .addItem info | .updateItem info | .removeItem info => some info.idValue
  | .resetAllItems _ | .updateNotSet => none

def Announces (r : SceneUpdateRequest) (u : SceneUpdate) : Prop :=
  (r = .clearAll ∧ u = .resetAllItems ∅) ∨
    ∃ info, requestInfo r = some info ∧ subject u = some info.idValue

def OthersKept (r : SceneUpdateRequest) (before after : SceneItems) : Prop :=
  ∀ info, requestInfo r = some info → ∀ id, id ≠ info.idValue → after.lookup id = before.lookup id

def accepted (s : SceneServer) (r : SceneUpdateRequest) : Bool :=
  (requestUpdateScene s r).2.errorMsg = ""

def acceptedCount : SceneServer → List SceneUpdateRequest → ℕ
  | _, [] => 0
  | s, r::rs => (if accepted s r then 1 else 0) + acceptedCount (step s r) rs

theorem error_silent (s : SceneServer) (r : SceneUpdateRequest)
    (h : (requestUpdateScene s r).2.errorMsg ≠ "") : (requestUpdateScene s r).1 = s := by
  rw [requestUpdateScene_eq] at h ⊢
  cases hv : verdict s.scene r with
  | reject errorMsg => rfl
  | create info => simp [hv, perform] at h
  | merge old info => simp [hv, perform] at h
  | announce old info => simp [hv, perform] at h
  | clear => simp [hv, perform] at h

theorem success_announced (s : SceneServer) (r : SceneUpdateRequest)
    (h : (requestUpdateScene s r).2.errorMsg = "") :
    ∃ u, (requestUpdateScene s r).1.sceneStream = s.sceneStream ++ [u] ∧ Announces r u ∧
      OthersKept r s.scene (requestUpdateScene s r).1.scene := by
  have hj := justified s.scene r
  rw [requestUpdateScene_eq] at h ⊢
  cases hv : verdict s.scene r with
  | reject errorMsg =>
    rw [hv] at hj h
    exact absurd h hj
  | create info =>
    rw [hv] at hj
    refine ⟨_, rfl, Or.inr ⟨info, hj.1, rfl⟩, fun info' hi id hid => ?_⟩
    obtain rfl : info = info' := Option.some.inj (hj.1.symm.trans hi)
    simp [perform, write, hid]
  | merge old info =>
    rw [hv] at hj
    refine ⟨_, rfl, Or.inr ⟨info, hj.1, rfl⟩, fun info' hi id hid => ?_⟩
    obtain rfl : info = info' := Option.some.inj (hj.1.symm.trans hi)
    simp [perform, write, hid]
  | announce old info =>
    rw [hv] at hj
    obtain ⟨rfl, -⟩ := hj
    exact ⟨_, rfl, Or.inr ⟨info, rfl, rfl⟩, fun _ _ _ _ => rfl⟩
  | clear =>
    rw [hv] at hj
    obtain rfl : r = .clearAll := hj
    exact ⟨_, rfl, Or.inl ⟨rfl, rfl⟩, fun _ hi => by cases hi⟩

theorem stream_length (s : SceneServer) (rs : List SceneUpdateRequest) :
    (run step s rs).sceneStream.length = s.sceneStream.length + acceptedCount s rs := by
  induction rs generalizing s with
  | nil => simp [run, acceptedCount]
  | cons r rs ih =>
    rw [run, ih, acceptedCount]
    by_cases h : (requestUpdateScene s r).2.errorMsg = ""
    · obtain ⟨u, hu, -⟩ := success_announced s r h
      simp [step, hu, accepted, h]
      omega
    · simp [step, error_silent s r h, accepted, h]

/-- Failed requests leave no trace and successful ones are announced once, in
every state; a run therefore broadcasts as often as it answers without error. -/
theorem replies_and_broadcasts :
    (∀ s r,
      ((requestUpdateScene s r).2.errorMsg ≠ "" →
        (requestUpdateScene s r).1.scene = s.scene ∧
        (requestUpdateScene s r).1.sceneStream = s.sceneStream) ∧
      ((requestUpdateScene s r).2.errorMsg = "" →
        ∃ u, (requestUpdateScene s r).1.sceneStream = s.sceneStream ++ [u] ∧ Announces r u ∧
          OthersKept r s.scene (requestUpdateScene s r).1.scene)) ∧
    (∀ rs, (run step {} rs).sceneStream.length = acceptedCount {} rs) := by
  refine ⟨fun s r => ⟨fun h => ?_, success_announced s r⟩, fun rs => ?_⟩
  · simp [error_silent s r h]
  · simpa using stream_length {} rs

end GVS.RequestReplies
