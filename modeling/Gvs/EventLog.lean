import Gvs.RequestTable

/-!
# The event-log law

A listener folds the scene updates written so far over the empty map. The
law says the fold is the stored scene. It is compared with the server after
every request of a run, and the requests that keep it are characterized: the
server broadcasts a parent it does not store, and it broadcasts an append
without geometry it does not apply.
-/

set_option autoImplicit false

namespace GVS.EventLog
open GVS.Proto GVS.ItemDefaults GVS.Server GVS.RequestTable GuardedRuns

def overlayItem (old info : SceneItemInfo) : SceneItemInfo where
  id := old.id
  geometryInfo := info.geometryInfo.or old.geometryInfo
  displayInfo :=
    match info.displayInfo with
    | none => old.displayInfo
    | some display => some (copyPresentFields (old.displayInfo.getD {}) display)
  parent := info.parent.or old.parent

def replayUpdate (items : SceneItems) : SceneUpdate → SceneItems
  | .addItem info => items.insert info.idValue info
  | .updateItem info =>
    match items.lookup info.idValue with
    | none => items
    | some old => items.insert info.idValue (overlayItem old info)
  | .removeItem _ | .updateNotSet => items
  | .resetAllItems all => all

def replay (updates : List SceneUpdate) : SceneItems := updates.foldl replayUpdate ∅

def EventLaw (s : SceneServer) : Prop := s.scene = replay s.sceneStream

theorem replay_concat (updates : List SceneUpdate) (u : SceneUpdate) :
    replay (updates ++ [u]) = replayUpdate (replay updates) u := by
  simp [replay]

/-- Overlaying and the server's merge differ in the parent only. -/
theorem overlayItem_eq_merged (old info : SceneItemInfo) :
    overlayItem old info = { merged old info with parent := info.parent.or old.parent } := by
  cases hd : info.displayInfo <;> simp [overlayItem, merged, updateDisplayDefaults, hd]

theorem merged_parent (old info : SceneItemInfo) : (merged old info).parent = old.parent := by
  simp [merged]

theorem merged_eq_overlayItem_iff (old info : SceneItemInfo) :
    merged old info = overlayItem old info ↔ info.parent.or old.parent = old.parent := by
  rw [overlayItem_eq_merged]
  constructor
  · intro h
    have hp := congrArg SceneItemInfo.parent h
    rw [merged_parent] at hp
    exact hp.symm
  · intro h
    rw [h, ← merged_parent old info]

theorem eq_insert_iff {items : SceneItems} {id : String} {old new : SceneItemInfo}
    (hl : items.lookup id = some old) : items = items.insert id new ↔ new = old := by
  constructor
  · intro h
    have hn := congrArg (Finmap.lookup id) h
    rw [hl, Finmap.lookup_insert] at hn
    exact (Option.some.inj hn).symm
  · rintro rfl
    apply Finmap.ext_lookup
    intro k
    by_cases hk : k = id
    · subst k
      rw [hl, Finmap.lookup_insert]
    · rw [Finmap.lookup_insert_of_ne _ hk]

/-- What a request must satisfy for the law to survive it: an update of a
stored item names the stored parent or none, and an append without geometry
repeats what is stored. -/
def Replayable (s : SceneServer) (r : SceneUpdateRequest) : Prop :=
  match verdict s.scene r with
  | .merge old info => info.parent.or old.parent = old.parent
  | .announce old info => overlayItem old info = old
  | .reject _ | .create _ | .clear => True

theorem eventLaw_step (s : SceneServer) (r : SceneUpdateRequest) (h : EventLaw s) :
    EventLaw (step s r) ↔ Replayable s r := by
  have hj := justified s.scene r
  unfold Replayable
  rw [step_eq]
  unfold EventLaw at h
  cases hv : verdict s.scene r with
  | reject errorMsg => simpa [perform, EventLaw] using h
  | create info =>
    simp [perform, EventLaw, write, replay_concat, replayUpdate, ← h]
  | merge old info =>
    rw [hv] at hj
    simp only [perform, EventLaw, write, replay_concat, replayUpdate, ← h, hj.2.1]
    rw [insert_inj, merged_eq_overlayItem_iff]
  | announce old info =>
    rw [hv] at hj
    simp only [perform, EventLaw, write, replay_concat, replayUpdate, ← h, hj.2.1]
    rw [eq_insert_iff hj.2.1]
  | clear => simp [perform, EventLaw, write, replay_concat, replayUpdate]

/-- The law holds after every request of a run exactly when every request of
the run is replayable in the state it finds. -/
theorem event_law (rs : List SceneUpdateRequest) :
    Everywhere step EventLaw {} rs ↔ Along step Replayable {} rs := by
  have h0 : EventLaw {} := rfl
  exact everywhere_iff_along step (fun _ => True) (fun _ _ _ => trivial)
    (fun s r _ h => eventLaw_step s r h) trivial h0 rs

def pointItem : SceneItemInfo where
  id := some ⟨"item"⟩
  geometryInfo := some { positions := some [one, one, one] }

def recolored : SceneItemInfo where
  id := some ⟨"item"⟩
  displayInfo := some { coloring := some .white }

theorem append_breaks_event_law :
    ¬ EventLaw (run step {} [.safeSetItem pointItem, .appendToItem recolored]) := by
  unfold EventLaw
  decide

end GVS.EventLog
