import Gvs.ViewerSafety

/-!
# Live and late viewers look the same

The server merges display fields into a stored item and broadcasts the raw
request; a live viewer overlays the request, a late one overlays the merged
item. Overlaying a merge is overlaying twice, so both viewers show the items
of the scene after every run of requests that pass the viewers' checks. All
items of a live viewer then hang below the root, so no clear finds it moved.
-/

set_option autoImplicit false

namespace GVS.ViewerAppearance
open GVS.Proto GVS.ItemDefaults GVS.Server GVS.RequestTable GuardedRuns
open GVS.Vis GVS.SceneBooks GVS.Wiring GVS.Display GVS.Resetting GVS.Anchors GVS.Viewers
open GVS.ViewerSafety GVS.Views

def Admissible (s : SceneServer) : SceneUpdateRequest → Prop
  | .safeSetItem info | .replaceItem info => ParentKnown s.scene info ∧ Loadable info
  | .clearAll => True
  | .appendToItem _ | .updateItem _ | .removeItem _ | .updateNotSet => False

theorem admissible_info {s : SceneServer} {r : SceneUpdateRequest} (h : Admissible s r)
    {info : SceneItemInfo} (hr : requestInfo r = some info) :
    ParentKnown s.scene info ∧ Loadable info := by
  cases r with
  | safeSetItem given =>
    cases hr
    exact h
  | replaceItem given =>
    cases hr
    exact h
  | clearAll => cases hr
  | appendToItem given => exact h.elim
  | updateItem given => exact h.elim
  | removeItem given => exact h.elim
  | updateNotSet => exact h.elim

theorem admissible_not_append {s : SceneServer} {r : SceneUpdateRequest} (h : Admissible s r)
    (info : SceneItemInfo) : r ≠ .appendToItem info := by
  rintro rfl
  exact h

theorem admissible_viewerSafe {s : SceneServer} {r : SceneUpdateRequest} (h : Admissible s r) :
    ViewerSafe s r := by
  have hj := justified s.scene r
  unfold ViewerSafe
  cases hv : verdict s.scene r with
  | reject errorMsg => trivial
  | create info =>
    rw [hv] at hj
    obtain ⟨hparent, hload⟩ := admissible_info h hj.1
    refine ⟨?_, hload, Or.inr hparent⟩
    rcases hj.2.2 with hg | hr
    · exact hg
    · exact absurd hr (admissible_not_append h info)
  | merge old info =>
    rw [hv] at hj
    exact (admissible_info h hj.1).symm
  | announce old info =>
    rw [hv] at hj
    exact absurd hj.1 (admissible_not_append h info)
  | clear => trivial

theorem viewerSafe_of_admissible {s : SceneServer} {rs : List SceneUpdateRequest}
    (h : Along step Admissible s rs) : Along step ViewerSafe s rs :=
  along_mono step (fun _ _ => admissible_viewerSafe) h

theorem not_announced {scene : SceneItems} {r : SceneUpdateRequest}
    (h : ∀ info, r ≠ .appendToItem info) (old info : SceneItemInfo) :
    verdict scene r ≠ .announce old info := by
  intro hv
  have hj := justified scene r
  rw [hv] at hj
  exact h info hj.1

/-- The broadcasts of a request that passes the viewers' checks turn the view
of the scene before it into the view of the scene after it. An append to a
stored item does not: it is announced and not stored. -/
theorem itemsView_step {s : SceneServer} {r : SceneUpdateRequest} (h : ViewerSafe s r)
    (hn : ∀ old info, verdict s.scene r ≠ .announce old info) :
    run applyView (itemsView s.scene) (broadcast s r) = itemsView (step s r).scene := by
  have hj := justified s.scene r
  unfold ViewerSafe at h
  unfold broadcast
  rw [step_eq]
  cases hv : verdict s.scene r with
  | reject errorMsg => rfl
  | create info =>
    rw [hv] at hj
    have hfresh : (itemsView s.scene info.idValue).getD freshDisplay = freshDisplay := by
      rw [itemsView_absent hj.2.1, emptyView_getD]
    show applyView (itemsView s.scene) (.addItem (setDisplayDefaults info)) =
      itemsView (s.scene.insert info.idValue (setDisplayDefaults info))
    rw [itemsView_insert, applyView, setDisplayDefaults_idValue, hfresh]
  | merge old info =>
    rw [hv] at hj h
    have hf := formatKnown_of_valid h.1.1
    show applyView (itemsView s.scene) (.updateItem info) =
      itemsView (s.scene.insert info.idValue (merged old info))
    rw [itemsView_insert, applyView, displayOf_merged, overlay_copy hf, itemsView, hj.2.1]
    rfl
  | announce old info => exact absurd hv (hn old info)
  | clear => rfl

structure Shows (s : SceneServer) (t : OpenGLScene) : Prop where
  wired : Wired (books t)
  shown : displayState t = itemsView s.scene

theorem shows_construct : Shows {} construct := ⟨wired_construct, funext construct_shown⟩

theorem Shows.tracks {s : SceneServer} {t : OpenGLScene} (h : Shows s t) : Tracks s t :=
  tracks_of_shown h.wired (congrFun h.shown)

theorem shows_step (order : MapOrder) {s : SceneServer} {r : SceneUpdateRequest}
    {t : OpenGLScene} (h : Shows s t) (htop : RootOnTop t) (hg : Admissible s r) :
    ∃ t', Vis.update order t (broadcast s r) = .done t' ∧ Shows (step s r) t' := by
  have hsafe := admissible_viewerSafe hg
  obtain ⟨t', hd⟩ := (Outcome.returns_iff _).mp
    ((tracks_returns order h.tracks r).mpr ⟨hsafe, fun _ => htop⟩)
  obtain ⟨hw, hv⟩ := update_done order h.wired (broadcast_plain s r) hd
  exact ⟨t', hd, hw, by rw [hv, h.shown, itemsView_step hsafe (not_announced (admissible_not_append hg))]⟩

/-- The parents of admissible requests hang below the root, so their items do. -/
theorem gathered_step (order : MapOrder) {s : SceneServer} {r : SceneUpdateRequest}
    {t t' : OpenGLScene} (ht : Tracks s t) (h : Gathered (books t)) (hg : Admissible s r)
    (hd : Vis.update order t (broadcast s r) = .done t') : Gathered (books t') := by
  have hj := justified s.scene r
  unfold broadcast at hd
  cases hv : verdict s.scene r with
  | reject errorMsg =>
    rw [hv] at hd
    cases hd
    exact h
  | create info =>
    rw [hv] at hj hd
    rw [update_singleton] at hd
    have hparent : (t.objects (setDisplayDefaults info).parentValue).isSome :=
      (ht.known _).mpr (admissible_info hg hj.1).1
    exact gathered_addItem ht.wired h hparent hd
  | merge old info =>
    rw [hv, update_singleton] at hd
    exact gathered_updateItem ht.wired h hd
  | announce old info =>
    rw [hv, update_singleton] at hd
    exact gathered_updateItem ht.wired h hd
  | clear =>
    rw [hv, update_singleton, applyUpdate,
      reset_empty order (rootOnTop_of_anchored h.anchored)] at hd
    cases hd
    exact gathered_freshRoot _

structure Grown (s : SceneServer) (t : OpenGLScene) : Prop where
  shows : Shows s t
  gathered : Gathered (books t)

theorem grown_construct : Grown {} construct := ⟨shows_construct, gathered_freshRoot {}⟩

theorem grown_step (order : MapOrder) (s : SceneServer) (r : SceneUpdateRequest)
    (t : OpenGLScene) (h : Grown s t) (hg : Admissible s r) :
    ∃ t', Vis.update order t (broadcast s r) = .done t' ∧ Grown (step s r) t' := by
  obtain ⟨t', hd, hshows⟩ :=
    shows_step order h.shows (rootOnTop_of_anchored h.gathered.anchored) hg
  exact ⟨t', hd, hshows, gathered_step order h.shows.tracks h.gathered hg hd⟩

theorem grown_run (order : MapOrder) {rs : List SceneUpdateRequest}
    (h : Along step Admissible {} rs) :
    ∃ t, liveViewer order (run step {} rs) = .done t ∧ Grown (run step {} rs) t := by
  rw [liveViewer_run]
  exact viewer_simulation order (grown_step order) grown_construct h

/-- A live viewer and a late viewer show every item in the same way, in
whatever orders they iterate their maps. -/
theorem viewers_agree_on_appearance (order order' : MapOrder) (rs : List SceneUpdateRequest)
    (h : Along step Admissible {} rs) :
    ∃ live late, liveViewer order (run step {} rs) = .done live ∧
      lateViewer order' (run step {} rs) = .done late ∧
      ∀ id, displayState live id = displayState late id := by
  obtain ⟨live, hlive, hgrown⟩ := grown_run order h
  obtain ⟨late, hlate, -, hshow⟩ := reset_shown order' wired_construct rootOnTop_construct
    (loadableItems_run (viewerSafe_of_admissible h))
  exact ⟨live, late, hlive, hlate, fun id => by rw [hgrown.shows.shown, hshow]⟩

def shapedItem : SceneItemInfo where
  id := some ⟨"item"⟩
  geometryInfo := some { positions := some [one, one, one] }

def recolored : SceneItemInfo where
  id := some ⟨"item"⟩
  displayInfo := some { coloring := some .white }

def recoloring : List SceneUpdateRequest :=
  [.safeSetItem shapedItem, .safeSetItem recolored, .replaceItem shapedItem]

theorem recoloring_admissible : Along step Admissible {} recoloring :=
  ⟨⟨Or.inl rfl, rfl, rfl⟩, ⟨Or.inl rfl, rfl, rfl⟩, ⟨Or.inl rfl, rfl, rfl⟩, trivial⟩

theorem viewers_agree_on_recoloring :
    ∃ live late, liveViewer entryOrder (run step {} recoloring) = .done live ∧
      lateViewer entryOrder (run step {} recoloring) = .done late ∧
      ∀ id, displayState live id = displayState late id :=
  viewers_agree_on_appearance entryOrder entryOrder recoloring recoloring_admissible

end GVS.ViewerAppearance
