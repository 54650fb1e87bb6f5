import Gvs.ResetOrder

/-!
# Setting all items at once

A client connects, which is one `reset` to the stored scene, and replays what
is broadcast while other clients update the scene or set all of its items.
Setting all items stores the given messages as they are and broadcasts
nothing, so the client keeps up only where that changes nothing to see, and
the items have the defaults of created items only where they already had.
-/

set_option autoImplicit false

namespace GVS.BulkSet
open GVS.Proto GVS.ItemDefaults GVS.Server GVS.RequestTable GuardedRuns
open GVS.Vis GVS.SceneBooks GVS.Wiring GVS.Display GVS.Resetting GVS.Anchors GVS.Viewers
open GVS.ViewerSafety GVS.Views GVS.ViewerAppearance GVS.VertexLayout GVS.DrawStates GVS.ResetOrder

inductive ServerCall where
  | updateScene (r : SceneUpdateRequest)
  | setAllItems (items : SceneItems)

def answer (s : SceneServer) : ServerCall → SceneServer
  | .updateScene r => (requestUpdateScene s r).1
  | .setAllItems items => (requestSetAllItems s items).1

def completedItems (items : SceneItems) : SceneItems where
  entries := items.entries.map fun e => ⟨e.1, setDisplayDefaults e.2⟩
  nodupKeys := by
    have hkeys : (items.entries.map fun e => (⟨e.1, setDisplayDefaults e.2⟩ :
        Sigma fun _ : String => SceneItemInfo)).keys = items.entries.keys := by
      simp [Multiset.keys]
    rw [← Multiset.nodup_keys, hkeys]
    exact items.nodupKeys.nodup_keys

/-- The scene as it would be if items that are set had been created. -/
def created (scene : SceneItems) : ServerCall → SceneItems
  | .updateScene r => (requestUpdateScene { scene } r).1.scene
  | .setAllItems items => completedItems items

/-- The server, the scene of a server that creates the items it is set to, and
a client of the server. -/
structure Connection where
  server : SceneServer
  itemwise : SceneItems
  client : Outcome Failure OpenGLScene

def connect (order : MapOrder) (s : SceneServer) : Connection where
  server := s
  itemwise := s.scene
  client := reset order construct s.scene

def act (order : MapOrder) (c : Connection) (call : ServerCall) : Connection where
  server := answer c.server call
  itemwise := created c.itemwise call
  client := c.client.andThen fun t =>
    Vis.update order t ((answer c.server call).sceneStream.drop c.server.sceneStream.length)

/-- The client has the items, the display state and the geometry of a client
that resets now, the keys are the ids, and every item is as if created. -/
structure Agrees (order : MapOrder) (c : Connection) : Prop where
  viewers : ∃ live late, c.client = .done live ∧ lateViewer order c.server = .done late ∧
    (∀ id, (live.objects id).isSome = (late.objects id).isSome) ∧
    (∀ id, displayState live id = displayState late id) ∧ ∀ id, draws live id = draws late id
  filed : ∀ id info, c.server.scene.lookup id = some info → info.idValue = id
  completed : c.server.scene = c.itemwise

def Covered (s : SceneServer) (r : SceneUpdateRequest) : Prop :=
  match verdict s.scene r with
  | .merge old info => ∀ older newer, old.geometryInfo = some older →
      info.geometryInfo = some newer → Covers older newer
  | .reject _ | .create _ | .announce _ _ | .clear => True

def Silent (s : SceneServer) (r : SceneUpdateRequest) : Prop :=
  match verdict s.scene r with
  | .announce _ info =>
    (itemsView s.scene info.idValue).map (overlayDisplay (displayOf info)) =
      itemsView s.scene info.idValue
  | .reject _ | .create _ | .merge _ _ | .clear => True

/-- The calls that keep a client and the scene in step: items are only set to
complete and loadable ones that look like the stored ones, and a clear finds
the root of the client in its place. -/
def Guarded (c : Connection) : ServerCall → Prop
  | .updateScene r => ViewerSafe c.server r ∧ Silent c.server r ∧ Covered c.server r ∧
      (r = .clearAll → ∀ t, c.client = .done t → RootOnTop t)
  | .setAllItems items => LoadableItems items ∧ itemsView items = itemsView c.server.scene ∧
      itemsDraw items = itemsDraw c.server.scene ∧
      ∀ id info, items.lookup id = some info → setDisplayDefaults info = info

section Completing

theorem completedItems_lookup (items : SceneItems) (id : String) :
    (completedItems items).lookup id = (items.lookup id).map setDisplayDefaults := by
  ext info
  rw [← Option.mem_def, Finmap.mem_lookup_iff, Option.map_eq_some_iff]
  simp only [completedItems, Multiset.mem_map]
  constructor
  · rintro ⟨⟨key, given⟩, hmem, hpair⟩
    cases hpair
    exact ⟨given, Finmap.mem_lookup_iff.mpr hmem, rfl⟩
  · rintro ⟨given, hlookup, rfl⟩
    exact ⟨⟨id, given⟩, Finmap.mem_lookup_iff.mp hlookup, rfl⟩

theorem completedItems_eq_iff (items : SceneItems) :
    items = completedItems items ↔
      ∀ id info, items.lookup id = some info → setDisplayDefaults info = info := by
  constructor
  · intro h id info hlookup
    have hid := completedItems_lookup items id
    rw [← h, hlookup, Option.map_some, Option.some.injEq] at hid
    exact hid.symm
  · intro h
    apply Finmap.ext_lookup
    intro id
    rw [completedItems_lookup]
    cases hlookup : items.lookup id with
    | none => rfl
    | some info => rw [Option.map_some, h id info hlookup]

/-- An item that `safe_set_item` creates is completed the same way. -/
theorem created_completed (s : SceneServer) {info : SceneItemInfo}
    (hgeometry : info.geometryInfo.isSome) (hfree : s.scene.lookup info.idValue = none) :
    (safeSetItem s info).1.scene = s.scene.insert info.idValue (setDisplayDefaults info) := by
  obtain ⟨geometry, hg⟩ := Option.isSome_iff_exists.mp hgeometry
  rw [safeSetItem_eq, verdict, hfree, hg]
  rfl

theorem scene_step (s : SceneServer) (r : SceneUpdateRequest) :
    (requestUpdateScene { scene := s.scene } r).1.scene = (step s r).scene := by
  rw [requestUpdateScene_eq, step_eq]
  cases verdict s.scene r <;> rfl

end Completing

section Drawing

theorem itemsDraw_insert (items : SceneItems) (key : String) (info : SceneItemInfo) :
    itemsDraw (items.insert key info) =
      Function.update (itemsDraw items) key (some (redrawn info freshDraw)) := by
  ext1 id
  unfold itemsDraw
  rw [lookup_insert_ite, Function.update_apply]
  by_cases hid : id = key <;> simp [hid]

theorem itemsDraw_absent {items : SceneItems} {id : String} (h : items.lookup id = none) :
    (itemsDraw items id).getD freshDraw = freshDraw := by
  unfold itemsDraw
  rw [h]
  by_cases hid : id = "" <;> simp [hid]

theorem redrawn_merged_iff (old info : SceneItemInfo) :
    redrawn info (redrawn old freshDraw) = redrawn (merged old info) freshDraw ↔
      ∀ older newer, old.geometryInfo = some older → info.geometryInfo = some newer →
        Covers older newer := by
  have hmerged : (merged old info).geometryInfo = info.geometryInfo.or old.geometryInfo := by
    simp [merged]
  unfold redrawn
  rw [hmerged]
  cases hi : info.geometryInfo with
  | none => simp
  | some newer =>
    simp only [Option.some_or, redraw_fresh_iff]
    cases ho : old.geometryInfo with
    | none => simpa using (nothingStale_iff [] newer)
    | some older => simpa using (nothingStale_iff [older] newer)

/-- After a broadcast that its client survives, the client draws what is
stored exactly when no geometry leaves anything of the one before. -/
theorem drawn_step (order : MapOrder) {s : SceneServer} {r : SceneUpdateRequest}
    {t t' : OpenGLScene} (ht : Wired (books t)) (hdrawn : draws t = itemsDraw s.scene)
    (hd : Vis.update order t (broadcast s r) = .done t') :
    draws t' = itemsDraw (step s r).scene ↔ Covered s r := by
  have hj := justified s.scene r
  unfold Covered
  unfold broadcast at hd
  rw [step_eq]
  cases hv : verdict s.scene r with
  | reject errorMsg =>
    rw [hv] at hd
    cases hd
    exact iff_of_true hdrawn trivial
  | create info =>
    rw [hv] at hj hd
    rw [update_singleton] at hd
    apply iff_of_true
    · ext1 id
      show draws t' id = itemsDraw (s.scene.insert info.idValue (setDisplayDefaults info)) id
      rw [draws_observes.addItem ht hd, itemsDraw_insert, Function.update_apply, hdrawn]
      by_cases hid : id = info.idValue
      · rw [hid, setDisplayDefaults_idValue, itemsDraw_absent hj.2.1]
      · rw [setDisplayDefaults_idValue, if_neg hid, if_neg hid]
    · trivial
  | merge old info =>
    rw [hv] at hj hd
    rw [update_singleton] at hd
    refine Iff.trans ?_ (redrawn_merged_iff old info)
    show draws t' = itemsDraw (s.scene.insert info.idValue (merged old info)) ↔ _
    rw [itemsDraw_insert, funext (updateItem_draws ht hd), hdrawn]
    have hold : itemsDraw s.scene info.idValue = some (redrawn old freshDraw) := by
      rw [itemsDraw, hj.2.1]
    constructor
    · intro h
      simpa [hold] using congrFun h info.idValue
    · intro h
      ext1 id
      by_cases hid : id = info.idValue <;> simp [hid, hold, h]
  | announce old info =>
    rw [hv] at hj hd
    rw [update_singleton] at hd
    apply iff_of_true
    · have hsame : ∀ d, redrawn info d = d := by
        intro d
        rw [redrawn, hj.2.2]
      ext1 id
      show draws t' id = itemsDraw s.scene id
      rw [updateItem_draws ht hd, hdrawn]
      simp only [Option.map_congr fun d _ => hsame d, Option.map_id', ite_self]
    · trivial
  | clear =>
    rw [hv] at hd
    rw [update_singleton] at hd
    have hfiled : ∀ id info, (∅ : SceneItems).lookup id = some info → info.idValue = id := by simp
    exact iff_of_true (funext (reset_draws order ht hfiled hd)) trivial

theorem shown_step (order : MapOrder) {s : SceneServer} {r : SceneUpdateRequest}
    {t t' : OpenGLScene} (ht : Wired (books t)) (hshown : displayState t = itemsView s.scene)
    (hsafe : ViewerSafe s r) (hd : Vis.update order t (broadcast s r) = .done t') :
    displayState t' = itemsView (step s r).scene ↔ Silent s r := by
  obtain ⟨-, hv'⟩ := update_done order ht (broadcast_plain s r) hd
  rw [hv', hshown]
  unfold Silent
  cases hv : verdict s.scene r with
  | announce old info =>
    have hstep : (step s r).scene = s.scene := by
      rw [step_eq, hv]
      rfl
    rw [hstep, broadcast, hv]
    show applyView (itemsView s.scene) (.updateItem info) = _ ↔ _
    rw [applyView]
    exact Function.update_eq_self_iff
  | reject errorMsg => exact iff_of_true (itemsView_step hsafe (by simp [hv])) trivial
  | create info => exact iff_of_true (itemsView_step hsafe (by simp [hv])) trivial
  | merge old info => exact iff_of_true (itemsView_step hsafe (by simp [hv])) trivial
  | clear => exact iff_of_true (itemsView_step hsafe (by simp [hv])) trivial

end Drawing

section Connections

structure Current (c : Connection) (t : OpenGLScene) : Prop where
  client : c.client = .done t
  wired : Wired (books t)
  loadable : LoadableItems c.server.scene
  shown : displayState t = itemsView c.server.scene
  drawn : draws t = itemsDraw c.server.scene
  completed : c.server.scene = c.itemwise

theorem reset_current (order : MapOrder) {items : SceneItems} (h : LoadableItems items) :
    ∃ late, reset order construct items = .done late ∧ Wired (books late) ∧
      displayState late = itemsView items ∧ draws late = itemsDraw items := by
  obtain ⟨late, hlate, hw, hshown⟩ := reset_shown order wired_construct rootOnTop_construct h
  exact ⟨late, hlate, hw, funext hshown,
    funext (reset_draws order wired_construct (filed_of_loadable h) hlate)⟩

theorem agrees_iff (order : MapOrder) {c : Connection} {t : OpenGLScene}
    (hclient : c.client = .done t) (hw : Wired (books t)) : Agrees order c ↔ Current c t := by
  constructor
  · rintro ⟨⟨live, late, hlive, hlate, -, hshown, hdrawn⟩, hfiled, hcompleted⟩
    rw [hclient] at hlive
    cases hlive
    have hload := (reset_returns order wired_construct rootOnTop_construct hfiled).mp
      ((Outcome.returns_iff _).mpr ⟨late, hlate⟩)
    obtain ⟨late', hlate', -, hshown', hdrawn'⟩ := reset_current order hload
    rw [lateViewer, hlate'] at hlate
    cases hlate
    exact ⟨hclient, hw, hload, (funext hshown).trans hshown', (funext hdrawn).trans hdrawn',
      hcompleted⟩
  · intro h
    obtain ⟨late, hlate, hw', hshown, hdrawn⟩ := reset_current order h.loadable
    have hsame := h.shown.trans hshown.symm
    refine ⟨⟨t, late, hclient, hlate, fun id => ?_, congrFun hsame,
      congrFun (h.drawn.trans hdrawn.symm)⟩, filed_of_loadable h.loadable, h.completed⟩
    rw [← displayState_isSome hw, ← displayState_isSome hw', hsame]

theorem updateScene_client (order : MapOrder) {c : Connection} {t : OpenGLScene}
    (hclient : c.client = .done t) (r : SceneUpdateRequest) :
    (act order c (.updateScene r)).client = Vis.update order t (broadcast c.server r) := by
  have hstream : (answer c.server (.updateScene r)).sceneStream.drop
      c.server.sceneStream.length = broadcast c.server r := by
    show (step c.server r).sceneStream.drop _ = _
    rw [stream_step, List.drop_left]
  rw [act, hclient, Outcome.done_andThen, hstream]

theorem setAllItems_client (order : MapOrder) {c : Connection} {t : OpenGLScene}
    (hclient : c.client = .done t) (items : SceneItems) :
    (act order c (.setAllItems items)).client = .done t := by
  have hstream : (answer c.server (.setAllItems items)).sceneStream.drop
      c.server.sceneStream.length = [] := by simp [answer, requestSetAllItems]
  rw [act, hclient, Outcome.done_andThen, hstream]
  rfl

theorem current_updateScene (order : MapOrder) {c : Connection} {t : OpenGLScene}
    (h : Current c t) (r : SceneUpdateRequest) :
    (∃ t', Current (act order c (.updateScene r)) t') ↔ Guarded c (.updateScene r) := by
  have hclient := updateScene_client order h.client r
  have hsurvives := tracks_returns order (tracks_of_shown h.wired (congrFun h.shown)) r
  have hscene : (act order c (.updateScene r)).server.scene = (step c.server r).scene := rfl
  constructor
  · rintro ⟨t', ht'⟩
    have hd := hclient.symm.trans ht'.client
    obtain ⟨hsafe, htop⟩ := hsurvives.mp (hd ▸ rfl)
    refine ⟨hsafe, (shown_step order h.wired h.shown hsafe hd).mp ht'.shown,
      (drawn_step order h.wired h.drawn hd).mp ht'.drawn, fun hr t₀ ht₀ => ?_⟩
    rw [h.client] at ht₀
    cases ht₀
    exact htop hr
  · rintro ⟨hsafe, hsilent, hcovered, htop⟩
    obtain ⟨t', hd⟩ := (Outcome.returns_iff _).mp
      (hsurvives.mpr ⟨hsafe, fun hr => htop hr t h.client⟩)
    refine ⟨t', hclient.trans hd, (update_done order h.wired (broadcast_plain _ r) hd).1,
      loadableItems_step _ r h.loadable hsafe,
      (shown_step order h.wired h.shown hsafe hd).mpr hsilent,
      (drawn_step order h.wired h.drawn hd).mpr hcovered, ?_⟩
    rw [hscene]
    show _ = (requestUpdateScene { scene := c.itemwise } r).1.scene
    rw [← h.completed, scene_step]

theorem current_setAllItems (order : MapOrder) {c : Connection} {t : OpenGLScene}
    (h : Current c t) (items : SceneItems) :
    (∃ t', Current (act order c (.setAllItems items)) t') ↔ Guarded c (.setAllItems items) := by
  have hclient := setAllItems_client order h.client items
  constructor
  · rintro ⟨t', ht'⟩
    obtain rfl : t = t' := by simpa [hclient] using ht'.client
    exact ⟨ht'.loadable, ht'.shown.symm.trans h.shown, ht'.drawn.symm.trans h.drawn,
      (completedItems_eq_iff items).mp ht'.completed⟩
  · rintro ⟨hload, hshown, hdrawn, hcomplete⟩
    exact ⟨t, hclient, h.wired, hload, h.shown.trans hshown.symm, h.drawn.trans hdrawn.symm,
      (completedItems_eq_iff items).mpr hcomplete⟩

def Sound (c : Connection) : Prop := ∀ t, c.client = .done t → Wired (books t)

theorem sound_act (order : MapOrder) (c : Connection) (call : ServerCall) (h : Sound c) :
    Sound (act order c call) := by
  intro t' ht'
  obtain ⟨t, hclient, hd⟩ := Outcome.andThen_eq_done.mp ht'
  have hw := wired_update order (h t hclient)
    ((answer c.server call).sceneStream.drop c.server.sceneStream.length)
  rwa [hd] at hw

theorem agrees_step (order order' : MapOrder) (c : Connection) (call : ServerCall)
    (hs : Sound c) (h : Agrees order' c) :
    Agrees order' (act order c call) ↔ Guarded c call := by
  obtain ⟨t, late, hclient, -⟩ := h.viewers
  have hcurrent := (agrees_iff order' hclient (hs t hclient)).mp h
  have hstep : (∃ t', Current (act order c call) t') ↔ Guarded c call := by
    cases call with
    | updateScene r => exact current_updateScene order hcurrent r
    | setAllItems items => exact current_setAllItems order hcurrent items
  rw [← hstep]
  constructor
  · intro h'
    obtain ⟨t', late', hclient', -⟩ := h'.viewers
    exact ⟨t', (agrees_iff order' hclient' (sound_act order c call hs t' hclient')).mp h'⟩
  · rintro ⟨t', ht'⟩
    exact (agrees_iff order' ht'.client ht'.wired).mpr ht'

theorem sound_connect (order : MapOrder) (s : SceneServer) : Sound (connect order s) := by
  intro t ht
  have hw := wired_call_reset order wired_construct s.scene
  rwa [show reset order construct s.scene = .done t from ht] at hw

theorem agrees_connect (order order' : MapOrder) (s : SceneServer) :
    Agrees order' (connect order s) ↔ LoadableItems s.scene := by
  constructor
  · intro h
    obtain ⟨t, late, hclient, -⟩ := h.viewers
    exact ((agrees_iff order' hclient (sound_connect order s t hclient)).mp h).loadable
  · intro h
    obtain ⟨t, hclient, hw, hshown, hdrawn⟩ := reset_current order h
    exact (agrees_iff order' hclient hw).mpr ⟨hclient, hw, h, hshown, hdrawn, rfl⟩

/-- A client that connects at any server and keeps up through all calls agrees
with one that resets, after every call, exactly when the stored items can be
loaded and every call is guarded. -/
theorem bulk_set_agrees (order order' : MapOrder) (s : SceneServer) (calls : List ServerCall) :
    Everywhere (act order) (Agrees order') (connect order s) calls ↔
      LoadableItems s.scene ∧ Along (act order) Guarded (connect order s) calls := by
  have hrun : Agrees order' (connect order s) →
      (Everywhere (act order) (Agrees order') (connect order s) calls ↔
        Along (act order) Guarded (connect order s) calls) := fun h =>
    everywhere_iff_along (act order) Sound (sound_act order) (agrees_step order order')
      (sound_connect order s) h calls
  constructor
  · intro h
    have hstart := everywhere_start (act order) h
    exact ⟨(agrees_connect order order' s).mp hstart, (hrun hstart).mp h⟩
  · rintro ⟨hload, hcalls⟩
    exact (hrun ((agrees_connect order order' s).mpr hload)).mpr hcalls

def plainItem : SceneItemInfo where
  id := some ⟨"item"⟩
  geometryInfo := some { positions := some [one, one, one] }

def plainItems : SceneItems := Finmap.insert "item" plainItem ∅

/-- The client of an empty server does not hear of an item that is set, and
the item has no display defaults. -/
theorem set_item_unseen :
    (∃ live, (act entryOrder (connect entryOrder {}) (.setAllItems plainItems)).client =
        .done live ∧ live.objects "item" = none) ∧
      (answer {} (.setAllItems plainItems)).scene.lookup "item" = some plainItem ∧
      plainItem.displayInfo = none ∧
      ¬ Agrees entryOrder (act entryOrder (connect entryOrder {}) (.setAllItems plainItems)) := by
  have hclient : (connect entryOrder {}).client = .done (Vis.freshRoot (erased construct)) :=
    reset_empty entryOrder rootOnTop_construct
  refine ⟨⟨_, setAllItems_client entryOrder hclient plainItems, rfl⟩, rfl, rfl, fun h => ?_⟩
  have hempty : Agrees entryOrder (connect entryOrder {}) :=
    (agrees_connect entryOrder entryOrder {}).mpr fun id info hl => by simp at hl
  obtain ⟨-, hshown, -⟩ := (agrees_step entryOrder entryOrder _ (.setAllItems plainItems)
    (sound_connect entryOrder {}) hempty).mp h
  exact absurd (congrFun hshown "item") (by decide)

end Connections

end GVS.BulkSet
