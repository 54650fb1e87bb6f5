import Gvs.ViewerAppearance

/-!
# Joining a live scene

A viewer subscribes to the scene stream and asks for all items; neither call
waits for the other. The stream is the log of the server read from a cursor,
the reply is a copy of the scene at the moment of the answer. A joining viewer
converges when nothing falls between the two: no update is written after the
answer and before the subscription, or enqueued before a reply that does not
contain it, or delivered for an item that the viewer will not know.
-/

set_option autoImplicit false

namespace GVS.JoiningViewer
open GVS.Proto GVS.ItemDefaults GVS.Server GVS.RequestTable GVS.StoredItems GuardedRuns LogReplay
open GVS.Vis GVS.SceneBooks GVS.Wiring GVS.Display GVS.Resetting GVS.Anchors GVS.Viewers
open GVS.ViewerSafety GVS.Views GVS.ViewerAppearance

/-- The `GetAllItems` call. An answer in flight carries the items and, only
for the statements below, how many updates had been written. -/
inductive Snapshot where
  | unanswered
  | answered (items : SceneItems) (written : ℕ)
  | enqueued

/-- The server with one joining viewer. The cursor is where the viewer's
stream reads the log next, none before the subscription. -/
structure Session where
  server : SceneServer := {}
  cursor : Option ℕ := none
  snapshot : Snapshot := .unanswered
  queue : List SceneUpdate := []
  viewer : Outcome Failure OpenGLScene := .done construct

inductive Event where
  | request (r : SceneUpdateRequest)
  | subscribe
  | answer
  | getSceneState
  | processSceneUpdate
  | update

def enqueue (s : Session) (u : SceneUpdate) : Session := { s with queue := s.queue ++ [u] }

def processSceneUpdate (s : Session) : Session :=
  match s.cursor with
  | none => s
  | some n =>
    match s.server.sceneStream[n]? with
    | none => s
    | some u => { enqueue s u with cursor := some (n + 1) }

/-- One event; an event that is not enabled changes nothing. Nothing above
`VisClient::update` catches, so a viewer that raised stays down. -/
def act (order : MapOrder) (s : Session) : Event → Session
  | .request r => { s with server := step s.server r }
  | .subscribe => { s with cursor := s.cursor.or (some s.server.sceneStream.length) }
  | .answer =>
    match s.snapshot with
    | .unanswered =>
      { s with snapshot := .answered (requestGetAllItems s.server) s.server.sceneStream.length }
    | _ => s
  | .getSceneState =>
    match s.snapshot with
    | .answered items _ => { enqueue s (.resetAllItems items) with snapshot := .enqueued }
    | _ => s
  | .processSceneUpdate => processSceneUpdate s
  | .update =>
    { s with viewer := s.viewer.andThen fun t => Vis.update order t s.queue, queue := [] }

def Unparented (_ : Session) : Event → Prop
  | .request (.safeSetItem info) | .request (.replaceItem info) => info.parentValue = ""
  | .request .clearAll => True
  | .request _ => False
  | .subscribe | .answer | .getSceneState | .processSceneUpdate | .update => True

def WillKnow (s : Session) : String → Prop :=
  run learn (fun id => (s.viewer.state.objects id).isSome) s.queue

/-- The events that keep snapshot and stream in step. -/
def InStep (s : Session) : Event → Prop
  | .request r => ViewerSafe s.server r ∧
      (s.cursor = none → s.snapshot = .unanswered ∨ broadcast s.server r = [])
  | .processSceneUpdate => ∀ n u, s.cursor = some n → s.server.sceneStream[n]? = some u →
      (∀ items written, s.snapshot = .answered items written → n < written) ∧
      ∀ info, u = .updateItem info → WillKnow s info.idValue
  | .subscribe | .answer | .getSceneState | .update => True

def Quiescent (s : Session) : Prop :=
  s.cursor = some s.server.sceneStream.length ∧ s.snapshot = .enqueued ∧ s.queue = []

def Converged (order : MapOrder) (s : Session) : Prop :=
  ∃ t late, s.viewer = .done t ∧ lateViewer order s.server = .done late ∧
    (∀ id, (t.objects id).isSome = (late.objects id).isSome) ∧
    ∀ id, displayState t id = displayState late id

def InGoodOrder (order : MapOrder) (s : Session) : Prop :=
  s.viewer.Returns ∧ (Quiescent s → Converged order s)

def Deliverable : SceneUpdate → Prop
  | .addItem info => info.geometryInfo.isSome ∧ Loadable info ∧ info.parentValue = "" ∧
      Complete (displayOf info)
  | .updateItem info => Loadable info ∧ info.parentValue = ""
  | .resetAllItems items => items = ∅
  | .removeItem _ | .updateNotSet => True

theorem Deliverable.settled {u : SceneUpdate} (h : Deliverable u) : Settled u := by
  cases u with
  | addItem info => exact ⟨h.2.2.2, formatKnown_of_valid h.2.1.1⟩
  | updateItem info => exact formatKnown_of_valid h.1.1
  | removeItem info => trivial
  | resetAllItems items => trivial
  | updateNotSet => trivial

theorem Deliverable.anchoring {u : SceneUpdate} (h : Deliverable u) : Anchoring u := by
  cases u with
  | addItem info => exact fun _ => h.2.2.1
  | updateItem info => exact fun _ => h.2
  | removeItem info => trivial
  | resetAllItems items =>
    obtain rfl : items = ∅ := h
    exact fun id info hl => by simp at hl
  | updateNotSet => trivial

theorem Deliverable.fits {u : SceneUpdate} (h : Deliverable u) {v : View} (hr : (v "").isSome)
    (hk : ∀ info, u = .updateItem info → (v info.idValue).isSome) : Fits v u := by
  cases u with
  | addItem info => exact ⟨h.1, h.2.1, Or.inr (by rw [h.2.2.1]; exact hr)⟩
  | updateItem info => exact ⟨hk info rfl, by rw [h.2]; exact hr, h.1⟩
  | removeItem info => trivial
  | resetAllItems items =>
    obtain rfl : items = ∅ := h
    exact fun id info hl => by simp at hl
  | updateNotSet => trivial

theorem broadcast_deliverable {s : SceneServer} {r : SceneUpdateRequest} (hsafe : ViewerSafe s r)
    (hn : ∀ info, r ≠ .appendToItem info)
    (hp : ∀ info, requestInfo r = some info → info.parentValue = "") :
    ∀ u ∈ broadcast s r, Deliverable u := by
  have hj := justified s.scene r
  unfold ViewerSafe at hsafe
  unfold broadcast
  cases hv : verdict s.scene r with
  | reject errorMsg => simp
  | create info =>
    rw [hv] at hj hsafe
    intro u hu
    obtain rfl := List.mem_singleton.mp hu
    exact ⟨hsafe.1, (loadable_setDisplayDefaults info).mpr hsafe.2.1, hp info hj.1,
      complete_completeDisplayInfo _ _⟩
  | merge old info =>
    rw [hv] at hj hsafe
    intro u hu
    obtain rfl := List.mem_singleton.mp hu
    exact ⟨hsafe.1, hp info hj.1⟩
  | announce old info =>
    rw [hv] at hj
    exact absurd hj.1 (hn info)
  | clear =>
    intro u hu
    obtain rfl := List.mem_singleton.mp hu
    rfl

def pending (s : Session) : View := run applyView (displayState s.viewer.state) s.queue

def replyView : Snapshot → Reply View
  | .unanswered => .unanswered
  | .answered items written => .answered (itemsView items) written
  | .enqueued => .received

def Flat (items : SceneItems) : Prop :=
  ∀ id info, items.lookup id = some info → info.parentValue = ""

theorem Flat.anchoring {items : SceneItems} (h : Flat items) : Anchoring (.resetAllItems items) :=
  fun id info hl _ => h id info hl

theorem flat_step {s : SceneServer} {r : SceneUpdateRequest} (h : Flat s.scene)
    (hp : ∀ info, requestInfo r = some info → info.parentValue = "") : Flat (step s r).scene := by
  have hj := justified s.scene r
  rw [step_eq]
  cases hv : verdict s.scene r with
  | reject errorMsg => exact h
  | create info =>
    rw [hv] at hj
    exact eachItem_insert h (hp info hj.1)
  | merge old info =>
    rw [hv] at hj
    exact eachItem_insert h ((merged_parentValue old info).trans (h _ old hj.2.1))
  | announce old info => exact h
  | clear =>
    intro id info hl
    simp [perform, write] at hl

structure Logged (s : SceneServer) : Prop where
  loadable : LoadableItems s.scene
  flat : Flat s.scene
  deliverable : ∀ u ∈ s.sceneStream, Deliverable u
  log : run applyView (itemsView ∅) s.sceneStream = itemsView s.scene

structure Standing (s : Session) : Prop where
  returns : s.viewer.Returns
  wired : Wired (books s.viewer.state)
  anchored : Anchored (books s.viewer.state)
  anchoring : ∀ u ∈ s.queue, Anchoring u
  fits : Along applyView Fits (displayState s.viewer.state) s.queue
  root : (pending s "").isSome

structure Synced (s : Session) : Prop where
  cursor : ∀ n, s.cursor = some n → n ≤ s.server.sceneStream.length
  loadable : ∀ items written, s.snapshot = .answered items written →
    LoadableItems items ∧ Flat items
  accounts : Accounts applyView (itemsView ∅) s.server.sceneStream s.cursor (pending s)
    (replyView s.snapshot)

structure Joining (s : Session) : Prop where
  logged : Logged s.server
  standing : Standing s
  synced : Synced s

theorem logged_step {s : SceneServer} {r : SceneUpdateRequest} (h : Logged s)
    (hsafe : ViewerSafe s r) (hn : ∀ info, r ≠ .appendToItem info)
    (hp : ∀ info, requestInfo r = some info → info.parentValue = "") : Logged (step s r) where
  loadable := loadableItems_step s r h.loadable hsafe
  flat := flat_step h.flat hp
  deliverable u hu := by
    rw [stream_step, List.mem_append] at hu
    exact hu.elim (h.deliverable u) (broadcast_deliverable hsafe hn hp u)
  log := by rw [stream_step, run_append, h.log, itemsView_step hsafe (not_announced hn)]

theorem applyView_root {v : View} (h : (v "").isSome) (u : SceneUpdate) :
    (applyView v u "").isSome := by
  cases u with
  | addItem info =>
    rw [applyView, Function.update_apply]
    split <;> simp [h]
  | updateItem info =>
    rw [applyView, Function.update_apply]
    split
    · rename_i hid
      rw [← hid]
      simpa using h
    · exact h
  | removeItem info => exact h
  | resetAllItems items => exact (itemsView_isSome items "").mpr (Or.inl rfl)
  | updateNotSet => exact h

theorem pending_enqueue (s : Session) (u : SceneUpdate) :
    pending (enqueue s u) = applyView (pending s) u := by
  rw [pending, enqueue, run_append]
  rfl

theorem standing_enqueue {s : Session} (h : Standing s) {u : SceneUpdate}
    (hf : Fits (pending s) u) (hu : Anchoring u) : Standing (enqueue s u) where
  returns := h.returns
  wired := h.wired
  anchored := h.anchored
  anchoring := List.forall_mem_append.mpr ⟨h.anchoring, by simpa using hu⟩
  fits := (along_append _ _ _ _ _).mpr ⟨h.fits, hf, trivial⟩
  root := by
    rw [pending_enqueue]
    exact applyView_root h.root u

theorem Standing.congr {s s' : Session} (h : Standing s) (hv : s'.viewer = s.viewer)
    (hq : s'.queue = s.queue) : Standing s' where
  returns := hv ▸ h.returns
  wired := hv ▸ h.wired
  anchored := hv ▸ h.anchored
  anchoring := hq ▸ h.anchoring
  fits := by rw [hv, hq]; exact h.fits
  root := by
    have hr := h.root
    rw [pending] at hr ⊢
    rwa [hv, hq]

theorem unparented_info {s : Session} {r : SceneUpdateRequest} (hu : Unparented s (.request r)) :
    (∀ info, r ≠ .appendToItem info) ∧
      ∀ info, requestInfo r = some info → info.parentValue = "" := by
  cases r with
  | safeSetItem info =>
    refine ⟨by simp, ?_⟩
    rintro _ ⟨⟩
    exact hu
  | replaceItem info =>
    refine ⟨by simp, ?_⟩
    rintro _ ⟨⟩
    exact hu
  | clearAll => exact ⟨by simp, fun info h => by cases h⟩
  | appendToItem info => exact hu.elim
  | updateItem info => exact hu.elim
  | removeItem info => exact hu.elim
  | updateNotSet => exact hu.elim

theorem joining_request {s : Session} (h : Joining s) {r : SceneUpdateRequest}
    (hu : Unparented s (.request r)) (hg : InStep s (.request r)) :
    Joining { s with server := step s.server r } := by
  obtain ⟨hn, hp⟩ := unparented_info hu
  have hgap : s.cursor = none → replyView s.snapshot = .unanswered ∨ broadcast s.server r = [] :=
    fun hc => (hg.2 hc).imp_left fun hs => by rw [hs]; rfl
  have haccounts := accounts_write applyView h.synced.accounts h.synced.cursor hgap
  rw [← stream_step] at haccounts
  refine ⟨logged_step h.logged hg.1 hn hp, h.standing.congr rfl rfl,
    ⟨fun n hn => (h.synced.cursor n hn).trans ?_, h.synced.loadable, haccounts⟩⟩
  rw [stream_step, List.length_append]
  exact Nat.le_add_right _ _

theorem joining_subscribe (order : MapOrder) {s : Session} (h : Joining s) :
    Joining (act order s .subscribe) := by
  cases hc : s.cursor with
  | some n =>
    have hs : act order s .subscribe = s := by rw [act, hc, Option.some_or, ← hc]
    rw [hs]
    exact h
  | none =>
    have hs : act order s .subscribe =
        { s with cursor := some s.server.sceneStream.length } := by simp [act, hc]
    have haccounts := h.synced.accounts
    rw [hc] at haccounts
    rw [hs]
    refine ⟨h.logged, h.standing.congr rfl rfl,
      ⟨fun n hn => ?_, h.synced.loadable, accounts_subscribe applyView haccounts⟩⟩
    cases hn
    exact le_refl _

theorem joining_answer (order : MapOrder) {s : Session} (h : Joining s) :
    Joining (act order s .answer) := by
  unfold act
  cases hsnap : s.snapshot with
  | unanswered =>
    have haccounts : Accounts applyView (itemsView ∅) s.server.sceneStream s.cursor (pending s)
        (.answered (itemsView s.server.scene) s.server.sceneStream.length) := by
      rw [← h.logged.log]
      exact accounts_answer applyView h.synced.cursor
    refine ⟨h.logged, h.standing.congr rfl rfl, ⟨h.synced.cursor, ?_, haccounts⟩⟩
    rintro items written ⟨⟩
    exact ⟨h.logged.loadable, h.logged.flat⟩
  | answered items written => exact h
  | enqueued => exact h

/-- The reply restores a part of the log that reaches the cursor; what the
stream delivers again after it is absorbed. -/
theorem joining_getSceneState (order : MapOrder) {s : Session} (h : Joining s) :
    Joining (act order s .getSceneState) := by
  unfold act
  have haccounts := h.synced.accounts
  cases hsnap : s.snapshot with
  | unanswered => exact h
  | enqueued => exact h
  | answered items written =>
    rw [hsnap] at haccounts
    obtain ⟨hload, hflat⟩ := h.synced.loadable items written hsnap
    have hstanding : Standing (enqueue s (.resetAllItems items)) :=
      standing_enqueue h.standing hload hflat.anchoring
    have hreceived := accounts_receive applyView haccounts fun n _ => absorbing_settled fun u hu =>
      (h.logged.deliverable u (List.mem_of_mem_take (List.mem_of_mem_drop hu))).settled
    have hpending : pending (enqueue s (.resetAllItems items)) = itemsView items :=
      pending_enqueue s _
    rw [← hpending] at hreceived
    exact ⟨h.logged, hstanding.congr rfl rfl,
      ⟨h.synced.cursor, (fun items written hi => by cases hi), hreceived⟩⟩

theorem joining_processSceneUpdate {s : Session} (h : Joining s)
    (hg : InStep s .processSceneUpdate) : Joining (processSceneUpdate s) := by
  unfold processSceneUpdate
  cases hc : s.cursor with
  | none => exact h
  | some n =>
    cases hu : s.server.sceneStream[n]? with
    | none => simpa [hu] using h
    | some u =>
      simp only [hu]
      obtain ⟨hearly, hknown⟩ := hg n u hc hu
      obtain ⟨hlt, rfl⟩ := List.getElem?_eq_some_iff.mp hu
      have hdeliverable := h.logged.deliverable _ (List.getElem_mem hlt)
      have hfits : Fits (pending s) s.server.sceneStream[n] :=
        hdeliverable.fits h.standing.root fun info hi => by
          have hk := hknown info hi
          rw [WillKnow] at hk
          simp only [← displayState_isSome h.standing.wired] at hk
          exact (run_known _ _ _).mpr hk
      have hstanding : Standing (enqueue s s.server.sceneStream[n]) :=
        standing_enqueue h.standing hfits hdeliverable.anchoring
      have hreply : ∀ state written, replyView s.snapshot = .answered state written →
          n < written := by
        intro state written he
        cases hsnap : s.snapshot with
        | unanswered => rw [hsnap] at he; cases he
        | answered items w =>
          rw [hsnap] at he
          cases he
          exact hearly items _ hsnap
        | enqueued => rw [hsnap] at he; cases he
      have haccounts := h.synced.accounts
      rw [hc] at haccounts
      have hread := accounts_read applyView haccounts hlt hreply
      rw [← pending_enqueue] at hread
      exact ⟨h.logged, hstanding.congr rfl rfl,
        ⟨(fun m hm => by cases hm; exact hlt), h.synced.loadable, hread⟩⟩

theorem joining_update (order : MapOrder) {s : Session} (h : Joining s) :
    Joining (act order s .update) := by
  obtain ⟨t, ht⟩ := (Outcome.returns_iff _).mp h.standing.returns
  have hw := h.standing.wired
  have ha := h.standing.anchored
  have hf := h.standing.fits
  rw [ht, Outcome.state_done] at hw ha hf
  obtain ⟨t', hd, hw', ha', hv⟩ := update_view order s.queue hw ha h.standing.anchoring hf
  have hpending : pending s = displayState t' := by
    rw [pending, ht, hv]
    rfl
  have hact : act order s .update = { s with viewer := .done t', queue := [] } := by
    simp only [act, ht, Outcome.done_andThen, hd]
  have hroot := h.standing.root
  have haccounts := h.synced.accounts
  rw [hpending] at hroot haccounts
  rw [hact]
  exact ⟨h.logged, ⟨rfl, hw', ha', by simp, trivial, hroot⟩, ⟨h.synced.cursor, h.synced.loadable, haccounts⟩⟩

theorem joining_act (order : MapOrder) (s : Session) (e : Event) (h : Joining s)
    (hg : Unparented s e ∧ InStep s e) : Joining (act order s e) := by
  cases e with
  | request r => exact joining_request h hg.1 hg.2
  | subscribe => exact joining_subscribe order h
  | answer => exact joining_answer order h
  | getSceneState => exact joining_getSceneState order h
  | processSceneUpdate => exact joining_processSceneUpdate h hg.2
  | update => exact joining_update order h

theorem logged_start : Logged {} :=
  ⟨fun id info h => by simp at h, fun id info h => by simp at h, fun u h => by simp at h, rfl⟩

theorem joining_start : Joining {} where
  logged := logged_start
  standing := ⟨rfl, wired_construct, anchored_construct, fun u h => by simp at h, trivial, by
    show (displayState construct "").isSome = true
    rw [construct_shown]
    rfl⟩
  synced := ⟨(fun n h => by cases h), (fun items written h => by cases h), trivial⟩

theorem inGoodOrder_of_joining (order : MapOrder) {s : Session} (h : Joining s) :
    InGoodOrder order s := by
  refine ⟨h.standing.returns, fun ⟨hc, hsnap, hq⟩ => ?_⟩
  obtain ⟨t, ht⟩ := (Outcome.returns_iff _).mp h.standing.returns
  have hw := h.standing.wired
  rw [ht, Outcome.state_done] at hw
  have haccounts := h.synced.accounts
  rw [hsnap, hc] at haccounts
  have hshown : displayState t = itemsView s.server.scene := by
    rw [← h.logged.log]
    simpa [Accounts, replyView, unread, pending, hq, ht, run] using haccounts
  obtain ⟨late, hlate, hwl, hl⟩ := reset_shown order wired_construct rootOnTop_construct
    h.logged.loadable
  refine ⟨t, late, ht, hlate, fun id => ?_, fun id => by rw [hshown, hl]⟩
  rw [← displayState_isSome hw, ← displayState_isSome hwl, hshown, hl]

/-- In every run whose events stay in step, no drain raises, and whenever the
join is complete the viewer shows what a reset to the current scene shows. -/
theorem joining_viewer_converges (order order' : MapOrder) (events : List Event)
    (h : Along (act order) Unparented {} events) (hg : Along (act order) InStep {} events) :
    Everywhere (act order) (InGoodOrder order') {} events :=
  everywhere_mono (act order) (fun _ => inGoodOrder_of_joining order')
    (everywhere_of_along (act order) (joining_act order) joining_start
      (along_and (act order) h hg))

def joining : List Event :=
  [.request (.safeSetItem shapedItem), .subscribe, .answer, .request (.safeSetItem recolored),
    .getSceneState, .processSceneUpdate, .update]

theorem joining_in_step : Along (act entryOrder) InStep {} joining := by
  refine ⟨⟨admissible_viewerSafe ⟨Or.inl rfl, rfl, rfl⟩, fun _ => Or.inl rfl⟩, trivial, trivial,
    ⟨admissible_viewerSafe ⟨Or.inl rfl, rfl, rfl⟩, fun hc => by cases hc⟩, trivial, ?_,
    trivial, trivial⟩
  rintro n u ⟨⟩ hu
  cases hu
  refine ⟨fun items written h => (by cases h), ?_⟩
  rintro info ⟨⟩
  exact Or.inr (by decide)

theorem joining_converges : Everywhere (act entryOrder) (InGoodOrder entryOrder) {} joining :=
  joining_viewer_converges entryOrder entryOrder joining
    ⟨rfl, trivial, trivial, rfl, trivial, trivial, trivial, trivial⟩ joining_in_step

def crossing : List Event :=
  [.answer, .request (.safeSetItem shapedItem), .subscribe, .getSceneState, .update]

/-- An update between snapshot and subscription is in neither, and the viewer
stays without the item. -/
theorem crossing_update_lost :
    Along (act entryOrder) Unparented {} crossing ∧
      Quiescent (run (act entryOrder) {} crossing) ∧
      ¬ Converged entryOrder (run (act entryOrder) {} crossing) := by
  refine ⟨⟨trivial, rfl, trivial, trivial, trivial, trivial⟩, ⟨rfl, rfl, rfl⟩, ?_⟩
  rintro ⟨t, late, ht, hlate, hkeys, -⟩
  have hviewer : (run (act entryOrder) {} crossing).viewer =
      .done (Vis.freshRoot (erased construct)) := by
    show (Outcome.done construct).andThen
      (fun t => Vis.update entryOrder t [.resetAllItems ∅]) = _
    rw [Outcome.done_andThen, update_singleton, applyUpdate, reset_empty _ rootOnTop_construct]
  rw [hviewer] at ht
  cases ht
  have hloads : LoadableItems (step {} (.safeSetItem shapedItem)).scene :=
    loadableItems_step {} (.safeSetItem shapedItem) logged_start.loadable
      (admissible_viewerSafe ⟨Or.inl rfl, rfl, rfl⟩)
  obtain ⟨late', hlate', hw, hshown⟩ := reset_shown entryOrder wired_construct rootOnTop_construct hloads
  change lateViewer entryOrder (step {} (.safeSetItem shapedItem)) = .done late at hlate
  rw [lateViewer, hlate'] at hlate
  cases hlate
  have hkey := hkeys "item"
  rw [← displayState_isSome (wired_freshRoot_scene wired_construct), ← displayState_isSome hw,
    freshRoot_shown wired_construct, hshown] at hkey
  exact absurd hkey (by decide)

end GVS.JoiningViewer
