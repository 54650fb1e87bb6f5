import Gvs.ViewerAppearance

/-!
# Failed snapshots

The viewer client between its two streams and its scene. When its state
changes it asks for all messages and all items, and takes over what is in the
two replies. Whether the calls themselves ended well is not looked at: a call
that fails leaves its reply empty, and the empty reply is taken over.
-/

set_option autoImplicit false

namespace GVS.FailedSnapshots
open GVS.Proto GVS.Server GuardedRuns
open GVS.Vis GVS.SceneBooks GVS.Wiring GVS.Display GVS.Resetting GVS.Anchors GVS.Viewers
open GVS.ViewerAppearance

structure VisClient where
  messages : List Message := []
  sceneUpdates : List SceneUpdate := []
  scene : Outcome Failure OpenGLScene := .done construct

/-- What becomes of a call through `use_stub`: there is no stub, the call ends
with a status that is not OK, or it is answered. -/
inductive UnaryCall (α : Type*) where
  | notConnected
  | notOk
  | answered (reply : α)

/-- The reply as it is after `use_stub` has returned true: a call that is not
OK leaves the message that was made for it. -/
def UnaryCall.reply {α : Type*} (made : α) : UnaryCall α → Option α
  | .notConnected => none
  | .notOk => some made
  | .answered reply => some reply

def processMessageUpdate (c : VisClient) (message : Message) : VisClient :=
  { c with messages := c.messages ++ [message] }

def processSceneUpdate (c : VisClient) (u : SceneUpdate) : VisClient :=
  { c with sceneUpdates := c.sceneUpdates ++ [u] }

def getMessageState (c : VisClient) (call : UnaryCall (List Message)) : VisClient :=
  match call.reply [] with
  | none => c
  | some messages => { c with messages }

def getSceneState (c : VisClient) (call : UnaryCall SceneItems) : VisClient :=
  match call.reply ∅ with
  | none => c
  | some items => { c with sceneUpdates := c.sceneUpdates ++ [.resetAllItems items] }

def onStateChange (c : VisClient) (messages : UnaryCall (List Message))
    (items : UnaryCall SceneItems) : VisClient :=
  getSceneState (getMessageState c messages) items

/-- `VisClient::update`. A raise leaves the queue as it is, and nothing above
catches it. -/
def update (order : MapOrder) (c : VisClient) : VisClient :=
  match c.scene with
  | .raised _ _ => c
  | .done scene =>
    match Vis.update order scene c.sceneUpdates with
    | .done scene => { c with scene := .done scene, sceneUpdates := [] }
    | .raised failure scene => { c with scene := .raised failure scene }

/-- Deliveries and drains may fall between the two calls of one
`on_state_change`. -/
inductive Event where
  | processMessageUpdate (message : Message)
  | processSceneUpdate (u : SceneUpdate)
  | update
  | getMessageState (call : UnaryCall (List Message))
  | getSceneState (call : UnaryCall SceneItems)

def act (order : MapOrder) (c : VisClient) : Event → VisClient
  | .processMessageUpdate message => processMessageUpdate c message
  | .processSceneUpdate u => processSceneUpdate c u
  | .update => update order c
  | .getMessageState call => getMessageState c call
  | .getSceneState call => getSceneState c call

def Failed : Event → Prop
  | .getMessageState .notOk | .getSceneState .notOk => True
  | _ => False

def Keeps (order : MapOrder) (c : VisClient) (e : Event) : Prop :=
  Failed e → (act order c e).messages = c.messages ∧
    (act order c e).sceneUpdates = c.sceneUpdates

structure NothingErased (order : MapOrder) (c : VisClient) (events : List Event) : Prop where
  keeps : Along (act order) (Keeps order) c events
  shows : ∀ before e after later, events = before ++ e :: (after ++ later) → Failed e →
    (update order (run (act order) c (before ++ e :: after))).scene =
      (update order (run (act order) c (before ++ after))).scene

/-- There is nothing to erase: the viewer has no messages yet. A failed
`GetAllItems` always enqueues a reset. -/
def Harmless (c : VisClient) : Event → Prop
  | .getMessageState .notOk => c.messages = []
  | .getSceneState .notOk => False
  | _ => True

theorem onStateChange_eq (order : MapOrder) (c : VisClient) (messages : UnaryCall (List Message))
    (items : UnaryCall SceneItems) :
    onStateChange c messages items =
      run (act order) c [.getMessageState messages, .getSceneState items] := rfl

theorem failed_cases {e : Event} (h : Failed e) :
    e = .getMessageState .notOk ∨ e = .getSceneState .notOk := by
  unfold Failed at h
  split at h
  · exact Or.inl rfl
  · exact Or.inr rfl
  · exact h.elim

theorem harmless_of_not_failed (c : VisClient) {e : Event} (h : ¬ Failed e) : Harmless c e := by
  cases e with
  | getMessageState call =>
    cases call with
    | notOk => exact absurd trivial h
    | notConnected => trivial
    | answered reply => trivial
  | getSceneState call =>
    cases call with
    | notOk => exact absurd trivial h
    | notConnected => trivial
    | answered reply => trivial
  | processMessageUpdate message => trivial
  | processSceneUpdate u => trivial
  | update => trivial

/-- A failed call keeps what the client has exactly when it is harmless. -/
theorem keeps_iff (order : MapOrder) (c : VisClient) (e : Event) :
    Keeps order c e ↔ Harmless c e := by
  by_cases hfailed : Failed e
  · rcases failed_cases hfailed with rfl | rfl
    · show (True → [] = c.messages ∧ c.sceneUpdates = c.sceneUpdates) ↔ c.messages = []
      simp [eq_comm]
    · refine iff_of_false (fun h => ?_) id
      have hqueue : c.sceneUpdates ++ [.resetAllItems ∅] = c.sceneUpdates := (h hfailed).2
      simp at hqueue
  · exact iff_of_true (fun h => absurd h hfailed) (harmless_of_not_failed c hfailed)

theorem act_failed (order : MapOrder) {c : VisClient} {e : Event} (hfailed : Failed e)
    (h : Harmless c e) : act order c e = c := by
  rcases failed_cases hfailed with rfl | rfl
  · have hnone : c.messages = [] := h
    show { c with messages := [] } = c
    rw [← hnone]
  · exact h.elim

/-- No failed call erases anything exactly when `GetAllItems` does not fail,
and `GetAllMessages` only while the viewer has no messages. -/
theorem nothing_erased_iff (order : MapOrder) (c : VisClient) (events : List Event) :
    NothingErased order c events ↔ Along (act order) Harmless c events := by
  constructor
  · intro h
    exact along_mono (act order) (fun c e => (keeps_iff order c e).mp) h.keeps
  · intro h
    refine ⟨along_mono (act order) (fun c e => (keeps_iff order c e).mpr) h, ?_⟩
    rintro before e after later rfl hfailed
    have hharmless := ((along_append (act order) Harmless c before _).mp h).2.1
    rw [run_skip (act order) (act_failed order hfailed hharmless)]

section Erasing

theorem run_deliveries (order : MapOrder) (c : VisClient) (us : List SceneUpdate) :
    run (act order) c (us.map .processSceneUpdate) =
      { c with sceneUpdates := c.sceneUpdates ++ us } := by
  induction us generalizing c with
  | nil => simp [run]
  | cons u us ih =>
    rw [List.map_cons, run, ih]
    simp [act, processSceneUpdate]

theorem update_scene (order : MapOrder) {c : VisClient} {scene : OpenGLScene}
    (h : c.scene = .done scene) :
    (update order c).scene = Vis.update order scene c.sceneUpdates := by
  unfold update
  rw [h]
  cases hu : Vis.update order scene c.sceneUpdates <;> simp only [hu]

/-- After a failed `GetAllItems` the next drain leaves what was delivered since
on top of an empty scene, whatever the viewer had before. -/
theorem drained_after_failure (order : MapOrder) {c : VisClient} {scene t : OpenGLScene}
    (hscene : c.scene = .done scene) (hqueue : Vis.update order scene c.sceneUpdates = .done t)
    (htop : RootOnTop t) (since : List SceneUpdate) :
    (update order
      (run (act order) c (.getSceneState .notOk :: since.map .processSceneUpdate))).scene =
        Vis.update order (Vis.freshRoot (erased t)) since := by
  have hfailed :
      (update order { c with
        sceneUpdates := c.sceneUpdates ++ [.resetAllItems ∅] ++ since }).scene =
          Vis.update order scene (c.sceneUpdates ++ [.resetAllItems ∅] ++ since) :=
    update_scene order hscene
  rw [run, run_deliveries]
  refine hfailed.trans ?_
  rw [update_append, update_append, hqueue, Outcome.done_andThen, update_singleton, applyUpdate,
    reset_empty order htop, Outcome.done_andThen]

theorem items_gone (order : MapOrder) {c : VisClient} {scene t : OpenGLScene}
    (hscene : c.scene = .done scene) (hw : Wired (books scene))
    (hqueue : Vis.update order scene c.sceneUpdates = .done t) (htop : RootOnTop t) (id : String) :
    displayState (update order (getSceneState c .notOk)).scene.state id = emptyView id := by
  have hdrained := drained_after_failure order hscene hqueue htop []
  have ht := wired_update order hw c.sceneUpdates
  rw [hqueue] at ht
  show displayState (update order (run (act order) c [.getSceneState .notOk])).scene.state id = _
  rw [List.map_nil] at hdrained
  rw [hdrained]
  exact freshRoot_shown ht id

def refused : List Event :=
  [.processMessageUpdate ⟨"Sender", "Hello"⟩, .processSceneUpdate (.addItem shapedItem),
    .getMessageState .notOk, .getSceneState .notOk]

/-- Without the calls the viewer has the message and shows the item. -/
theorem refused_erases :
    let held := run (act entryOrder) {} (refused.take 2)
    let left := run (act entryOrder) {} refused
    held.messages = [⟨"Sender", "Hello"⟩] ∧ left.messages = [] ∧
      (displayState (update entryOrder held).scene.state "item").isSome = true ∧
      displayState (update entryOrder left).scene.state "item" = none ∧
      ¬ NothingErased entryOrder {} refused := by
  refine ⟨rfl, rfl, rfl, ?_, fun h => ?_⟩
  · have hnamed : ∀ u ∈ [SceneUpdate.addItem shapedItem], Anchoring u := by
      intro u hu
      obtain rfl := List.mem_singleton.mp hu
      exact fun hid => absurd hid (by decide)
    have htop := rootOnTop_of_anchored
      (anchored_update entryOrder _ wired_construct anchored_construct hnamed rfl)
    exact @items_gone entryOrder { sceneUpdates := [.addItem shapedItem] } construct _ rfl
      wired_construct rfl htop "item"
  · have hmessages := (h.keeps.2.2.1 trivial).1
    cases hmessages

end Erasing

end GVS.FailedSnapshots
