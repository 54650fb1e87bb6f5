import Gvs.Drains
import Gvs.Monitors

/-!
# Shared updates

`AtomicData`, and the two lists of the viewer that its threads use through it.
A use takes the lock and then works in steps: an element is emplaced before it
is filled, and `VisClient::update` and the list of messages go from element to
element. Seen from outside a use is one step of the client.
-/

set_option autoImplicit false

namespace GVS.SharedUpdates
open Monitors GuardedRuns
open GVS.Proto GVS.Server GVS.Vis GVS.Resetting GVS.Viewers GVS.ViewerAppearance
open GVS.FailedSnapshots GVS.Drains

section Waits

structure Func (σ ρ : Type*) where
  start : ρ
  next : σ × ρ → Option (σ × ρ)

variable {σ ρ τ : Type*}

def useSafely (func : Func σ ρ) : Method σ ρ where
  ready := fun _ => true
  timed := false
  start := func.start
  next := func.next
  notify := .nobody

def waitToUseSafely (predicate : σ → Bool) (func : Func σ ρ) : Method σ ρ :=
  { useSafely func with ready := predicate }

/-- The overload with a maximum wait time, which returns false when it is over. -/
def waitToUseSafelyFor (predicate : σ → Bool) (func : Func σ ρ) : Method σ ρ :=
  { useSafely func with ready := predicate, timed := true }

inductive Access (σ ρ : Type*) where
  | useSafely (func : Func σ ρ)
  | waitToUseSafely (predicate : σ → Bool) (func : Func σ ρ)
  | waitToUseSafelyFor (predicate : σ → Bool) (func : Func σ ρ)

def Access.method : Access σ ρ → Method σ ρ
  | .useSafely func => SharedUpdates.useSafely func
  | .waitToUseSafely predicate func => SharedUpdates.waitToUseSafely predicate func
  | .waitToUseSafelyFor predicate func => SharedUpdates.waitToUseSafelyFor predicate func

/-- What an access makes of the data that it finds, with the result of its
function; none stands for the `false` of a wait whose time is over. -/
inductive Accessed (found : σ) : Access σ ρ → Option ρ → σ → Prop where
  | used {func : Func σ ρ} {left : σ} {r : ρ}
    (hruns : Runs (SharedUpdates.useSafely func) (found, func.start) (left, r))
    (hend : func.next (left, r) = none) : Accessed found (.useSafely func) (some r) left
  | waited {predicate : σ → Bool} {func : Func σ ρ} {left : σ} {r : ρ}
    (hready : predicate found = true)
    (hruns : Runs (SharedUpdates.useSafely func) (found, func.start) (left, r))
    (hend : func.next (left, r) = none) :
    Accessed found (.waitToUseSafely predicate func) (some r) left
  | waitedFor {predicate : σ → Bool} {func : Func σ ρ} {left : σ} {r : ρ}
    (hready : predicate found = true)
    (hruns : Runs (SharedUpdates.useSafely func) (found, func.start) (left, r))
    (hend : func.next (left, r) = none) :
    Accessed found (.waitToUseSafelyFor predicate func) (some r) left
  | timeOver {predicate : σ → Bool} {func : Func σ ρ} (hready : predicate found = false) :
    Accessed found (.waitToUseSafelyFor predicate func) none found

inductive InSequence (data : σ) : List (Access σ ρ × Option ρ) → σ → Prop where
  | start : InSequence data [] data
  | next {past : List (Access σ ρ × Option ρ)} {found left : σ} {access : Access σ ρ}
    {result : Option ρ} (h : InSequence data past found) (ha : Accessed found access result left) :
    InSequence data (past ++ [(access, result)]) left

theorem serial_inSequence {data d : σ} {log : List (Entry τ (Access σ ρ) ρ)}
    (h : Serial Access.method data log d) :
    InSequence data (log.map fun e => (e.call, e.result)) d := by
  induction h with
  | start => exact .start
  | @finished es d d' t access r h hready hruns hend ih =>
    rw [List.map_append]
    refine ih.next ?_
    cases access with
    | useSafely func => exact .used hruns hend
    | waitToUseSafely predicate func => exact .waited hready hruns hend
    | waitToUseSafelyFor predicate func => exact .waitedFor hready hruns hend
  | @expired es d t access h htimed hready ih =>
    rw [List.map_append]
    refine ih.next ?_
    cases access with
    | useSafely func => cases htimed
    | waitToUseSafely predicate func => cases htimed
    | waitToUseSafelyFor predicate func => exact .timeOver hready

variable [DecidableEq τ]

/-- However the accesses to one `AtomicData` are interleaved, with wakeups for
no reason and times that are over: their functions work on the data one after
the other, after a wait on data that its predicate holds for, and a wait is
passed over only on data that its predicate does not hold for. -/
theorem accesses_in_sequence {data : σ} {s : Monitor τ (Access σ ρ) σ ρ}
    (h : Reachable Access.method data s) :
    ∃ d, (s.owner = none → s.data = d) ∧
      InSequence data (s.log.map fun e => (e.call, e.result)) d := by
  obtain ⟨d, hatomic⟩ := atomic_reachable h
  exact ⟨d, hatomic.free, serial_inSequence hatomic.serial⟩

def setSeven : Func ℕ Bool where
  start := false
  next := fun (_, done) => if done then none else some (7, true)

/-- One thread waits for a seven until its time is over, and the other one has
set it by then. -/
theorem seven_in_sequence : ∃ s : Monitor Bool (Access ℕ Bool) ℕ Bool,
    (s.log.map fun e => e.thread) = [false, true] ∧ ∃ d, (s.owner = none → s.data = d) ∧
      InSequence 0 (s.log.map fun e => (e.call, e.result)) d := by
  have h : Reachable Access.method 0 (idleMonitor 0 : Monitor Bool (Access ℕ Bool) ℕ Bool) := .refl
  have h := h.tail (.call (t := true) (.waitToUseSafelyFor (fun n => n == 7) setSeven) rfl)
  have h := h.tail (.lock (t := true) rfl rfl)
  have h := h.tail (.miss (t := true) rfl rfl)
  have h := h.tail (.sleep (t := true) rfl)
  have h := h.tail (.call (t := false) (.useSafely setSeven) rfl)
  have h := h.tail (.lock (t := false) rfl rfl)
  have h := h.tail (.find (t := false) rfl rfl)
  have h := h.tail (.work (t := false) rfl rfl)
  have h := h.tail (.leave (t := false) rfl rfl)
  have h := h.tail (.timeout (t := true) rfl rfl)
  have h := h.tail (.lock (t := true) rfl rfl)
  have h := h.tail (.find (t := true) rfl rfl)
  have h := h.tail (.work (t := true) rfl rfl)
  have h := h.tail (.leave (t := true) rfl rfl)
  exact ⟨_, rfl, accesses_in_sequence h⟩

end Waits

section SceneUpdates

structure Shared where
  updates : List SceneUpdate := []
  scene : Outcome Failure OpenGLScene := .done construct

inductive Use where
  | processSceneUpdate (u : SceneUpdate)
  | getSceneState (items : SceneItems)
  | update

/-- The iterators of `update` are positions in the list; a position that is
not in the list any more is undefined. -/
inductive Local where
  | begin
  | emplaced
  | loop (at_ last : ℕ)
  | returned
  | undefined

def processSceneUpdate (u : SceneUpdate) : Shared × Local → Option (Shared × Local)
  | (d, .begin) => some ({ d with updates := d.updates ++ [u] }, .returned)
  | (_, _) => none

def getSceneState (items : SceneItems) : Shared × Local → Option (Shared × Local)
  | (d, .begin) => some ({ d with updates := d.updates ++ [.updateNotSet] }, .emplaced)
  | (d, .emplaced) =>
    some ({ d with updates := d.updates.dropLast ++ [.resetAllItems items] }, .returned)
  | (_, _) => none

/-- A raise leaves the loop and the list as it is. -/
def applyNext (order : MapOrder) (d : Shared) (at_ last : ℕ) : Shared × Local :=
  match d.updates[at_]?, d.scene with
  | none, _ => (d, .undefined)
  | some _, .raised _ _ => (d, .returned)
  | some u, .done scene =>
    match applyUpdate order scene u with
    | .done scene => ({ d with scene := .done scene }, .loop (at_ + 1) last)
    | .raised failure scene => ({ d with scene := .raised failure scene }, .returned)

def update (order : MapOrder) : Shared × Local → Option (Shared × Local)
  | (d, .begin) => some (d, .loop 0 d.updates.length)
  | (d, .loop at_ last) =>
    if at_ = last then some ({ d with updates := [] }, .returned)
    else some (applyNext order d at_ last)
  | (_, _) => none

def Use.func (order : MapOrder) (use : Use) : Func Shared Local where
  start := .begin
  next :=
    match use with
    | .processSceneUpdate u => SharedUpdates.processSceneUpdate u
    | .getSceneState items => SharedUpdates.getSceneState items
    | .update => SharedUpdates.update order

def Use.method (order : MapOrder) (use : Use) : Method Shared Local := useSafely (use.func order)

variable {τ : Type*} [DecidableEq τ]

abbrev SceneUpdates (τ : Type*) := Monitor τ Use Shared Local

def Run (order : MapOrder) : SceneUpdates τ → Prop := Reachable (Use.method order) {}

def Use.event : Use → FailedSnapshots.Event
  | .processSceneUpdate u => .processSceneUpdate u
  | .getSceneState items => .getSceneState (.answered items)
  | .update => .update

def Shared.client (d : Shared) : VisClient where
  sceneUpdates := d.updates
  scene := d.scene

def Shared.after (order : MapOrder) (use : Use) (d : Shared) : Shared :=
  let c := act order d.client use.event
  ⟨c.sceneUpdates, c.scene⟩

theorem applyNext_of_done (order : MapOrder) (past us : List SceneUpdate) (u : SceneUpdate)
    (scene : OpenGLScene) (last : ℕ) :
    applyNext order ⟨past ++ u :: us, .done scene⟩ past.length last =
      match applyUpdate order scene u with
      | .done scene => (⟨past ++ u :: us, .done scene⟩, .loop (past.length + 1) last)
      | .raised failure scene => (⟨past ++ u :: us, .raised failure scene⟩, .returned) := by
  simp [applyNext]

/-- The loop from a position on, when nothing comes between. -/
theorem loop_runs (order : MapOrder) (past us : List SceneUpdate) (scene : OpenGLScene) :
    Runs (Use.method order .update)
      (⟨past ++ us, .done scene⟩, .loop past.length (past ++ us).length)
      (match Vis.update order scene us with
        | .done t => ⟨[], .done t⟩
        | .raised failure t => ⟨past ++ us, .raised failure t⟩, .returned) := by
  induction us generalizing past scene with
  | nil =>
    refine .single ?_
    simp [Use.method, useSafely, Use.func, update, Vis.update, Outcome.drive]
  | cons u us ih =>
    have hstep : (Use.method order .update).next
        (⟨past ++ u :: us, .done scene⟩, .loop past.length (past ++ u :: us).length) =
        some (applyNext order ⟨past ++ u :: us, .done scene⟩ past.length
          (past ++ u :: us).length) :=
      if_neg (by simp)
    rw [applyNext_of_done] at hstep
    have hupdate : Vis.update order scene (u :: us) =
        (applyUpdate order scene u).andThen fun t => Vis.update order t us := rfl
    rw [hupdate]
    cases hu : applyUpdate order scene u with
    | raised failure t =>
      rw [hu] at hstep
      exact .single hstep
    | done t =>
      rw [hu] at hstep
      have hlength : (past ++ [u]).length = past.length + 1 := List.length_append
      have hrest := ih (past ++ [u]) t
      rw [List.append_assoc, List.singleton_append, hlength] at hrest
      exact .head hstep hrest

theorem use_runs (order : MapOrder) (use : Use) (d : Shared) :
    Runs (use.method order) (d, .begin) (d.after order use, .returned) := by
  cases use with
  | processSceneUpdate u => exact .single rfl
  | getSceneState items =>
    refine .head rfl (.single ?_)
    simp [Use.method, useSafely, Use.func, getSceneState, Shared.after, Shared.client, Use.event,
      act, FailedSnapshots.getSceneState, UnaryCall.reply]
  | update =>
    refine .head rfl ?_
    obtain ⟨updates, scene⟩ := d
    cases scene with
    | done scene =>
      have hloop := loop_runs order [] updates scene
      simp only [Shared.after, Use.event, act, FailedSnapshots.update, Shared.client]
      cases hu : Vis.update order scene updates <;> rw [hu] at hloop <;> exact hloop
    | raised failure scene =>
      cases updates with
      | nil => exact .single rfl
      | cons u us => exact .single rfl

def usedInTurn (order : MapOrder) (uses : List Use) : VisClient :=
  run (act order) {} (uses.map Use.event)

/-- The messages of a client play no part in a use of its updates. -/
theorem after_shared (order : MapOrder) (use : Use) (c : VisClient) :
    Shared.after order use ⟨c.sceneUpdates, c.scene⟩ =
      ⟨(act order c use.event).sceneUpdates, (act order c use.event).scene⟩ := by
  cases use with
  | processSceneUpdate u => rfl
  | getSceneState items => rfl
  | update =>
    obtain ⟨messages, updates, scene⟩ := c
    simp only [Shared.after, Use.event, act, FailedSnapshots.update, Shared.client]
    cases scene with
    | raised failure scene => rfl
    | done scene =>
      show (_ : Shared) = _
      cases hu : Vis.update order scene updates <;> simp only [hu]

theorem fold_shared (order : MapOrder) (uses : List Use) (c : VisClient) :
    let left := run (act order) c (uses.map Use.event)
    uses.foldl (fun d use => Shared.after order use d) ⟨c.sceneUpdates, c.scene⟩ =
      ⟨left.sceneUpdates, left.scene⟩ := by
  induction uses generalizing c with
  | nil => rfl
  | cons use uses ih =>
    rw [List.foldl_cons, after_shared]
    exact ih (act order c use.event)

omit [DecidableEq τ] in
theorem serial_client (order : MapOrder) {log : List (Entry τ Use Local)} {d : Shared}
    (h : Serial (Use.method order) {} log d) :
    d = ⟨(usedInTurn order (log.map Entry.call)).sceneUpdates,
      (usedInTurn order (log.map Entry.call)).scene⟩ := by
  have heffect : ∀ use d, ∃ r, Runs (Use.method order use) (d, (Use.method order use).start)
      (d.after order use, r) ∧ (Use.method order use).next (d.after order use, r) = none := by
    intro use d
    refine ⟨.returned, use_runs order use d, ?_⟩
    cases use <;> rfl
  rw [serial_effects (fun _ => rfl) heffect h]
  exact fold_shared order (log.map Entry.call) {}

def Looping (order : MapOrder) (found d : Shared) : Local → Prop
  | .loop at_ last => d.updates = found.updates ∧ last = d.updates.length ∧ at_ ≤ last ∧
      d.scene = found.scene.andThen fun t => Vis.update order t (d.updates.take at_)
  | .begin => d = found
  | .undefined => False
  | .emplaced | .returned => True

theorem looping_applyNext (order : MapOrder) {found d : Shared} {at_ last : ℕ}
    (h : Looping order found d (.loop at_ last)) (hne : at_ ≠ last) :
    Looping order found (applyNext order d at_ last).1 (applyNext order d at_ last).2 := by
  obtain ⟨hupdates, hlast, hle, hscene⟩ := h
  have hlt : at_ < d.updates.length := by omega
  have hget := List.getElem?_eq_getElem hlt
  have htake : d.updates.take (at_ + 1) = d.updates.take at_ ++ [d.updates[at_]] := by simp
  have hnext : (found.scene.andThen fun t => Vis.update order t (d.updates.take (at_ + 1))) =
      d.scene.andThen fun t => applyUpdate order t d.updates[at_] := by
    rw [htake, hscene]
    cases found.scene with
    | raised failure scene => rfl
    | done scene => simp only [Outcome.done_andThen, update_append, update_singleton]
  obtain ⟨updates, scene⟩ := d
  cases scene with
  | raised failure scene =>
    simp only [applyNext, hget]
    trivial
  | done scene =>
    simp only [applyNext, hget]
    cases hu : applyUpdate order scene updates[at_] with
    | raised failure t => trivial
    | done t =>
      refine ⟨hupdates, hlast, by omega, ?_⟩
      rw [hnext, Outcome.done_andThen, hu]

theorem looping_next (order : MapOrder) (use : Use) {found d d' : Shared} {r r' : Local}
    (h : Looping order found d r)
    (hnext : (use.method order).next (d, r) = some (d', r')) : Looping order found d' r' := by
  cases use with
  | processSceneUpdate u =>
    cases r <;> simp [Use.method, useSafely, Use.func, processSceneUpdate] at hnext
    obtain ⟨rfl, rfl⟩ := hnext
    trivial
  | getSceneState items =>
    cases r <;> simp [Use.method, useSafely, Use.func, getSceneState] at hnext
    all_goals obtain ⟨rfl, rfl⟩ := hnext; trivial
  | update =>
    cases r with
    | begin =>
      obtain rfl : d = found := h
      obtain ⟨rfl, rfl⟩ : d = d' ∧ .loop 0 d.updates.length = r' := by
        simpa [Use.method, useSafely, Use.func, update] using hnext
      refine ⟨rfl, rfl, Nat.zero_le _, ?_⟩
      cases d.scene <;> rfl
    | loop at_ last =>
      simp only [Use.method, useSafely, Use.func, update] at hnext
      split at hnext
      · cases hnext
        trivial
      · rename_i hne
        have hloop := looping_applyNext order h hne
        rw [Option.some.inj hnext] at hloop
        exact hloop
    | emplaced => cases hnext
    | returned => cases hnext
    | undefined => cases hnext

theorem looping_runs (order : MapOrder) (use : Use) {found d : Shared} {r : Local}
    (h : Runs (use.method order) (found, .begin) (d, r)) : Looping order found d r := by
  suffices hall : ∀ a, Runs (use.method order) (found, .begin) a → Looping order found a.1 a.2 from
    hall _ h
  intro a ha
  induction ha with
  | refl => rfl
  | tail _ hnext ih => exact looping_next order use ih hnext

/-- The uses that have finished are steps of the client, in the order in which
they released the lock; a loop under way stands on the list that it began with. -/
structure InTurn (order : MapOrder) (s : SceneUpdates τ) (c : VisClient) : Prop where
  client : c = usedInTurn order (s.log.map Entry.call)
  free : s.owner = none → s.data = ⟨c.sceneUpdates, c.scene⟩
  replayed : Replayed order (s.log.flatMap fun e => appended e.call.event) c
  looping : ∀ t use r, s.phase t = .inside use r → Looping order ⟨c.sceneUpdates, c.scene⟩ s.data r

/-- However the threads are interleaved, inside their uses too, the updates
and the scene are those of the client that makes one use after the other. -/
theorem scene_updates_in_turn (order : MapOrder) {s : SceneUpdates τ} (h : Run order s) :
    ∃ c, InTurn order s c := by
  obtain ⟨d, hatomic⟩ := atomic_reachable h
  have hd := serial_client order hatomic.serial
  refine ⟨usedInTurn order (s.log.map Entry.call), rfl, fun hfree => ?_, ?_, fun t use r ht => ?_⟩
  · rw [hatomic.free hfree, hd]
  · have hstart : Replayed order [] {} := by
      intro t ht
      cases ht
      exact ⟨[], rfl, rfl⟩
    have hrun := replayed_run order hstart ((s.log.map Entry.call).map Use.event)
    simpa [usedInTurn, List.flatMap_map] using hrun
  · have hsince := hatomic.since t
    rw [ht, hd] at hsince
    exact looping_runs order use hsince.2

theorem delivered_in_turn : ∃ s : SceneUpdates Bool,
    s.phase true = .inside .update (.loop 0 1) ∧ s.log.length = 1 ∧ ∃ c, InTurn entryOrder s c := by
  have h : Run entryOrder (idleMonitor {} : SceneUpdates Bool) := .refl
  have h := h.tail (.call (t := false) (.processSceneUpdate (.addItem shapedItem)) rfl)
  have h := h.tail (.lock (t := false) rfl rfl)
  have h := h.tail (.find (t := false) rfl rfl)
  have h := h.tail (.work (t := false) rfl rfl)
  have h := h.tail (.leave (t := false) rfl rfl)
  have h := h.tail (.call (t := true) .update rfl)
  have h := h.tail (.lock (t := true) rfl rfl)
  have h := h.tail (.find (t := true) rfl rfl)
  have h := h.tail (.work (t := true) rfl rfl)
  exact ⟨_, rfl, rfl, scene_updates_in_turn entryOrder h⟩

end SceneUpdates

section Messages

inductive MessageUse where
  | processMessageUpdate (message : Message)
  | getMessageState (messages : List Message)
  | configureGui

inductive MessageLocal where
  | begin
  | added
  | cleared
  | loop (at_ last : ℕ) (shown : List Message)
  | shown (messages : List Message)
  | returned
  | undefined

def processMessageUpdate (message : Message) :
    List Message × MessageLocal → Option (List Message × MessageLocal)
  | (messages, .begin) => some (messages ++ [⟨"", ""⟩], .added)
  | (messages, .added) => some (messages.dropLast ++ [message], .returned)
  | (_, _) => none

def getMessageState (reply : List Message) :
    List Message × MessageLocal → Option (List Message × MessageLocal)
  | (_, .begin) => some ([], .cleared)
  | (messages, .cleared) => some (messages ++ reply, .returned)
  | (_, _) => none

def configureGui : List Message × MessageLocal → Option (List Message × MessageLocal)
  | (messages, .begin) => some (messages, .loop 0 messages.length [])
  | (messages, .loop at_ last shown) =>
    if at_ = last then some (messages, .shown shown)
    else
      match messages[at_]? with
      | none => some (messages, .undefined)
      | some message => some (messages, .loop (at_ + 1) last (shown ++ [message]))
  | (_, _) => none

def MessageUse.func (use : MessageUse) : Func (List Message) MessageLocal where
  start := .begin
  next :=
    match use with
    | .processMessageUpdate message => SharedUpdates.processMessageUpdate message
    | .getMessageState reply => SharedUpdates.getMessageState reply
    | .configureGui => SharedUpdates.configureGui

def MessageUse.method (use : MessageUse) : Method (List Message) MessageLocal := useSafely use.func

variable {τ : Type*} [DecidableEq τ]

abbrev Messages (τ : Type*) := Monitor τ MessageUse (List Message) MessageLocal

def MessageUse.event : MessageUse → List FailedSnapshots.Event
  | .processMessageUpdate message => [.processMessageUpdate message]
  | .getMessageState reply => [.getMessageState (.answered reply)]
  | .configureGui => []

def MessageUse.after : MessageUse → List Message → List Message
  | .processMessageUpdate message, messages => messages ++ [message]
  | .getMessageState reply, _ => reply
  | .configureGui, messages => messages

def MessageUse.returns : MessageUse → List Message → MessageLocal
  | .processMessageUpdate _, _ | .getMessageState _, _ => .returned
  | .configureGui, messages => .shown messages

theorem shown_runs (past rest : List Message) :
    Runs MessageUse.configureGui.method
      (past ++ rest, .loop past.length (past ++ rest).length past)
      (past ++ rest, .shown (past ++ rest)) := by
  induction rest generalizing past with
  | nil =>
    refine .single ?_
    simp [MessageUse.method, useSafely, MessageUse.func, configureGui]
  | cons message rest ih =>
    have hlength : (past ++ [message]).length = past.length + 1 := List.length_append
    have hrest := ih (past ++ [message])
    rw [List.append_assoc, List.singleton_append, hlength] at hrest
    refine .head ?_ hrest
    simp [MessageUse.method, useSafely, MessageUse.func, configureGui]

theorem messageUse_runs (use : MessageUse) (messages : List Message) :
    Runs use.method (messages, .begin) (use.after messages, use.returns messages) := by
  cases use with
  | processMessageUpdate message =>
    refine .head rfl (.single ?_)
    simp [MessageUse.method, useSafely, MessageUse.func, processMessageUpdate, MessageUse.after,
      MessageUse.returns]
  | getMessageState reply => exact .head rfl (.single rfl)
  | configureGui => exact .head rfl (shown_runs [] messages)

theorem messageUse_ends (use : MessageUse) (messages left : List Message) :
    use.method.next (left, use.returns messages) = none := by
  cases use <;> rfl

def messagesInTurn (order : MapOrder) (uses : List MessageUse) : List Message :=
  (run (act order) {} (uses.flatMap MessageUse.event)).messages

theorem fold_messages (order : MapOrder) (uses : List MessageUse) (c : VisClient) :
    uses.foldl (fun messages use => use.after messages) c.messages =
      (run (act order) c (uses.flatMap MessageUse.event)).messages := by
  induction uses generalizing c with
  | nil => rfl
  | cons use uses ih =>
    rw [List.foldl_cons, List.flatMap_cons, run_append, ← ih]
    cases use <;> rfl

omit [DecidableEq τ] in
theorem serial_messages (order : MapOrder) {log : List (Entry τ MessageUse MessageLocal)}
    {messages : List Message} (h : Serial MessageUse.method [] log messages) :
    messages = messagesInTurn order (log.map Entry.call) := by
  have heffect : ∀ use messages, ∃ r, Runs (MessageUse.method use)
      (messages, (MessageUse.method use).start) (use.after messages, r) ∧
        (MessageUse.method use).next (use.after messages, r) = none :=
    fun use messages =>
      ⟨use.returns messages, messageUse_runs use messages, messageUse_ends use messages _⟩
  rw [serial_effects (fun _ => rfl) heffect h]
  exact fold_messages order (log.map Entry.call) {}

/-- However the threads are interleaved, the window shows the messages as they
were at one point between the uses that change them, and none in part. -/
theorem messages_shown_at_once (order : MapOrder) {s : Messages τ}
    (h : Reachable MessageUse.method [] s) :
    (s.owner = none → s.data = messagesInTurn order (s.log.map Entry.call)) ∧
      ∀ before e after r, s.log = before ++ e :: after → e.call = .configureGui →
        e.result = some r → r = .shown (messagesInTurn order (before.map Entry.call)) := by
  obtain ⟨messages, hatomic⟩ := atomic_reachable h
  constructor
  · intro hfree
    rw [hatomic.free hfree, serial_messages order hatomic.serial]
  · intro before e after r hlog hcall hr
    obtain ⟨found, left, hserial, hruns, hend⟩ := serial_entry hatomic.serial hlog hr
    rw [hcall] at hruns hend
    have hreturns := runs_unique hruns hend (messageUse_runs .configureGui found)
      (messageUse_ends .configureGui found _)
    rw [← serial_messages order hserial]
    exact congrArg Prod.snd hreturns

theorem message_shown_at_once : ∃ s : Messages Bool, ∃ r,
    Reachable MessageUse.method [] s ∧
    s.log = [⟨false, .processMessageUpdate ⟨"Sender", "Hello"⟩, some .returned⟩,
      ⟨true, .configureGui, some r⟩] ∧
    r = .shown (messagesInTurn entryOrder [.processMessageUpdate ⟨"Sender", "Hello"⟩]) := by
  have h : Reachable MessageUse.method [] (idleMonitor [] : Messages Bool) := .refl
  have h := h.tail (.call (t := false) (.processMessageUpdate ⟨"Sender", "Hello"⟩) rfl)
  have h := h.tail (.lock (t := false) rfl rfl)
  have h := h.tail (.find (t := false) rfl rfl)
  have h := h.tail (.work (t := false) rfl rfl)
  have h := h.tail (.work (t := false) rfl rfl)
  have h := h.tail (.leave (t := false) rfl rfl)
  have h := h.tail (.call (t := true) .configureGui rfl)
  have h := h.tail (.lock (t := true) rfl rfl)
  have h := h.tail (.find (t := true) rfl rfl)
  have h := h.tail (.work (t := true) rfl rfl)
  have h := h.tail (.work (t := true) rfl rfl)
  have h := h.tail (.work (t := true) rfl rfl)
  have h := h.tail (.leave (t := true) rfl rfl)
  exact ⟨_, _, h, rfl, (messages_shown_at_once entryOrder h).2 [_] _ [] _ rfl rfl rfl⟩

end Messages

end GVS.SharedUpdates
