import Gvs.MessageClients
import Gvs.MessageHistory

/-!
# The conversation

Any number of viewers and of other programs talk through one server. A viewer
sends what was typed into its window, and shows what its snapshots and its
stream have brought it. All viewers that have joined show beginnings of one
conversation, which has of each of them what was typed there, in that order.
A frame waits for its call, and nobody else uses its inputs meanwhile, so that
it is one step.
-/

set_option autoImplicit false

namespace GVS.Conversation
open GVS.Proto GVS.Server GuardedRuns LogReplay
open GVS.MessageClients (Call ofClient ofClient_self ofClient_other)
open GVS.MessageHistory (Session Level Caught Recorded)

structure Window where
  messageIdInput : String := ""
  messageContentInput : String := ""
  errorMessage : String := ""

/-- What the user and the network do in a frame. An edit takes the text of an
input to its new text and tells whether it was confirmed; there is no call when
the client is not connected. -/
structure Frame where
  editName : String → String × Bool
  editContents : String → String × Bool
  sendButton : Bool
  call : Option Call
  closeErrors : Bool

def sendMessage (s : SceneServer) (message : Message) (call : Call) (errorMessage : String) :
    SceneServer × String :=
  match call with
  | .lost statusMessage => (s, statusMessage)
  | .cut statusMessage => ((requestSendMessage s message).1, statusMessage)
  | .answered =>
    let answer := requestSendMessage s message
    (answer.1, if answer.2.errorMsg.isEmpty then errorMessage else answer.2.errorMsg)

def showErrors (w : Window) (closeErrors : Bool) : Window :=
  if !w.errorMessage.isEmpty && closeErrors then { w with errorMessage := "" } else w

def configureGui (s : SceneServer) (w : Window) (f : Frame) : SceneServer × Window :=
  let name := f.editName w.messageIdInput
  let contents := f.editContents w.messageContentInput
  let w := { w with messageIdInput := name.1, messageContentInput := contents.1 }
  let sent :=
    if name.2 || contents.2 || f.sendButton then
      match f.call with
      | some call =>
        let left := sendMessage s ⟨w.messageIdInput, w.messageContentInput⟩ call w.errorMessage
        (left.1, { w with messageContentInput := "", errorMessage := left.2 })
      | none => (s, { w with errorMessage := "Not connected" })
    else (s, w)
  (sent.1, showErrors sent.2 f.closeErrors)

structure Viewer where
  window : Window := {}
  cursor : Option ℕ := none
  replies : List (List Message) := []
  applied : Bool := false
  messages : List Message := []

/-- Who has sent the messages of the server is noted for the statements only. -/
structure Room where
  server : SceneServer := {}
  viewers : ℕ → Viewer := fun _ => {}
  said : List (ℕ × Message) := []

inductive Receipt where
  | subscribe
  | answer
  | getMessageState (reply : ℕ)
  | processMessageUpdate

def Receipt.event : Receipt → MessageHistory.Event
  | .subscribe => .subscribe
  | .answer => .answer
  | .getMessageState reply => .getMessageState reply
  | .processMessageUpdate => .processMessageUpdate

inductive Operation where
  | configureGui (f : Frame)
  | receive (receipt : Receipt)
  | sendMessage (message : Message)

def session (c : Room) (k : ℕ) : Session where
  server := c.server
  cursor := (c.viewers k).cursor
  replies := (c.viewers k).replies
  applied := (c.viewers k).applied
  messages := (c.viewers k).messages

def arriving (w : Window) (f : Frame) : Option Message :=
  let name := f.editName w.messageIdInput
  let contents := f.editContents w.messageContentInput
  if name.2 || contents.2 || f.sendButton then
    f.call.bind fun call => if call.arrives then some ⟨name.1, contents.1⟩ else none
  else none

def write (c : Room) (k : ℕ) (v : Viewer) : Room :=
  { c with viewers := Function.update c.viewers k v }

def turn (c : Room) : ℕ × Operation → Room
  | (k, .configureGui f) =>
    let left := configureGui c.server (c.viewers k).window f
    { write c k { c.viewers k with window := left.2 } with
      server := left.1
      said := c.said ++ (arriving (c.viewers k).window f).toList.map (Prod.mk k) }
  | (k, .receive receipt) =>
    let s := MessageHistory.act (session c k) receipt.event
    write c k
      { window := (c.viewers k).window
        cursor := s.cursor
        replies := s.replies
        applied := s.applied
        messages := s.messages }
  | (k, .sendMessage message) =>
    { c with
      server := (requestSendMessage c.server message).1
      said := c.said ++ [(k, message)] }

section Windows

def alone (w : Window) : Operation → Window
  | .configureGui f => (configureGui {} w f).2
  | .receive _ | .sendMessage _ => w

/-- What one party says, from the name and the text that stand in its inputs:
the text that was typed since the last press with a connection. -/
def spoken : String → String → List Operation → List Message
  | _, _, [] => []
  | name, text, .receive _ :: ops => spoken name text ops
  | name, text, .sendMessage message :: ops => message :: spoken name text ops
  | name, text, .configureGui f :: ops =>
    let name := f.editName name
    let text := f.editContents text
    if name.2 || text.2 || f.sendButton then
      match f.call with
      | some call =>
        (if call.arrives then [⟨name.1, text.1⟩] else []) ++ spoken name.1 "" ops
      | none => spoken name.1 text.1 ops
    else spoken name.1 text.1 ops

/-- A frame brings at most its message to the server, and its window does not
depend on the server. -/
theorem configureGui_eq (s : SceneServer) (w : Window) (f : Frame) :
    configureGui s w f =
      ((arriving w f).toList.foldl (fun s message => (requestSendMessage s message).1) s,
        alone w (.configureGui f)) := by
  cases hpress : (f.editName w.messageIdInput).2 || (f.editContents w.messageContentInput).2 ||
      f.sendButton with
  | false => simp [configureGui, arriving, alone, hpress]
  | true =>
    rcases hcall : f.call with _ | _ | _ | _ <;>
      simp [configureGui, arriving, alone, hpress, hcall, sendMessage, Call.arrives,
        requestSendMessage]

def uttered (w : Window) : Operation → List Message
  | .configureGui f => (arriving w f).toList
  | .receive _ => []
  | .sendMessage message => [message]

@[simp] theorem showErrors_inputs (w : Window) (closeErrors : Bool) :
    (showErrors w closeErrors).messageIdInput = w.messageIdInput ∧
      (showErrors w closeErrors).messageContentInput = w.messageContentInput := by
  unfold showErrors
  split <;> exact ⟨rfl, rfl⟩

theorem spoken_cons (w : Window) (op : Operation) (ops : List Operation) :
    spoken w.messageIdInput w.messageContentInput (op :: ops) = uttered w op ++
      spoken (alone w op).messageIdInput (alone w op).messageContentInput ops := by
  cases op with
  | receive receipt => rfl
  | sendMessage message => rfl
  | configureGui f =>
    cases hpress : (f.editName w.messageIdInput).2 || (f.editContents w.messageContentInput).2 ||
        f.sendButton with
    | false => simp [spoken, uttered, alone, configureGui, arriving, hpress]
    | true =>
      rcases hcall : f.call with _ | call
      · simp [spoken, uttered, alone, configureGui, arriving, hpress, hcall]
      · cases harrives : call.arrives <;>
          simp [spoken, uttered, alone, configureGui, arriving, hpress, hcall, harrives]

end Windows

section Parties

theorem ofClient_append {α : Type*} (k : ℕ) (xs ys : List (ℕ × α)) :
    ofClient k (xs ++ ys) = ofClient k xs ++ ofClient k ys := by
  simp [ofClient]

theorem ofClient_own {α : Type*} (k : ℕ) (xs : List α) : ofClient k (xs.map (Prod.mk k)) = xs := by
  simp [ofClient, List.filter_map, Function.comp_def]

theorem ofClient_foreign {α : Type*} {j k : ℕ} (h : j ≠ k) (xs : List α) :
    ofClient k (xs.map (Prod.mk j)) = [] := by
  simp [ofClient, List.filter_map, Function.comp_def, h]

theorem turn_said (c : Room) (k : ℕ) (op : Operation) :
    (turn c (k, op)).said = c.said ++ (uttered (c.viewers k).window op).map (Prod.mk k) := by
  cases op with
  | configureGui f => rfl
  | receive receipt => simp [turn, write, uttered]
  | sendMessage message => rfl

theorem turn_messages (c : Room) (k : ℕ) (op : Operation) :
    (turn c (k, op)).server.messages = c.server.messages ++ uttered (c.viewers k).window op := by
  cases op with
  | receive receipt => simp [turn, write, uttered]
  | sendMessage message => rfl
  | configureGui f =>
    simp only [turn, configureGui_eq, uttered]
    cases arriving (c.viewers k).window f <;> simp [requestSendMessage]

theorem turn_window (c : Room) (k : ℕ) (op : Operation) :
    ((turn c (k, op)).viewers k).window = alone (c.viewers k).window op := by
  cases op with
  | configureGui f => simp [turn, write, configureGui_eq]
  | receive receipt => simp [turn, write, alone]
  | sendMessage message => rfl

theorem turn_window_other (c : Room) {j k : ℕ} (h : j ≠ k) (op : Operation) :
    ((turn c (k, op)).viewers j).window = (c.viewers j).window := by
  cases op with
  | configureGui f => simp [turn, write, h]
  | receive receipt => simp [turn, write, h]
  | sendMessage message => rfl

/-- The window of a party and what it says do not depend on the others. -/
theorem party_run (c : Room) (turns : List (ℕ × Operation)) (k : ℕ) :
    let w := (c.viewers k).window
    ((run turn c turns).viewers k).window = run alone w (ofClient k turns) ∧
      ofClient k (run turn c turns).said = ofClient k c.said ++
        spoken w.messageIdInput w.messageContentInput (ofClient k turns) := by
  induction turns generalizing c with
  | nil => exact ⟨rfl, by simp [run, ofClient, spoken]⟩
  | cons x turns ih =>
    obtain ⟨j, op⟩ := x
    obtain ⟨hwindow, hsaid⟩ := ih (turn c (j, op))
    rw [turn_said, ofClient_append] at hsaid
    by_cases h : k = j
    · subst h
      rw [turn_window] at hwindow hsaid
      rw [ofClient_own] at hsaid
      refine ⟨by rw [run, hwindow, ofClient_self, run], ?_⟩
      rw [run, hsaid, ofClient_self, spoken_cons, List.append_assoc]
    · rw [turn_window_other c h] at hwindow hsaid
      rw [ofClient_foreign (Ne.symm h), List.append_nil] at hsaid
      rw [ofClient_other (Ne.symm h)]
      exact ⟨hwindow, hsaid⟩

end Parties

section Agreement

theorem receipt_server (s : Session) (receipt : Receipt) :
    (MessageHistory.act s receipt.event).server = s.server := by
  cases receipt with
  | subscribe => rfl
  | answer => rfl
  | getMessageState reply =>
    show (MessageHistory.getMessageState s reply).server = s.server
    unfold MessageHistory.getMessageState
    split <;> rfl
  | processMessageUpdate =>
    show (MessageHistory.processMessageUpdate s).server = s.server
    unfold MessageHistory.processMessageUpdate
    split
    · rfl
    · split <;> rfl

def heard (c : Room) (j : ℕ) : ℕ × Operation → List MessageHistory.Event
  | (k, .receive receipt) => if j = k then [receipt.event] else []
  | (k, op) => (uttered (c.viewers k).window op).map .sendMessage

theorem session_turn (c : Room) (j : ℕ) (x : ℕ × Operation) :
    session (turn c x) j = run MessageHistory.act (session c j) (heard c j x) := by
  obtain ⟨k, op⟩ := x
  cases op with
  | sendMessage message => rfl
  | configureGui f =>
    simp only [turn, configureGui_eq, heard, uttered]
    cases arriving (c.viewers k).window f <;> by_cases h : j = k <;>
      simp [session, write, run, MessageHistory.act, h]
  | receive receipt =>
    by_cases h : j = k
    · subst h
      have hserver := receipt_server (session c j) receipt
      simp only [turn, heard, if_true, run]
      generalize MessageHistory.act (session c j) receipt.event = s at hserver ⊢
      obtain ⟨server, cursor, replies, applied, messages⟩ := s
      obtain rfl : server = c.server := hserver
      simp [session, write]
    · simp [session, turn, write, heard, run, h]

def Meets (c : Room) : ℕ × Operation → Prop
  | (k, .receive receipt) => Level (session c k) receipt.event
  | (_, .configureGui _) | (_, .sendMessage _) => True

theorem along_heard (c : Room) (j : ℕ) {x : ℕ × Operation} (h : Meets c x) :
    Along MessageHistory.act Level (session c j) (heard c j x) := by
  obtain ⟨k, op⟩ := x
  cases op with
  | sendMessage message => exact ⟨trivial, trivial⟩
  | configureGui f =>
    simp only [heard, uttered]
    cases arriving (c.viewers k).window f with
    | none => trivial
    | some message => exact ⟨trivial, trivial⟩
  | receive receipt =>
    by_cases hj : j = k
    · subst hj
      simp only [heard, if_true]
      exact ⟨h, trivial⟩
    · simp only [heard, hj, if_false]
      trivial

def Attentive (c : Room) : Prop := ∀ j, Caught (session c j)

theorem attentive_turn (c : Room) (x : ℕ × Operation) (h : Attentive c) (hx : Meets c x) :
    Attentive (turn c x) := by
  intro j
  rw [session_turn]
  exact run_invariant_along MessageHistory.act Caught MessageHistory.caught_act (h j)
    (along_heard c j hx)

theorem caught_shown {s : Session} (h : Caught s) (ha : s.applied = true) {n : ℕ}
    (hn : s.cursor = some n) : s.messages = s.server.messages.take n := by
  obtain ⟨first, m, hm, hf, -, hmessages⟩ := h.2 ha (by rw [hn]; rfl)
  obtain rfl : n = m := Option.some.inj (hn.symm.trans hm)
  rw [hmessages, h.1.stored, appended]
  have hfirst : s.server.messageStream.take first = (s.server.messageStream.take n).take first := by
    rw [List.take_take, Nat.min_eq_left hf]
  rw [hfirst, List.take_append_drop]

def Joined (c : Room) (k : ℕ) : Prop :=
  (c.viewers k).applied = true ∧ (c.viewers k).cursor.isSome

theorem shown_begins {c : Room} (h : Attentive c) {k : ℕ} (hk : Joined c k) :
    (c.viewers k).messages <+: c.server.messages := by
  obtain ⟨n, hn⟩ := Option.isSome_iff_exists.mp hk.2
  have hshown : (c.viewers k).messages = c.server.messages.take n :=
    caught_shown (h k) hk.1 hn
  rw [hshown]
  exact List.take_prefix n _

theorem messages_grow (c : Room) (turns : List (ℕ × Operation)) :
    c.server.messages <+: (run turn c turns).server.messages := by
  have hgrow : ∀ d x, c.server.messages <+: d.server.messages →
      c.server.messages <+: (turn d x).server.messages := by
    rintro d ⟨k, op⟩ h
    rw [turn_messages]
    exact h.trans (List.prefix_append _ _)
  exact run_invariant turn hgrow (List.prefix_refl _) turns

theorem attentive_start : Attentive {} := fun _ => MessageHistory.caught_start

theorem said_run (turns : List (ℕ × Operation)) :
    (run turn {} turns).server.messages = (run turn {} turns).said.map Prod.snd := by
  have hsaid : ∀ c x, c.server.messages = c.said.map Prod.snd →
      (turn c x).server.messages = (turn c x).said.map Prod.snd := by
    rintro c ⟨k, op⟩ h
    rw [turn_messages, turn_said, List.map_append, List.map_map, h]
    simp [Function.comp_def]
  exact run_invariant turn hsaid rfl turns

/-- Whatever the parties do: the history of the server is what they have said,
and each of them has said what was typed and sent there, in that order. Where
snapshots and streams meet, what any two viewers that have joined show, also at
two different moments, are beginnings of that one history, and so one of the
other. -/
theorem one_conversation (before after : List (ℕ × Operation)) :
    let early := run turn {} before
    let late := run turn {} (before ++ after)
    late.server.messages = late.said.map Prod.snd ∧
      (∀ k, ofClient k late.said = spoken "" "" (ofClient k (before ++ after)) ∧
        (late.viewers k).window = run alone {} (ofClient k (before ++ after))) ∧
      (Along turn Meets {} (before ++ after) → ∀ j k, Joined early j → Joined late k →
        (early.viewers j).messages <+: late.server.messages ∧
          (late.viewers k).messages <+: late.server.messages ∧
          ((early.viewers j).messages <+: (late.viewers k).messages ∨
            (late.viewers k).messages <+: (early.viewers j).messages)) := by
  intro early late
  refine ⟨said_run (before ++ after), fun k => ?_, fun h j k hj hk => ?_⟩
  · obtain ⟨hwindow, hsaid⟩ := party_run {} (before ++ after) k
    exact ⟨hsaid, hwindow⟩
  · have hlate : Attentive late :=
      run_invariant_along turn Attentive attentive_turn attentive_start h
    have hearly : Attentive early := run_invariant_along turn Attentive attentive_turn
      attentive_start ((along_append turn Meets {} before after).mp h).1
    have hgrow : early.server.messages <+: late.server.messages := by
      show _ <+: (run turn {} (before ++ after)).server.messages
      rw [run_append]
      exact messages_grow early after
    have hbefore := (shown_begins hearly hj).trans hgrow
    have hafter := shown_begins hlate hk
    exact ⟨hbefore, hafter, List.prefix_or_prefix_of_prefix hbefore hafter⟩

def typing (text : String) : Frame where
  editName := fun name => (name, false)
  editContents := fun contents => (contents ++ text, true)
  sendButton := false
  call := some .answered
  closeErrors := false

def firstJoins : List (ℕ × Operation) :=
  [(0, .receive .answer), (0, .receive (.getMessageState 0)), (0, .receive .subscribe),
    (0, .configureGui (typing "Hello")), (0, .receive .processMessageUpdate)]

def secondJoins : List (ℕ × Operation) :=
  [(1, .receive .answer), (1, .receive (.getMessageState 0)), (1, .receive .subscribe),
    (1, .configureGui (typing "Hi")), (1, .receive .processMessageUpdate)]

theorem greetings_meet : Along turn Meets {} (firstJoins ++ secondJoins) := by
  have hnever : ∀ c : Room, ∀ k reply, (c.viewers k).cursor = none →
      Meets c (k, .receive (.getMessageState reply)) := by
    intro c k reply hnone snapshot n _ hn
    have hsome : (c.viewers k).cursor = some n := hn
    rw [hnone] at hsome
    cases hsome
  exact ⟨trivial, hnever _ _ _ rfl, fun _ _ => rfl, trivial, trivial,
    trivial, hnever _ _ _ rfl, fun _ _ => rfl, trivial, trivial, trivial⟩

theorem greetings_one_conversation :
    let early := run turn {} firstJoins
    let late := run turn {} (firstJoins ++ secondJoins)
    late.server.messages = [⟨"", "Hello"⟩, ⟨"", "Hi"⟩] ∧
      (early.viewers 0).messages = [⟨"", "Hello"⟩] ∧
      ((early.viewers 0).messages <+: (late.viewers 1).messages ∨
        (late.viewers 1).messages <+: (early.viewers 0).messages) :=
  ⟨rfl, rfl, ((one_conversation firstJoins secondJoins).2.2 greetings_meet 0 1
    ⟨rfl, rfl⟩ ⟨rfl, rfl⟩).2.2⟩

end Agreement

end GVS.Conversation
