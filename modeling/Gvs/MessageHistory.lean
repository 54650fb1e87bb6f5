import Gvs.LogReplay
import Gvs.Server

/-!
# The message history of a viewer

The message stream of the server is read from the subscription on, and each
delivery is appended to the viewer's list. A snapshot of all messages replaces
that list. Neither says how far the other has come, so the list is the server's
exactly when the last snapshot ended where the viewer began to append.
-/

set_option autoImplicit false

namespace GVS.MessageHistory
open GVS.Proto GVS.Server GuardedRuns LogReplay

/-- The server with one viewer. The cursor is where the viewer's stream reads
next; replies are snapshots that were answered and not yet applied. -/
structure Session where
  server : SceneServer := {}
  cursor : Option ℕ := none
  replies : List (List Message) := []
  applied : Bool := false
  messages : List Message := []

inductive Event where
  | sendMessage (message : Message)
  | subscribe
  | answer
  | getMessageState (reply : ℕ)
  | processMessageUpdate

def processMessageUpdate (s : Session) : Session :=
  match s.cursor with
  | none => s
  | some n =>
    match s.server.messageStream[n]? with
    | none => s
    | some message => { s with messages := s.messages ++ [message], cursor := some (n + 1) }

def getMessageState (s : Session) (reply : ℕ) : Session :=
  match s.replies[reply]? with
  | none => s
  | some snapshot =>
    { s with messages := snapshot, applied := true, replies := s.replies.eraseIdx reply }

def act (s : Session) : Event → Session
  | .sendMessage message => { s with server := (requestSendMessage s.server message).1 }
  | .subscribe => { s with cursor := s.cursor.or (some s.server.messageStream.length) }
  | .answer => { s with replies := s.replies ++ [requestGetAllMessages s.server] }
  | .getMessageState reply => getMessageState s reply
  | .processMessageUpdate => processMessageUpdate s

def Settled (s : Session) : Prop :=
  s.cursor = some s.server.messageStream.length ∧ s.applied = true ∧ s.replies = []

def Faithful (s : Session) : Prop := Settled s → s.messages = s.server.messages

def Joins (s : Session) : Event → Prop
  | .subscribe => s.cursor = none
  | .getMessageState reply => (s.replies[reply]?).isSome
  | .sendMessage _ | .answer | .processMessageUpdate => False

/-- Snapshot and stream meet: the snapshot has as many messages as the stream
has delivered or skipped. -/
def Level (s : Session) : Event → Prop
  | .subscribe => s.cursor = none → s.applied = true →
      s.messages.length = s.server.messageStream.length
  | .getMessageState reply => ∀ snapshot n, s.replies[reply]? = some snapshot →
      s.cursor = some n → snapshot.length = n
  | .sendMessage _ | .answer | .processMessageUpdate => True

structure Recorded (s : Session) : Prop where
  stored : s.server.messages = s.server.messageStream
  cursor : ∀ n, s.cursor = some n → n ≤ s.server.messageStream.length
  replies : ∀ snapshot ∈ s.replies, snapshot <+: s.server.messageStream
  early : s.cursor = none → s.messages <+: s.server.messageStream

/-- The viewer holds the first messages up to the end of a snapshot and those
that it was delivered from a position on. -/
def Holds (taken first : ℕ) (s : Session) : Prop :=
  ∃ n, s.cursor = some n ∧ first ≤ n ∧ taken ≤ s.server.messageStream.length ∧
    s.messages = appended s.server.messageStream taken first n

theorem recorded_start : Recorded {} where
  stored := rfl
  cursor n h := by cases h
  replies snapshot h := by cases h
  early _ := List.nil_prefix

theorem recorded_act (s : Session) (e : Event) (h : Recorded s) : Recorded (act s e) := by
  cases e with
  | sendMessage message =>
    exact {
      stored := by rw [act, requestSendMessage, h.stored]
      cursor := fun n hn => (h.cursor n hn).trans (by simp [act, requestSendMessage])
      replies := fun snapshot hm => (h.replies snapshot hm).trans (List.prefix_append _ _)
      early := fun hc => (h.early hc).trans (List.prefix_append _ _) }
  | subscribe =>
    refine ⟨h.stored, fun n hn => ?_, h.replies, fun hc => ?_⟩
    · cases hcur : s.cursor with
      | none =>
        simp only [act, hcur, Option.none_or, Option.some.injEq] at hn
        exact Nat.le_of_eq hn.symm
      | some m =>
        simp only [act, hcur, Option.some_or, Option.some.injEq] at hn
        exact hn ▸ h.cursor m hcur
    · simp [act] at hc
  | answer =>
    refine ⟨h.stored, h.cursor, fun snapshot hm => ?_, h.early⟩
    rcases List.mem_append.mp hm with hm | hm
    · exact h.replies snapshot hm
    · obtain rfl := List.mem_singleton.mp hm
      rw [requestGetAllMessages, h.stored]
      exact List.prefix_refl _
  | getMessageState reply =>
    show Recorded (getMessageState s reply)
    unfold getMessageState
    cases hr : s.replies[reply]? with
    | none => exact h
    | some snapshot =>
      exact ⟨h.stored, h.cursor, fun other hm => h.replies other (List.mem_of_mem_eraseIdx hm),
        fun _ => h.replies snapshot (List.mem_of_getElem? hr)⟩
  | processMessageUpdate =>
    show Recorded (processMessageUpdate s)
    unfold processMessageUpdate
    cases hc : s.cursor with
    | none => exact h
    | some n =>
      cases hm : s.server.messageStream[n]? with
      | none => simpa [hm] using h
      | some message =>
        obtain ⟨hlt, -⟩ := List.getElem?_eq_some_iff.mp hm
        simp only [hm]
        exact ⟨h.stored, (fun m he => by cases he; exact hlt), h.replies, fun he => by cases he⟩

theorem holds_act {s : Session} {e : Event} {taken first : ℕ} (hr : Recorded s)
    (h : Holds taken first s) (hj : ¬ Joins s e) : Holds taken first (act s e) := by
  obtain ⟨n, hc, hf, ht, hm⟩ := h
  have hn := hr.cursor n hc
  cases e with
  | sendMessage message =>
    refine ⟨n, hc, hf, ?_, ?_⟩
    · simp only [act, requestSendMessage, List.length_append]
      omega
    · simp only [act, requestSendMessage]
      rw [appended_write ht hn, hm]
  | subscribe => exact ⟨n, by simp [act, hc], hf, ht, hm⟩
  | answer => exact ⟨n, hc, hf, ht, hm⟩
  | getMessageState reply =>
    have hnone : s.replies[reply]? = none := Option.not_isSome_iff_eq_none.mp hj
    have hs : act s (.getMessageState reply) = s := by rw [act, getMessageState, hnone]
    rw [hs]
    exact ⟨n, hc, hf, ht, hm⟩
  | processMessageUpdate =>
    cases hnext : s.server.messageStream[n]? with
    | none =>
      have hs : act s .processMessageUpdate = s := by simp [act, processMessageUpdate, hc, hnext]
      rw [hs]
      exact ⟨n, hc, hf, ht, hm⟩
    | some message =>
      obtain ⟨hlt, rfl⟩ := List.getElem?_eq_some_iff.mp hnext
      have hs : act s .processMessageUpdate =
          { s with messages := s.messages ++ [s.server.messageStream[n]],
                   cursor := some (n + 1) } := by simp [act, processMessageUpdate, hc, hnext]
      rw [hs]
      exact ⟨n + 1, rfl, Nat.le_succ_of_le hf, ht, by rw [appended_read hf hlt, ← hm]⟩

/-- An event that joins snapshot and stream decides where the list grows from. -/
theorem holds_join {s : Session} {e : Event} (hr : Recorded s) (hj : Joins s e)
    (ha : (act s e).applied = true) (hc : (act s e).cursor.isSome) :
    ∃ taken first, Holds taken first (act s e) ∧ (taken = first ↔ Level s e) := by
  cases e with
  | subscribe =>
    have hcur : s.cursor = none := hj
    have happlied : s.applied = true := ha
    have hprefix := hr.early hcur
    refine ⟨s.messages.length, s.server.messageStream.length,
      ⟨s.server.messageStream.length, by simp [act, hcur], le_refl _, hprefix.length_le, ?_⟩, ?_⟩
    · simp only [act]
      rw [appended_start]
      exact List.prefix_iff_eq_take.mp hprefix
    · simp [Level, hcur, happlied]
  | getMessageState reply =>
    obtain ⟨snapshot, hs⟩ := Option.isSome_iff_exists.mp hj
    have hact : act s (.getMessageState reply) =
        { s with messages := snapshot, applied := true,
                 replies := s.replies.eraseIdx reply } := by rw [act, getMessageState, hs]
    rw [hact] at hc ⊢
    obtain ⟨n, hn⟩ := Option.isSome_iff_exists.mp hc
    have hcur : s.cursor = some n := hn
    have hprefix := hr.replies snapshot (List.mem_of_getElem? hs)
    refine ⟨snapshot.length, n, ⟨n, hn, le_refl _, hprefix.length_le, ?_⟩, ?_⟩
    · rw [appended_start]
      exact List.prefix_iff_eq_take.mp hprefix
    · simp [Level, hs, hcur]
  | sendMessage message => exact hj.elim
  | answer => exact hj.elim
  | processMessageUpdate => exact hj.elim

/-- A settled viewer that joined level shows the history, any other does not. -/
theorem holds_settled {s : Session} {taken first : ℕ} (hr : Recorded s)
    (h : Holds taken first s) (hs : Settled s) :
    s.messages = s.server.messages ↔ taken = first := by
  obtain ⟨n, hc, hf, ht, hm⟩ := h
  obtain rfl : s.server.messageStream.length = n := Option.some.inj (hs.1.symm.trans hc)
  rw [hr.stored, hm]
  exact appended_eq_iff ht hf

theorem joined_before {s : Session} {e : Event} (hj : ¬ Joins s e) :
    (act s e).applied = s.applied ∧ (act s e).cursor.isSome = s.cursor.isSome := by
  cases e with
  | sendMessage message => exact ⟨rfl, rfl⟩
  | subscribe =>
    obtain ⟨n, hn⟩ := Option.ne_none_iff_exists'.mp hj
    exact ⟨rfl, by simp [act, hn]⟩
  | answer => exact ⟨rfl, rfl⟩
  | getMessageState reply =>
    have hnone : s.replies[reply]? = none := Option.not_isSome_iff_eq_none.mp hj
    have hs : act s (.getMessageState reply) = s := by rw [act, getMessageState, hnone]
    rw [hs]
    exact ⟨rfl, rfl⟩
  | processMessageUpdate =>
    show (processMessageUpdate s).applied = _ ∧ (processMessageUpdate s).cursor.isSome = _
    unfold processMessageUpdate
    cases hc : s.cursor with
    | none => exact ⟨rfl, by rw [hc]⟩
    | some n =>
      cases hm : s.server.messageStream[n]? with
      | none => simp [hm, hc]
      | some message => simp [hm]

def Caught (s : Session) : Prop :=
  Recorded s ∧ (s.applied = true → s.cursor.isSome → ∃ first, Holds first first s)

theorem caught_act (s : Session) (e : Event) (h : Caught s) (hl : Level s e) :
    Caught (act s e) := by
  refine ⟨recorded_act s e h.1, fun ha hc => ?_⟩
  by_cases hj : Joins s e
  · obtain ⟨taken, first, hh, hlevel⟩ := holds_join h.1 hj ha hc
    obtain rfl := hlevel.mpr hl
    exact ⟨taken, hh⟩
  · obtain ⟨happlied, hcursor⟩ := joined_before hj
    obtain ⟨first, hh⟩ := h.2 (happlied ▸ ha) (hcursor ▸ hc)
    exact ⟨first, holds_act h.1 hh hj⟩

theorem faithful_of_caught (s : Session) (h : Caught s) : Faithful s := by
  intro hs
  obtain ⟨first, hh⟩ := h.2 hs.2.1 (by rw [hs.1]; rfl)
  exact (holds_settled h.1 hh hs).mpr rfl

theorem caught_start : Caught {} := ⟨recorded_start, fun h => by cases h⟩

/-- What was joined is held to the end of a run that joins nothing else. -/
theorem holds_run {s : Session} {taken first : ℕ} (hr : Recorded s) (h : Holds taken first s)
    {events : List Event} (hj : Along act (fun s e => ¬ Joins s e) s events) :
    Recorded (run act s events) ∧ Holds taken first (run act s events) :=
  run_invariant_along act (fun s => Recorded s ∧ Holds taken first s)
    (fun s e h hg => ⟨recorded_act s e h.1, holds_act h.1 h.2 hg⟩) ⟨hr, h⟩ hj

theorem joined_run {s : Session} {events : List Event}
    (hj : Along act (fun s e => ¬ Joins s e) s events) :
    (run act s events).applied = s.applied ∧
      (run act s events).cursor.isSome = s.cursor.isSome := by
  induction events generalizing s with
  | nil => exact ⟨rfl, rfl⟩
  | cons e events ih =>
    obtain ⟨happlied, hcursor⟩ := ih hj.2
    obtain ⟨happlied', hcursor'⟩ := joined_before hj.1
    exact ⟨happlied.trans happlied', hcursor.trans hcursor'⟩

/-- In every run whose events join level, a settled viewer shows the history
of the server. In any run, a settled viewer shows it exactly when the last
event that joined snapshot and stream was level. -/
theorem message_history (events : List Event) :
    (Along act Level {} events → Everywhere act Faithful {} events) ∧
      ∀ before joining after, events = before ++ joining :: after →
        Joins (run act {} before) joining →
        Along act (fun s e => ¬ Joins s e) (run act {} (before ++ [joining])) after →
        Settled (run act {} events) →
          ((run act {} events).messages = (run act {} events).server.messages ↔
            Level (run act {} before) joining) := by
  refine ⟨fun hl => everywhere_mono act faithful_of_caught
    (everywhere_of_along act caught_act caught_start hl), ?_⟩
  rintro before joining after rfl hjoins hafter hsettled
  rw [run_append, run] at hsettled ⊢
  rw [run_append, run, run] at hafter
  have hrecorded : Recorded (run act {} before) :=
    run_invariant act recorded_act recorded_start before
  obtain ⟨happlied, hcursor⟩ := joined_run hafter
  have hcur := congrArg Option.isSome hsettled.1
  rw [hcursor] at hcur
  obtain ⟨taken, first, hh, hlevel⟩ :=
    holds_join hrecorded hjoins (happlied ▸ hsettled.2.1) hcur
  obtain ⟨hrec, hholds⟩ := holds_run (recorded_act _ _ hrecorded) hh hafter
  rw [holds_settled hrec hholds hsettled, hlevel]

def hello : Message := ⟨"Sender", "Hello"⟩

def welcome : List Event :=
  [.answer, .getMessageState 0, .subscribe, .sendMessage hello, .processMessageUpdate]

theorem welcome_history :
    Everywhere act Faithful {} welcome ∧
      ((run act {} welcome).messages = (run act {} welcome).server.messages ↔
        Level (run act {} (welcome.take 2)) .subscribe) := by
  obtain ⟨hruns, hlast⟩ := message_history welcome
  constructor
  · refine hruns ⟨trivial, ?_, fun _ _ => rfl, trivial, trivial, trivial⟩
    intro snapshot n _ hcursor
    cases hcursor
  · exact hlast (welcome.take 2) .subscribe (welcome.drop 3) rfl rfl ⟨id, id, trivial⟩
      ⟨rfl, rfl, rfl⟩

def echo : List Event :=
  [.subscribe, .sendMessage hello, .answer, .getMessageState 0, .processMessageUpdate]

theorem message_shown_twice :
    Settled (run act {} echo) ∧ (run act {} echo).messages = [hello, hello] ∧
      ¬ Faithful (run act {} echo) := by
  have hs : Settled (run act {} echo) := ⟨rfl, rfl, rfl⟩
  refine ⟨hs, rfl, fun h => ?_⟩
  have heq : [hello, hello] = [hello] := h hs
  exact absurd heq (by decide)

end GVS.MessageHistory
