import Gvs.GuardedRuns
import Gvs.ParameterOrder

/-!
# Requests of a stream

A stream collects the parameters that it accepts until it tries to send, and
the send carries exactly these, whatever becomes of it. A call with parameters
streams them one after the other: when one is rejected nothing is sent, and
those before it stay in the stream.
-/

set_option autoImplicit false

namespace GVS.StreamRequests
open GVS.Proto GVS.Server GVS.LogParams GVS.LoggedItems GVS.ParameterOrder GuardedRuns

/-- A stream with the requests it has sent and, only for the statements below,
the parameters it has accepted since it last tried to send, newest first. -/
structure Session where
  stream : GeometryItemStream
  sent : List SceneUpdateRequest := []
  accepted : List LogParam := []

inductive Operation where
  | shift (param : LogParam)
  | send (type : SendType) (reply : Reply)

def shift (s : Session) (param : LogParam) : Outcome String Session :=
  match shiftLeft s.stream param with
  | .done stream => .done { s with stream, accepted := param :: s.accepted }
  | .raised what stream => .raised what { s with stream }

def send (s : Session) (type : SendType) (reply : Reply) : Session :=
  let sending := sendWith s.stream type reply
  { stream := sending.2, sent := s.sent ++ sending.1.toList }

/-- What `operator<<` throws is caught by the caller. -/
def act (s : Session) : Operation → Session
  | .shift param => (shift s param).state
  | .send type reply => send s type reply

def call (s : Session) (params : List LogParam) (type : SendType) (reply : Reply) :
    Outcome String Session :=
  (Outcome.drive shift s params).andThen fun s => .done (send s type reply)

structure Carries (id : String) (accepted : List LogParam) (info : SceneItemInfo) : Prop where
  content : info = { draft accepted with id := some ⟨id⟩ }
  fields : ∀ slot, isSet info slot = true ↔ ∃ p ∈ accepted, (value slot p).isSome
  geometry : info.geometryInfo.isSome = true ↔ ∃ p ∈ accepted, isGeometry p = true

section Sends

/-- A send to the server is a send with the answer of the server. -/
theorem sendCurrentData_stub (s : SceneServer) (stream : GeometryItemStream) (type : SendType)
    (h : stream.stub = true) :
    let r := request { stream.info with id := some ⟨stream.id⟩ } type
    (sendCurrentData s stream type).1 = (requestUpdateScene s r).1 ∧
      sendWith stream type (.answered (requestUpdateScene s r).2) =
        (some r, (sendCurrentData s stream type).2) := by
  simp [sendCurrentData, sendWith, h]

theorem sendCurrentData_noStub (s : SceneServer) (stream : GeometryItemStream) (type : SendType)
    (h : stream.stub = false) :
    (sendCurrentData s stream type).1 = s ∧
      sendWith stream type .noStub = (none, (sendCurrentData s stream type).2) := by
  simp [sendCurrentData, sendWith, h]

theorem sendWith_request {stream : GeometryItemStream} {type : SendType} {reply : Reply}
    {r : SceneUpdateRequest} :
    (sendWith stream type reply).1 = some r ↔
      reply ≠ .noStub ∧ r = request { stream.info with id := some ⟨stream.id⟩ } type := by
  cases reply <;> simp [sendWith, eq_comm]

theorem sendWith_stream (stream : GeometryItemStream) (type : SendType) (reply : Reply) :
    (sendWith stream type reply).2.id = stream.id ∧
      (sendWith stream type reply).2.info = {} := by
  cases reply <;> exact ⟨rfl, rfl⟩

end Sends

section Shifts

/-- A parameter whose field is set is rejected and leaves everything as it was;
any other is accepted and adds its fields. -/
theorem shift_cases (s : Session) (p : LogParam) :
    (isSet s.stream.info (checked p) = true ∧
      shift s p = .raised ((checked p).functorName ++ " is already set") s) ∨
    (isSet s.stream.info (checked p) = false ∧
      ∃ written, p.functor s.stream.info = .ok written ∧
        (∀ slot, isSet written slot = (isSet s.stream.info slot || (value slot p).isSome)) ∧
        shift s p = .done
          { s with stream := { s.stream with info := written }, accepted := p :: s.accepted }) := by
  cases h : isSet s.stream.info (checked p) with
  | true =>
    have hpush : shiftLeft s.stream p =
        .raised ((checked p).functorName ++ " is already set") s.stream := by
      rw [shiftLeft_eq_push, push, functor_set h]
    refine Or.inl ⟨rfl, ?_⟩
    rw [shift, hpush]
  | false =>
    obtain ⟨written, hwritten, hslots⟩ := functor_unset h
    have hpush : shiftLeft s.stream p = .done { s.stream with info := written } := by
      rw [shiftLeft_eq_push, push, hwritten]
    refine Or.inr ⟨rfl, written, hwritten, hslots, ?_⟩
    rw [shift, hpush]

theorem shift_accepts (s : Session) (p : LogParam) :
    ((shift s p).Returns ↔ isSet s.stream.info (checked p) = false) ∧
      (act s (.shift p)).accepted =
        if isSet s.stream.info (checked p) then s.accepted else p :: s.accepted := by
  obtain ⟨hset, hshift⟩ | ⟨hset, written, -, -, hshift⟩ := shift_cases s p
  · rw [act, hshift, hset]
    exact ⟨iff_of_false (Outcome.not_returns_raised _ _) (by simp), rfl⟩
  · rw [act, hshift, hset]
    exact ⟨iff_of_true rfl rfl, rfl⟩

theorem shift_keeps (s : Session) (p : LogParam) :
    (shift s p).state.sent = s.sent ∧
      ∀ slot, isSet s.stream.info slot = true → isSet (shift s p).state.stream.info slot = true := by
  obtain ⟨-, hshift⟩ | ⟨-, written, -, hslots, hshift⟩ := shift_cases s p
  · rw [hshift]
    exact ⟨rfl, fun _ hslot => hslot⟩
  · rw [hshift]
    refine ⟨rfl, fun slot hslot => ?_⟩
    show isSet written slot = true
    rw [hslots, hslot, Bool.true_or]

theorem drive_keeps (s : Session) (params : List LogParam) :
    (Outcome.drive shift s params).state.sent = s.sent ∧
      ∀ slot, isSet s.stream.info slot = true →
        isSet (Outcome.drive shift s params).state.stream.info slot = true := by
  have hstep : ∀ t p,
      (t.sent = s.sent ∧ ∀ slot, isSet s.stream.info slot = true → isSet t.stream.info slot = true) →
      (shift t p).state.sent = s.sent ∧ ∀ slot, isSet s.stream.info slot = true →
        isSet (shift t p).state.stream.info slot = true := by
    rintro t p ⟨hsent, hset⟩
    obtain ⟨hsent', hset'⟩ := shift_keeps t p
    exact ⟨hsent'.trans hsent, fun slot hslot => hset' slot (hset slot hslot)⟩
  exact Outcome.drive_state shift hstep ⟨rfl, fun _ hslot => hslot⟩ params

end Shifts

section Collecting

def Collects (id : String) (s : Session) : Prop :=
  s.stream.id = id ∧ s.stream.info = draft s.accepted

theorem collects_act (id : String) (s : Session) (op : Operation) (h : Collects id s) :
    Collects id (act s op) := by
  obtain ⟨hid, hinfo⟩ := h
  cases op with
  | send type reply =>
    obtain ⟨hsame, hempty⟩ := sendWith_stream s.stream type reply
    exact ⟨hsame.trans hid, hempty⟩
  | shift p =>
    show Collects id (shift s p).state
    obtain ⟨-, hshift⟩ | ⟨hset, written, hwritten, -, hshift⟩ := shift_cases s p
    · rw [hshift]
      exact ⟨hid, hinfo⟩
    · rw [hinfo] at hset hwritten
      rw [isSet_draft, Option.isSome_eq_false_iff, Option.isNone_iff_eq_none] at hset
      rw [functor_draft hset] at hwritten
      rw [hshift]
      exact ⟨hid, (Except.ok.inj hwritten).symm⟩

theorem carries_draft (id : String) (accepted : List LogParam) :
    Carries id accepted { draft accepted with id := some ⟨id⟩ } where
  content := rfl
  fields slot := by
    show isSet (draft accepted) slot = true ↔ _
    rw [isSet_draft]
    simp [given]
  geometry := by
    rw [← List.any_eq_true]
    cases h : accepted.any isGeometry <;> simp [draft, h]

def emitted (s : Session) : Operation → Option SceneUpdateRequest
  | .shift _ => none
  | .send type reply => (sendWith s.stream type reply).1

theorem act_sent (s : Session) (op : Operation) :
    (act s op).sent = s.sent ++ (emitted s op).toList := by
  cases op with
  | shift p =>
    rw [emitted, Option.toList_none, List.append_nil]
    exact (shift_keeps s p).1
  | send type reply => rfl

end Collecting

section Rejections

/-- A call raises at the first of its parameters that finds its field set. -/
theorem call_eq_raised {s s' : Session} {params : List LogParam} {type : SendType} {reply : Reply}
    {what : String} (h : call s params type reply = .raised what s') :
    ∃ before rejected rest, params = before ++ rejected :: rest ∧
      Outcome.drive shift s before = .done s' ∧
      isSet s'.stream.info (checked rejected) = true ∧
      what = (checked rejected).functorName ++ " is already set" := by
  have hdrive : Outcome.drive shift s params = .raised what s' := by
    cases hd : Outcome.drive shift s params with
    | done t =>
      rw [call, hd, Outcome.done_andThen] at h
      cases h
    | raised what' t =>
      rw [call, hd, Outcome.raised_andThen] at h
      exact h
  obtain ⟨before, rejected, rest, t, hparams, hbefore, hrejected⟩ := Outcome.drive_eq_raised hdrive
  obtain ⟨hset, hshift⟩ | ⟨-, written, -, -, hshift⟩ := shift_cases t rejected
  · rw [hshift] at hrejected
    cases hrejected
    exact ⟨before, rejected, rest, hparams, hbefore, hset, rfl⟩
  · rw [hshift] at hrejected
    cases hrejected

theorem drive_info_eq_iff {s s' : Session} {params : List LogParam}
    (h : Outcome.drive shift s params = .done s') :
    s'.stream.info = s.stream.info ↔ params = [] := by
  cases params with
  | nil =>
    cases h
    exact iff_of_true rfl rfl
  | cons p params =>
    refine iff_of_false (fun hinfo => ?_) (List.cons_ne_nil p params)
    obtain ⟨t, ht, hrest⟩ := Outcome.andThen_eq_done.mp h
    obtain ⟨-, hshift⟩ | ⟨hset, written, -, hslots, hshift⟩ := shift_cases s p
    · rw [hshift] at ht
      cases ht
    · rw [hshift] at ht
      have hwritten : isSet t.stream.info (checked p) = true := by
        cases ht
        show isSet written (checked p) = true
        rw [hslots, (value_isSome_iff _ p).mpr (Or.inl rfl), Bool.or_true]
      have hkept := (drive_keeps t params).2 (checked p) hwritten
      rw [hrest, Outcome.state_done, hinfo, hset] at hkept
      cases hkept

/-- Parameters that were accepted stay in front of those of the next call. -/
theorem call_append {s s' : Session} {before : List LogParam}
    (h : Outcome.drive shift s before = .done s') (params : List LogParam) (type : SendType)
    (reply : Reply) : call s (before ++ params) type reply = call s' params type reply := by
  rw [call, Outcome.drive_append, h, Outcome.done_andThen, call]

/-- A call that raises sends nothing and keeps the parameters before the
rejected one, also in the calls that follow. -/
theorem call_raised {s s' : Session} {params : List LogParam} {type : SendType} {reply : Reply}
    {what : String} (h : call s params type reply = .raised what s') :
    ∃ before rejected rest, params = before ++ rejected :: rest ∧
      Outcome.drive shift s before = .done s' ∧
      isSet s'.stream.info (checked rejected) = true ∧
      what = (checked rejected).functorName ++ " is already set" ∧
      s'.sent = s.sent ∧
      (s'.stream.info = s.stream.info ↔ before = []) ∧
      ∀ retry type' reply',
        call s' retry type' reply' = call s (before ++ retry) type' reply' := by
  obtain ⟨before, rejected, rest, hparams, hbefore, hset, hwhat⟩ := call_eq_raised h
  refine ⟨before, rejected, rest, hparams, hbefore, hset, hwhat, ?_, drive_info_eq_iff hbefore, ?_⟩
  · have hsent := (drive_keeps s before).1
    rw [hbefore, Outcome.state_done] at hsent
    exact hsent
  · intro retry type' reply'
    exact (call_append hbefore retry type' reply').symm

def positionsTwice : List LogParam := [.positions3d [], .positions3d [0, 0, 0], .normals3d []]

theorem positionsTwice_raised :
    ∃ before rejected rest, positionsTwice = before ++ rejected :: rest ∧
      Outcome.drive shift { stream := freshStream "item" } before =
        .done { stream := { freshStream "item" with info := draft [.positions3d []] }
                accepted := [.positions3d []] } ∧
      isSet (draft [.positions3d []]) (checked rejected) = true ∧
      "positions_3d" ++ " is already set" = (checked rejected).functorName ++ " is already set" ∧
      ([] : List SceneUpdateRequest) = [] ∧
      (draft [.positions3d []] = {} ↔ before = []) ∧
      ∀ retry type' reply',
        call
          { stream := { freshStream "item" with info := draft [.positions3d []] }
            accepted := [.positions3d []] } retry type' reply' =
        call { stream := freshStream "item" } (before ++ retry) type' reply' :=
  @call_raised { stream := freshStream "item" }
    { stream := { freshStream "item" with info := draft [.positions3d []] }
      accepted := [.positions3d []] } positionsTwice .safe (.answered {}) _ rfl

/-- The first positions stay, and the corrected call raises because of them. -/
theorem positions_stay_streamed :
    let start : Session := { stream := freshStream "item" }
    let failed := call start positionsTwice .safe (.answered {})
    let corrected : List LogParam := [.positions3d [0, 0, 0], .normals3d []]
    failed = .raised "positions_3d is already set" failed.state ∧
      failed.state.sent = [] ∧
      failed.state.stream.info.geometryInfo = some { positions := some [] } ∧
      start.stream.info.geometryInfo = none ∧
      ¬ (call failed.state corrected .safe (.answered {})).Returns ∧
      (call start corrected .safe (.answered {})).Returns :=
  ⟨rfl, rfl, rfl, rfl, Outcome.not_returns_raised _ _, rfl⟩

end Rejections

end GVS.StreamRequests
