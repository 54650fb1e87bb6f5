import Gvs.Monitors

/-!
# The blocking queue

`BlockingQueue`: a queue behind a lock, whose consumers sleep while it is empty
and are woken one at a time. Values come out in the order in which they were
pushed, each at most once, and no value waits in the queue while a consumer
sleeps and nobody is on the way.
-/

set_option autoImplicit false

namespace GVS.BlockingQueue
open Monitors

inductive Operation (T : Type*) where
  | pushBack (value : T)
  | emplaceBack (value : T)
  | clearAllAndPushBack (value : T)
  | clearAllAndEmplaceBack (value : T)
  | popFront
  | popAllButMostRecent
  | empty
  | size

/-- What an operation returns; the front of an empty queue is undefined. -/
inductive Result (T : Type*) where
  | nothing
  | value (v : T)
  | undefined
  | flag (b : Bool)
  | count (n : ℕ)

inductive Local (T : Type*) where
  | begin
  | front (v : T)
  | returned (result : Result T)

variable {T : Type*}

def push (value : T) : List T × Local T → Option (List T × Local T)
  | (queue, .begin) => some (queue ++ [value], .returned .nothing)
  | (_, .front _) | (_, .returned _) => none

def clearAllAndPush (value : T) : List T × Local T → Option (List T × Local T)
  | (_ :: queue, .begin) => some (queue, .begin)
  | ([], .begin) => some ([value], .returned .nothing)
  | (_, .front _) | (_, .returned _) => none

def popFront : List T × Local T → Option (List T × Local T)
  | (v :: queue, .begin) => some (v :: queue, .front v)
  | ([], .begin) => some ([], .returned .undefined)
  | (queue, .front v) => some (queue.tail, .returned (.value v))
  | (_, .returned _) => none

/-- `while (queue_.size() > 1) { queue_.pop(); }` and then the front, which
stays in the queue. -/
def popAllButMostRecent : List T × Local T → Option (List T × Local T)
  | (_ :: w :: queue, .begin) => some (w :: queue, .begin)
  | ([v], .begin) => some ([v], .returned (.value v))
  | ([], .begin) => some ([], .returned .undefined)
  | (_, .front _) | (_, .returned _) => none

def read (f : List T → Result T) : List T × Local T → Option (List T × Local T)
  | (queue, .begin) => some (queue, .returned (f queue))
  | (_, .front _) | (_, .returned _) => none

def Operation.next : Operation T → List T × Local T → Option (List T × Local T)
  | .pushBack value | .emplaceBack value => push value
  | .clearAllAndPushBack value | .clearAllAndEmplaceBack value => clearAllAndPush value
  | .popFront => BlockingQueue.popFront
  | .popAllButMostRecent => BlockingQueue.popAllButMostRecent
  | .empty => read fun queue => .flag queue.isEmpty
  | .size => read fun queue => .count queue.length

/-- Only `pop_front` waits, and only what pushes notifies. -/
def Operation.method (operation : Operation T) : Method (List T) (Local T) where
  ready queue :=
    match operation with
    | .popFront => !queue.isEmpty
    | _ => true
  timed := false
  start := .begin
  next := operation.next
  notify :=
    match operation with
    | .pushBack _ | .emplaceBack _ | .clearAllAndPushBack _ | .clearAllAndEmplaceBack _ => .one
    | .popFront | .popAllButMostRecent | .empty | .size => .nobody

variable {τ : Type*} [DecidableEq τ]

abbrev Queue (τ T : Type*) := Monitor τ (Operation T) (List T) (Local T)

def Run : Queue τ T → Prop := Reachable Operation.method []

section Order

def Operation.after : Operation T → List T → List T
  | .pushBack value, queue | .emplaceBack value, queue => queue ++ [value]
  | .clearAllAndPushBack value, _ | .clearAllAndEmplaceBack value, _ => [value]
  | .popFront, queue => queue.tail
  | .popAllButMostRecent, queue => queue.drop (queue.length - 1)
  | .empty, queue | .size, queue => queue

def Operation.returns : Operation T → List T → Result T
  | .pushBack _, _ | .emplaceBack _, _ => .nothing
  | .clearAllAndPushBack _, _ | .clearAllAndEmplaceBack _, _ => .nothing
  | .popFront, queue => (queue.head?.map .value).getD .undefined
  | .popAllButMostRecent, queue => (queue.getLast?.map .value).getD .undefined
  | .empty, queue => .flag queue.isEmpty
  | .size, queue => .count queue.length

theorem clearAll_runs (m : Method (List T) (Local T)) (value : T)
    (hm : m.next = clearAllAndPush value) (queue : List T) :
    Runs m (queue, .begin) ([value], .returned .nothing) := by
  induction queue with
  | nil => exact .single (by rw [hm]; rfl)
  | cons v queue ih => exact .head (by rw [hm]; rfl) ih

theorem popAll_runs (m : Method (List T) (Local T)) (hm : m.next = popAllButMostRecent)
    (queue : List T) : Runs m (queue, .begin)
      (queue.drop (queue.length - 1), .returned ((queue.getLast?.map .value).getD .undefined)) := by
  induction queue with
  | nil => exact .single (by rw [hm]; rfl)
  | cons v queue ih =>
    cases queue with
    | nil => exact .single (by rw [hm]; rfl)
    | cons w queue =>
      refine .head (by rw [hm]; rfl) ?_
      simpa [Runs] using ih

theorem runs_after (operation : Operation T) (queue : List T) :
    Runs operation.method (queue, .begin)
      (operation.after queue, .returned (operation.returns queue)) := by
  cases operation with
  | pushBack value | emplaceBack value => exact .single rfl
  | clearAllAndPushBack value | clearAllAndEmplaceBack value =>
    exact clearAll_runs _ value rfl queue
  | popFront =>
    cases queue with
    | nil => exact .single rfl
    | cons v queue => exact .head rfl (.single rfl)
  | popAllButMostRecent => exact popAll_runs _ rfl queue
  | empty | size => exact .single rfl

theorem next_returned (operation : Operation T) (queue : List T) (result : Result T) :
    operation.next (queue, .returned result) = none := by
  cases operation <;> rcases queue with _ | ⟨v, _ | ⟨w, queue⟩⟩ <;> rfl

theorem finished_eq {operation : Operation T} {queue queue' : List T} {r : Local T}
    (h : Runs operation.method (queue, operation.method.start) (queue', r))
    (hend : operation.method.next (queue', r) = none) :
    queue' = operation.after queue ∧ r = .returned (operation.returns queue) := by
  have heq := runs_unique h hend (runs_after operation queue) (next_returned operation _ _)
  rw [Prod.mk.injEq] at heq
  exact heq

def pushed : List (Entry τ (Operation T) (Local T)) → List T :=
  List.flatMap fun e =>
    match e.call with
    | .pushBack value | .emplaceBack value => [value]
    | .clearAllAndPushBack value | .clearAllAndEmplaceBack value => [value]
    | .popFront | .popAllButMostRecent | .empty | .size => []

def popped : List (Entry τ (Operation T) (Local T)) → List T :=
  List.flatMap fun e =>
    match e.call, e.result with
    | .popFront, some (.returned (.value v)) => [v]
    | _, _ => []

def Drops : Operation T → Prop
  | .clearAllAndPushBack _ | .clearAllAndEmplaceBack _ | .popAllButMostRecent => True
  | .pushBack _ | .emplaceBack _ | .popFront | .empty | .size => False

structure InOrder (log : List (Entry τ (Operation T) (Local T))) (queue : List T) : Prop where
  sublist : (popped log ++ queue).Sublist (pushed log)
  complete : (∀ e ∈ log, ¬ Drops e.call) → popped log ++ queue = pushed log
  defined : ∀ e ∈ log, e.call = .popFront → ∃ v, e.result = some (.returned (.value v))

omit [DecidableEq τ] in
theorem inOrder_append {log : List (Entry τ (Operation T) (Local T))} {queue queue' : List T}
    {e : Entry τ (Operation T) (Local T)} (h : InOrder log queue)
    (hsub : (popped [e] ++ queue').Sublist (queue ++ pushed [e]))
    (heq : ¬ Drops e.call → popped [e] ++ queue' = queue ++ pushed [e])
    (hdefined : e.call = .popFront → ∃ v, e.result = some (.returned (.value v))) :
    InOrder (log ++ [e]) queue' := by
  have hpopped : popped (log ++ [e]) ++ queue' = popped log ++ (popped [e] ++ queue') := by
    rw [popped, List.flatMap_append, List.append_assoc]
  have hpushed : pushed (log ++ [e]) = pushed log ++ pushed [e] := List.flatMap_append
  refine ⟨?_, fun hkeeps => ?_, fun e' he' => ?_⟩
  · rw [hpopped, hpushed]
    refine (hsub.append_left (popped log)).trans ?_
    rw [← List.append_assoc]
    exact h.sublist.append_right (pushed [e])
  · have hlog := h.complete fun e' he' => hkeeps e' (List.mem_append_left _ he')
    rw [hpopped, hpushed, heq (hkeeps e (by simp)), ← List.append_assoc, hlog]
  · rcases List.mem_append.mp he' with he' | he'
    · exact h.defined e' he'
    · rw [List.mem_singleton.mp he']
      exact hdefined

omit [DecidableEq τ] in
theorem inOrder_finished {log : List (Entry τ (Operation T) (Local T))} {queue : List T}
    (h : InOrder log queue) {t : τ} {operation : Operation T}
    (hready : operation.method.ready queue = true) :
    InOrder (log ++ [⟨t, operation, some (.returned (operation.returns queue))⟩])
      (operation.after queue) := by
  cases operation with
  | pushBack value | emplaceBack value =>
    exact inOrder_append h (List.Sublist.refl _) (fun _ => rfl) (by simp)
  | clearAllAndPushBack value | clearAllAndEmplaceBack value =>
    exact inOrder_append h (List.sublist_append_right _ _) (fun hn => absurd trivial hn) (by simp)
  | popFront =>
    cases queue with
    | nil => cases hready
    | cons v queue =>
      have hsame : v :: queue = (v :: queue) ++ [] := (List.append_nil _).symm
      exact inOrder_append h (hsame ▸ List.Sublist.refl _) (fun _ => hsame) (fun _ => ⟨v, rfl⟩)
  | popAllButMostRecent =>
    refine inOrder_append h ?_ (fun hn => absurd trivial hn) (by simp)
    exact (List.drop_sublist _ queue).trans (List.sublist_append_left _ _)
  | empty | size =>
    have hsame : queue = queue ++ [] := (List.append_nil _).symm
    exact inOrder_append h (hsame ▸ List.Sublist.refl _) (fun _ => hsame) (by simp)

omit [DecidableEq τ] in
theorem serial_inOrder {log : List (Entry τ (Operation T) (Local T))} {queue : List T}
    (h : Serial Operation.method [] log queue) : InOrder log queue := by
  induction h with
  | start => exact ⟨List.Sublist.refl _, fun _ => rfl, fun e he => by simp at he⟩
  | finished h hready hruns hend ih =>
    obtain ⟨rfl, rfl⟩ := finished_eq hruns hend
    exact inOrder_finished ih hready
  | expired h htimed hready ih => cases htimed

theorem run_push_asleep : ∃ s : Queue Bool ℕ, Run s ∧ s.phase true = .asleep .popFront ∧
    s.owner = none ∧ s.data = [7] ∧ pushed s.log = [7] := by
  have h : Run (idleMonitor [] : Queue Bool ℕ) := .refl
  have h := h.tail (.call (t := true) .popFront rfl)
  have h := h.tail (.lock (t := true) rfl rfl)
  have h := h.tail (.miss (t := true) rfl rfl)
  have h := h.tail (.sleep (t := true) rfl)
  have h := h.tail (.call (t := false) (.pushBack 7) rfl)
  have h := h.tail (.lock (t := false) rfl rfl)
  have h := h.tail (.find (t := false) rfl rfl)
  have h := h.tail (.work (t := false) rfl rfl)
  have h := h.tail (.leave (t := false) rfl rfl)
  exact ⟨_, h, rfl, rfl, rfl, rfl⟩

/-- Whatever the threads do and however they are interleaved, `pop_front`
returns values that were pushed, in the order of the pushes and each at most
once; where nothing drops values, what was pushed and has not been returned
is the queue. -/
theorem values_in_order {s : Queue τ T} (h : Run s) :
    ∃ queue, (s.owner = none → s.data = queue) ∧ InOrder s.log queue := by
  obtain ⟨queue, hatomic⟩ := atomic_reachable h
  exact ⟨queue, hatomic.free, serial_inOrder hatomic.serial⟩

theorem pushed_in_order : ∃ s : Queue Bool ℕ, s.data = [7] ∧
    ∃ queue, (s.owner = none → s.data = queue) ∧ InOrder s.log queue := by
  obtain ⟨s, hrun, -, -, hdata, -⟩ := run_push_asleep
  exact ⟨s, hdata, values_in_order hrun⟩

end Order

section Wakeups

/-- A thread that is on the way to a value: a push that has yet to notify, or
a consumer that is awake and has not taken its value. -/
def onTheWay : Phase (Operation T) (Local T) → ℕ
  | .entering .popFront _ | .checking .popFront _ => 1
  | .inside .popFront (.returned _) => 0
  | .inside .popFront _ => 1
  | .inside (.pushBack _) (.returned _) | .inside (.emplaceBack _) (.returned _) => 1
  | .inside (.clearAllAndPushBack _) (.returned _) => 1
  | .inside (.clearAllAndEmplaceBack _) (.returned _) => 1
  | .notifying .one => 1
  | _ => 0

theorem not_ready {operation : Operation T} {queue : List T}
    (h : operation.method.ready queue = false) : operation = .popFront ∧ queue = [] := by
  cases operation with
  | popFront =>
    cases queue with
    | nil => exact ⟨rfl, rfl⟩
    | cons v queue => cases h
  | pushBack value | emplaceBack value => cases h
  | clearAllAndPushBack value | clearAllAndEmplaceBack value => cases h
  | popAllButMostRecent | empty | size => cases h

/-- An operation that works on the queue takes a value with it, or adds one
and is on the way for it. -/
theorem work_onTheWay {operation : Operation T} {queue queue' : List T} {r r' : Local T}
    (h : operation.next (queue, r) = some (queue', r')) :
    queue'.length ≤ onTheWay (.inside operation r') ∨
      queue'.length + onTheWay (.inside operation r) ≤
        queue.length + onTheWay (.inside operation r') := by
  cases operation with
  | pushBack value | emplaceBack value =>
    cases r <;> simp [Operation.next, push] at h
    obtain ⟨rfl, rfl⟩ := h
    simp [onTheWay]
  | clearAllAndPushBack value | clearAllAndEmplaceBack value =>
    rcases queue with _ | ⟨v, queue⟩ <;> cases r <;> simp [Operation.next, clearAllAndPush] at h
    all_goals obtain ⟨rfl, rfl⟩ := h; simp [onTheWay]
  | popFront =>
    rcases queue with _ | ⟨v, queue⟩ <;> cases r <;>
      simp [Operation.next, BlockingQueue.popFront] at h
    all_goals obtain ⟨rfl, rfl⟩ := h; simp [onTheWay]
  | popAllButMostRecent =>
    rcases queue with _ | ⟨v, _ | ⟨w, queue⟩⟩ <;> cases r <;>
      simp [Operation.next, BlockingQueue.popAllButMostRecent] at h
    all_goals obtain ⟨rfl, rfl⟩ := h; simp [onTheWay]
  | empty | size =>
    cases r <;> simp [Operation.next, read] at h
    obtain ⟨rfl, rfl⟩ := h
    simp [onTheWay]

/-- An operation that leaves notifies for the value that it was on the way for. -/
theorem leave_onTheWay {operation : Operation T} {queue : List T} {r : Local T}
    (h : operation.next (queue, r) = none) :
    onTheWay (.inside operation r) ≤
      onTheWay (.notifying operation.method.notify : Phase (Operation T) (Local T)) := by
  cases operation with
  | popFront =>
    rcases queue with _ | ⟨v, queue⟩ <;> cases r <;>
      simp [Operation.next, BlockingQueue.popFront] at h
    all_goals exact le_refl 0
  | pushBack value | emplaceBack value => cases r <;> simp [onTheWay, Operation.method]
  | clearAllAndPushBack value | clearAllAndEmplaceBack value =>
    cases r <;> simp [onTheWay, Operation.method]
  | popAllButMostRecent | empty | size => exact le_refl 0

def Sleeps : Phase (Operation T) (Local T) → Prop
  | .waiting operation | .asleep operation => operation = .popFront
  | _ => True

theorem sleeps_woken {p : Phase (Operation T) (Local T)} (h : Sleeps p) : Sleeps (woken p) := by
  cases p with
  | asleep operation => trivial
  | idle => trivial
  | entering operation late => trivial
  | checking operation late => trivial
  | waiting operation => exact h
  | inside operation r => trivial
  | notifying n => trivial

def Asleep (s : Queue τ T) : Prop := ∃ t operation, s.phase t = .asleep operation

variable [Fintype τ]

structure Attended (s : Queue τ T) : Prop where
  sleeps : ∀ t, Sleeps (s.phase t)
  values : Asleep s → s.data.length ≤ total onTheWay s

omit [Fintype τ] in
theorem sleeps_move {s : Queue τ T} (hs : ∀ t, Sleeps (s.phase t)) {t : τ}
    {p : Phase (Operation T) (Local T)} (hp : Sleeps p) (u : τ) : Sleeps ((move s t p).phase u) := by
  by_cases hu : u = t
  · rw [hu, move_self]
    exact hp
  · rw [move_other s p hu]
    exact hs u

omit [Fintype τ] in
theorem asleep_move {s : Queue τ T} {t : τ} {p : Phase (Operation T) (Local T)}
    (hp : ∀ operation, p ≠ .asleep operation) (h : Asleep (move s t p)) : Asleep s := by
  obtain ⟨u, operation, hu⟩ := h
  by_cases hut : u = t
  · rw [hut, move_self] at hu
    exact absurd hu (hp operation)
  · exact ⟨u, operation, by rwa [move_other s p hut] at hu⟩

theorem attended_move {s : Queue τ T} (hs : Attended s) {t : τ}
    {p : Phase (Operation T) (Local T)} (hsleeps : Sleeps p)
    (hp : ∀ operation, p ≠ .asleep operation) (hle : onTheWay (s.phase t) ≤ onTheWay p) :
    Attended (move s t p) := by
  refine ⟨sleeps_move hs.sleeps hsleeps, fun hasleep => ?_⟩
  have hvalues := hs.values (asleep_move hp hasleep)
  have htotal := total_move onTheWay s t p
  rw [move_data]
  omega

theorem attended_wakeOne {s : Queue τ T} (hs : Attended s) {t w : τ} {operation : Operation T}
    (ht : s.phase t = .notifying .one) (hw : s.phase w = .asleep operation) :
    Attended (move (move s w (.entering operation false)) t .idle) := by
  have hcall := hs.sleeps w
  rw [hw] at hcall
  subst hcall
  have hne : t ≠ w := by
    rintro rfl
    rw [ht] at hw
    cases hw
  have hsleeps : ∀ u, Sleeps ((move s w (.entering .popFront false)).phase u) :=
    sleeps_move hs.sleeps trivial
  refine ⟨sleeps_move hsleeps trivial, fun _ => ?_⟩
  have hvalues := hs.values ⟨w, _, hw⟩
  have hwoken := total_move onTheWay s w (.entering .popFront false)
  have hidle := total_move onTheWay (move s w (.entering .popFront false)) t .idle
  rw [hw] at hwoken
  rw [move_other s _ hne, ht] at hidle
  simp only [onTheWay] at hwoken hidle
  simp only [move_data]
  omega

theorem attended_step {s s' : Queue τ T} (hr : Run s) (hs : Attended s)
    (h : Step Operation.method s s') : Attended s' := by
  obtain ⟨queue, hatomic⟩ := atomic_reachable hr
  cases h with
  | call operation h =>
    exact attended_move hs trivial (by simp) (by rw [h]; exact Nat.zero_le _)
  | announce n h => exact attended_move hs trivial (by simp) (by rw [h]; exact Nat.zero_le _)
  | @lock t operation late h hfree =>
    have hmove := attended_move (t := t) (p := .checking operation late) hs trivial (by simp)
      (by rw [h]; cases operation <;> exact le_refl _)
    exact ⟨hmove.sleeps, hmove.values⟩
  | @find t operation late h hready =>
    refine attended_move hs trivial (by simp) ?_
    rw [h]
    cases operation <;> exact le_refl _
  | @miss t operation h hready =>
    obtain ⟨hcall, hempty⟩ := not_ready hready
    refine ⟨sleeps_move hs.sleeps hcall, fun _ => ?_⟩
    rw [move_data, hempty]
    exact Nat.zero_le _
  | @expire t operation h hready =>
    have hlate := hatomic.since t
    rw [h] at hlate
    exact absurd (hlate.2 rfl) Bool.false_ne_true
  | @sleep t operation h =>
    have hwaits := hatomic.since t
    have hcall := hs.sleeps t
    rw [h] at hwaits hcall
    refine ⟨sleeps_move hs.sleeps hcall, fun _ => ?_⟩
    show s.data.length ≤ _
    rw [(not_ready hwaits.2).2]
    exact Nat.zero_le _
  | @work t operation r r' queue' h hn =>
    refine ⟨sleeps_move hs.sleeps trivial, fun hasleep => ?_⟩
    have hvalues := hs.values (asleep_move (by simp) hasleep)
    have htotal := total_move onTheWay s t (.inside operation r')
    rw [h] at htotal
    show queue'.length ≤ total onTheWay (move s t (.inside operation r'))
    rcases work_onTheWay hn with hlast | hkept
    · have hmoved := le_total onTheWay (move s t (.inside operation r')) t
      rw [move_self] at hmoved
      exact hlast.trans hmoved
    · omega
  | @leave t operation r h hn =>
    have hmove := attended_move (t := t) hs (p := .notifying operation.method.notify) trivial
      (by simp) (by rw [h]; exact leave_onTheWay hn)
    exact ⟨hmove.sleeps, hmove.values⟩
  | silent h => exact attended_move hs trivial (by simp) (by rw [h]; exact le_refl 0)
  | wakeOne h hw => exact attended_wakeOne hs h hw
  | wakeNone h hw =>
    refine ⟨sleeps_move hs.sleeps trivial, fun hasleep => ?_⟩
    obtain ⟨w, operation, hasleep⟩ := asleep_move (by simp) hasleep
    exact absurd hasleep (hw w operation)
  | wakeAll h =>
    refine ⟨sleeps_move (fun u => sleeps_woken (hs.sleeps u)) trivial, fun hasleep => ?_⟩
    obtain ⟨w, operation, hasleep⟩ := asleep_move (by simp) hasleep
    exact absurd hasleep (woken_not_asleep _ operation)
  | spurious h => exact attended_move hs trivial (by simp) (by rw [h]; exact Nat.zero_le _)
  | timeout h ht => cases ht

/-- No wakeup is lost: while a consumer sleeps, the values in the queue have
threads on the way to them, and when all threads are idle or asleep there is
no value. -/
theorem values_attended {s : Queue τ T} (h : Run s) (hasleep : Asleep s) :
    s.data.length ≤ total onTheWay s ∧
      ((∀ t, s.phase t = .idle ∨ ∃ operation, s.phase t = .asleep operation) → s.data = []) := by
  have hattended : Attended s := by
    refine reachable_invariant ⟨fun _ => trivial, fun _ => Nat.zero_le _⟩ ?_ h
    exact fun s s' hr hs hstep => attended_step hr hs hstep
  have hvalues := hattended.values hasleep
  refine ⟨hvalues, fun hrest => ?_⟩
  have hnobody : total onTheWay s = 0 := by
    refine Finset.sum_eq_zero fun t _ => ?_
    rcases hrest t with ht | ⟨operation, ht⟩ <;> rw [ht] <;> rfl
  exact List.length_eq_zero_iff.mp (Nat.le_zero.mp (hnobody ▸ hvalues))

theorem pushed_attended : ∃ s : Queue Bool ℕ, s.data = [7] ∧ Asleep s ∧
    s.data.length ≤ total onTheWay s := by
  obtain ⟨s, hrun, hasleep, -, hdata, -⟩ := run_push_asleep
  exact ⟨s, hdata, ⟨true, _, hasleep⟩, (values_attended hrun ⟨true, _, hasleep⟩).1⟩

end Wakeups

end GVS.BlockingQueue
