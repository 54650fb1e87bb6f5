import Mathlib.Algebra.Order.BigOperators.Group.Finset
import Mathlib.Data.Fintype.Basic
import Mathlib.Data.List.Basic
import Mathlib.Logic.Function.Basic
import Mathlib.Logic.Relation
import Mathlib.Tactic.TypeStar

/-!
# Monitors

Data behind a lock with one condition variable. A method takes the lock, waits
until it is ready, works on the data in steps of its own and releases the lock;
then it may wake one or all of the threads that wait. A wait releases the lock
and sleeps in one step. A sleeper is woken by a notification, or for no reason,
or because its time is over. The steps of different threads are interleaved in
any order; seen from outside, the methods that have finished ran one after the
other in the order in which they released the lock.
-/

set_option autoImplicit false

namespace Monitors

inductive Notify where
  | nobody
  | one
  | all
  deriving DecidableEq

/-- A method works on the data and on a state of its own until it has no next
step; the last state of its own is its result. -/
structure Method (σ ρ : Type*) where
  ready : σ → Bool
  timed : Bool
  start : ρ
  next : σ × ρ → Option (σ × ρ)
  notify : Notify

inductive Phase (α ρ : Type*) where
  | idle
  | entering (call : α) (late : Bool)
  | checking (call : α) (late : Bool)
  | waiting (call : α)
  | asleep (call : α)
  | inside (call : α) (r : ρ)
  | notifying (n : Notify)

structure Entry (τ α ρ : Type*) where
  thread : τ
  call : α
  result : Option ρ

structure Monitor (τ α σ ρ : Type*) where
  data : σ
  owner : Option τ
  phase : τ → Phase α ρ
  log : List (Entry τ α ρ)

def idleMonitor {τ α σ ρ : Type*} (data : σ) : Monitor τ α σ ρ where
  data := data
  owner := none
  phase := fun _ => .idle
  log := []

variable {τ α σ ρ : Type*} [DecidableEq τ]

def move (s : Monitor τ α σ ρ) (t : τ) (p : Phase α ρ) : Monitor τ α σ ρ :=
  { s with phase := Function.update s.phase t p }

def release (s : Monitor τ α σ ρ) (t : τ) (p : Phase α ρ) : Monitor τ α σ ρ :=
  { move s t p with owner := none }

def record (s : Monitor τ α σ ρ) (e : Entry τ α ρ) : Monitor τ α σ ρ :=
  { s with log := s.log ++ [e] }

def woken : Phase α ρ → Phase α ρ
  | .asleep call => .entering call false
  | p => p

def wakeAll (s : Monitor τ α σ ρ) : Monitor τ α σ ρ := { s with phase := fun t => woken (s.phase t) }

inductive Step (methods : α → Method σ ρ) (s : Monitor τ α σ ρ) : Monitor τ α σ ρ → Prop where
  | call {t : τ} (c : α) (h : s.phase t = .idle) : Step methods s (move s t (.entering c false))
  | announce {t : τ} (n : Notify) (h : s.phase t = .idle) : Step methods s (move s t (.notifying n))
  | lock {t : τ} {c : α} {late : Bool} (h : s.phase t = .entering c late) (hfree : s.owner = none) :
    Step methods s { move s t (.checking c late) with owner := some t }
  | find {t : τ} {c : α} {late : Bool} (h : s.phase t = .checking c late)
    (hr : (methods c).ready s.data = true) : Step methods s (move s t (.inside c (methods c).start))
  | miss {t : τ} {c : α} (h : s.phase t = .checking c false)
    (hr : (methods c).ready s.data = false) : Step methods s (move s t (.waiting c))
  | expire {t : τ} {c : α} (h : s.phase t = .checking c true)
    (hr : (methods c).ready s.data = false) :
    Step methods s (record (release s t .idle) ⟨t, c, none⟩)
  | sleep {t : τ} {c : α} (h : s.phase t = .waiting c) : Step methods s (release s t (.asleep c))
  | work {t : τ} {c : α} {r r' : ρ} {d : σ} (h : s.phase t = .inside c r)
    (hn : (methods c).next (s.data, r) = some (d, r')) :
    Step methods s { move s t (.inside c r') with data := d }
  | leave {t : τ} {c : α} {r : ρ} (h : s.phase t = .inside c r)
    (hn : (methods c).next (s.data, r) = none) :
    Step methods s (record (release s t (.notifying (methods c).notify)) ⟨t, c, some r⟩)
  | silent {t : τ} (h : s.phase t = .notifying .nobody) : Step methods s (move s t .idle)
  | wakeOne {t w : τ} {c : α} (h : s.phase t = .notifying .one) (hw : s.phase w = .asleep c) :
    Step methods s (move (move s w (.entering c false)) t .idle)
  | wakeNone {t : τ} (h : s.phase t = .notifying .one) (hw : ∀ w c, s.phase w ≠ .asleep c) :
    Step methods s (move s t .idle)
  | wakeAll {t : τ} (h : s.phase t = .notifying .all) :
    Step methods s (move (wakeAll s) t .idle)
  | spurious {t : τ} {c : α} (h : s.phase t = .asleep c) :
    Step methods s (move s t (.entering c false))
  | timeout {t : τ} {c : α} (h : s.phase t = .asleep c) (ht : (methods c).timed = true) :
    Step methods s (move s t (.entering c true))

def Reachable (methods : α → Method σ ρ) (data : σ) : Monitor τ α σ ρ → Prop :=
  Relation.ReflTransGen (Step methods) (idleMonitor data)

/-- What every step keeps holds in every reachable state. -/
theorem reachable_invariant {methods : α → Method σ ρ} {data : σ} {P : Monitor τ α σ ρ → Prop}
    (hstart : P (idleMonitor data))
    (hstep : ∀ s s', Reachable methods data s → P s → Step methods s s' → P s')
    {s : Monitor τ α σ ρ} (h : Reachable methods data s) : P s := by
  induction h with
  | refl => exact hstart
  | tail hr hs ih => exact hstep _ _ hr ih hs

@[simp] theorem move_data (s : Monitor τ α σ ρ) (t : τ) (p : Phase α ρ) :
    (move s t p).data = s.data := rfl

@[simp] theorem move_owner (s : Monitor τ α σ ρ) (t : τ) (p : Phase α ρ) :
    (move s t p).owner = s.owner := rfl

@[simp] theorem move_log (s : Monitor τ α σ ρ) (t : τ) (p : Phase α ρ) :
    (move s t p).log = s.log := rfl

theorem move_self (s : Monitor τ α σ ρ) (t : τ) (p : Phase α ρ) : (move s t p).phase t = p := by
  simp [move]

theorem woken_not_asleep (p : Phase α ρ) (c : α) : woken p ≠ .asleep c := by
  cases p <;> simp [woken]

theorem move_other (s : Monitor τ α σ ρ) {t u : τ} (p : Phase α ρ) (h : u ≠ t) :
    (move s t p).phase u = s.phase u := by
  simp [move, h]

section Exclusion

def Holds : Phase α ρ → Prop
  | .checking _ _ | .waiting _ | .inside _ _ => True
  | .idle | .entering _ _ | .asleep _ | .notifying _ => False

def Exclusive (s : Monitor τ α σ ρ) : Prop := ∀ t, Holds (s.phase t) ↔ s.owner = some t

theorem holds_woken (p : Phase α ρ) : Holds (woken p) ↔ Holds p := by
  cases p <;> exact Iff.rfl

theorem exclusive_move {s : Monitor τ α σ ρ} (hs : Exclusive s) {t : τ} {p : Phase α ρ}
    (h : Holds p ↔ Holds (s.phase t)) : Exclusive (move s t p) := by
  intro u
  by_cases hu : u = t
  · subst hu
    rw [move_self, h]
    exact hs u
  · rw [move_other s p hu]
    exact hs u

theorem exclusive_release {s : Monitor τ α σ ρ} (hs : Exclusive s) {t : τ} {p : Phase α ρ}
    (ht : Holds (s.phase t)) (hp : ¬ Holds p) : Exclusive (release s t p) := by
  intro u
  have howner := (hs t).mp ht
  refine iff_of_false ?_ (by simp [release])
  by_cases hu : u = t
  · subst hu
    rw [release, move_self]
    exact hp
  · rw [release, move_other s p hu, hs u, howner]
    simpa using Ne.symm hu

theorem exclusive_step {methods : α → Method σ ρ} {s s' : Monitor τ α σ ρ} (hs : Exclusive s)
    (h : Step methods s s') : Exclusive s' := by
  cases h with
  | call c h => exact exclusive_move hs (by rw [h]; exact Iff.rfl)
  | announce n h => exact exclusive_move hs (by rw [h]; exact Iff.rfl)
  | @lock t c late h hfree =>
    intro u
    by_cases hu : u = t
    · subst hu
      exact iff_of_true (by rw [move_self]; trivial) rfl
    · refine iff_of_false ?_ (by simpa using Ne.symm hu)
      rw [move_other s _ hu, hs u, hfree]
      simp
  | find h hr => exact exclusive_move hs (by rw [h]; exact Iff.rfl)
  | miss h hr => exact exclusive_move hs (by rw [h]; exact Iff.rfl)
  | expire h hr => exact exclusive_release hs (by rw [h]; trivial) id
  | sleep h => exact exclusive_release hs (by rw [h]; trivial) id
  | work h hn => exact exclusive_move hs (by rw [h]; exact Iff.rfl)
  | leave h hn => exact exclusive_release hs (by rw [h]; trivial) id
  | silent h => exact exclusive_move hs (by rw [h]; exact Iff.rfl)
  | @wakeOne t w c h hw =>
    have hne : t ≠ w := by
      rintro rfl
      rw [h] at hw
      cases hw
    apply exclusive_move (exclusive_move hs (by rw [hw]; exact Iff.rfl))
    rw [move_other s _ hne, h]
    exact Iff.rfl
  | wakeNone h hw => exact exclusive_move hs (by rw [h]; exact Iff.rfl)
  | wakeAll h =>
    have hall : Exclusive (wakeAll s) := fun u => (holds_woken _).trans (hs u)
    apply exclusive_move hall
    show Holds .idle ↔ Holds (woken (s.phase _))
    rw [h]
    exact Iff.rfl
  | spurious h => exact exclusive_move hs (by rw [h]; exact Iff.rfl)
  | timeout h ht => exact exclusive_move hs (by rw [h]; exact Iff.rfl)

omit [DecidableEq τ] in
theorem exclusive_idle (data : σ) : Exclusive (idleMonitor data : Monitor τ α σ ρ) := by
  intro t
  simp [idleMonitor, Holds]

theorem exclusive_reachable {methods : α → Method σ ρ} {data : σ} {s : Monitor τ α σ ρ}
    (h : Reachable methods data s) : Exclusive s :=
  reachable_invariant (exclusive_idle data) (fun _ _ _ hs hstep => exclusive_step hs hstep) h

end Exclusion

section Atomicity

variable (methods : α → Method σ ρ)

def Runs (m : Method σ ρ) : σ × ρ → σ × ρ → Prop :=
  Relation.ReflTransGen fun a b => m.next a = some b

theorem runs_unique {m : Method σ ρ} {a b c : σ × ρ} (hb : Runs m a b) (hbend : m.next b = none)
    (hc : Runs m a c) (hcend : m.next c = none) : b = c := by
  induction hb using Relation.ReflTransGen.head_induction_on with
  | refl =>
    rcases Relation.ReflTransGen.cases_head hc with h | ⟨d, hd, -⟩
    · exact h
    · rw [hbend] at hd
      cases hd
  | @head a a' ha _ ih =>
    rcases Relation.ReflTransGen.cases_head hc with rfl | ⟨d, hd, hdc⟩
    · rw [hcend] at ha
      cases ha
    · rw [ha] at hd
      cases hd
      exact ih hdc

/-- The entries are what the methods give when they run one after the other:
each is ready where it starts, or its time is over where it is not ready. -/
inductive Serial (data : σ) : List (Entry τ α ρ) → σ → Prop where
  | start : Serial data [] data
  | finished {es : List (Entry τ α ρ)} {d d' : σ} {t : τ} {c : α} {r : ρ} (h : Serial data es d)
    (hready : (methods c).ready d = true) (hruns : Runs (methods c) (d, (methods c).start) (d', r))
    (hend : (methods c).next (d', r) = none) : Serial data (es ++ [⟨t, c, some r⟩]) d'
  | expired {es : List (Entry τ α ρ)} {d : σ} {t : τ} {c : α} (h : Serial data es d)
    (htimed : (methods c).timed = true) (hready : (methods c).ready d = false) :
    Serial data (es ++ [⟨t, c, none⟩]) d

/-- What a thread with the lock has made of the data `d` that it found. -/
def Since (d data : σ) : Phase α ρ → Prop
  | .entering c true => (methods c).timed = true
  | .checking c late => data = d ∧ (late = true → (methods c).timed = true)
  | .waiting c => data = d ∧ (methods c).ready data = false
  | .inside c r => (methods c).ready d = true ∧ Runs (methods c) (d, (methods c).start) (data, r)
  | .idle | .entering _ false | .asleep _ | .notifying _ => True

structure Atomic (start d : σ) (s : Monitor τ α σ ρ) : Prop where
  serial : Serial methods start s.log d
  free : s.owner = none → s.data = d
  since : ∀ t, Since methods d s.data (s.phase t)

theorem since_free {d d' data data' : σ} {p : Phase α ρ} (hp : ¬ Holds p)
    (h : Since methods d data p) : Since methods d' data' p := by
  cases p with
  | idle => trivial
  | entering c late => cases late <;> exact h
  | checking c late => exact absurd trivial hp
  | waiting c => exact absurd trivial hp
  | asleep c => trivial
  | inside c r => exact absurd trivial hp
  | notifying n => trivial

theorem since_woken {d data : σ} {p : Phase α ρ} (h : Since methods d data p) :
    Since methods d data (woken p) := by
  cases p with
  | asleep c => trivial
  | idle => exact h
  | entering c late => exact h
  | checking c late => exact h
  | waiting c => exact h
  | inside c r => exact h
  | notifying n => exact h

variable {methods}

omit [DecidableEq τ] in
theorem not_holds_other {s : Monitor τ α σ ρ} (hs : Exclusive s) {t u : τ}
    (ht : Holds (s.phase t)) (hu : u ≠ t) : ¬ Holds (s.phase u) := by
  rw [hs u, (hs t).mp ht]
  simpa using Ne.symm hu

theorem atomic_move {start d : σ} {s : Monitor τ α σ ρ} (hs : Atomic methods start d s) {t : τ}
    {p : Phase α ρ} (hp : Since methods d s.data p) : Atomic methods start d (move s t p) := by
  refine ⟨hs.serial, hs.free, fun u => ?_⟩
  by_cases hu : u = t
  · subst hu
    rw [move_self]
    exact hp
  · rw [move_other s p hu]
    exact hs.since u

/-- The thread with the lock changes the data or the log; the others wait. -/
theorem atomic_owner {start d d' : σ} {s s' : Monitor τ α σ ρ} (hx : Exclusive s)
    (hs : Atomic methods start d s) {t : τ} (ht : Holds (s.phase t))
    (hserial : Serial methods start s'.log d') (hfree : s'.owner = none → s'.data = d')
    (hother : ∀ u, u ≠ t → s'.phase u = s.phase u)
    (hself : Since methods d' s'.data (s'.phase t)) : Atomic methods start d' s' := by
  refine ⟨hserial, hfree, fun u => ?_⟩
  by_cases hu : u = t
  · subst hu
    exact hself
  · rw [hother u hu]
    exact since_free methods (not_holds_other hx ht hu) (hs.since u)

theorem atomic_step {start d : σ} {s s' : Monitor τ α σ ρ} (hx : Exclusive s)
    (hs : Atomic methods start d s) (h : Step methods s s') :
    ∃ d', Atomic methods start d' s' := by
  cases h with
  | call c h => exact ⟨d, atomic_move hs trivial⟩
  | announce n h => exact ⟨d, atomic_move hs trivial⟩
  | @lock t c late h hfree =>
    have hlate := hs.since t
    rw [h] at hlate
    have hchecking : Since methods d s.data (.checking c late) :=
      ⟨hs.free hfree, fun hl => by subst hl; exact hlate⟩
    have hmove := atomic_move hs (t := t) hchecking
    exact ⟨d, hmove.serial, (fun hn => by cases hn), hmove.since⟩
  | @find t c late h hr =>
    have hfound := hs.since t
    rw [h] at hfound
    refine ⟨d, atomic_move hs ⟨hfound.1 ▸ hr, ?_⟩⟩
    rw [hfound.1]
    exact .refl
  | @miss t c h hr =>
    have hfound := hs.since t
    rw [h] at hfound
    exact ⟨d, atomic_move hs ⟨hfound.1, hr⟩⟩
  | @expire t c h hr =>
    have hfound := hs.since t
    rw [h] at hfound
    refine ⟨d, atomic_owner hx hs (by rw [h]; trivial) ?_ (fun _ => hfound.1)
      (fun u hu => move_other s _ hu) ?_⟩
    · exact hs.serial.expired (hfound.2 rfl) (hfound.1 ▸ hr)
    · show Since methods d s.data ((move s t .idle).phase t)
      rw [move_self]
      trivial
  | @sleep t c h =>
    have hfound := hs.since t
    rw [h] at hfound
    refine ⟨d, atomic_owner hx hs (by rw [h]; trivial) hs.serial (fun _ => hfound.1)
      (fun u hu => move_other s _ hu) ?_⟩
    show Since methods d s.data ((move s t (.asleep c)).phase t)
    rw [move_self]
    trivial
  | @work t c r r' d' h hn =>
    have hfound := hs.since t
    rw [h] at hfound
    have howner := (hx t).mp (by rw [h]; trivial)
    refine ⟨d, atomic_owner hx hs (by rw [h]; trivial) hs.serial
      (fun hnone => ?_) (fun u hu => move_other s _ hu) ?_⟩
    · rw [show s.owner = none from hnone] at howner
      cases howner
    · show Since methods d d' ((move s t (.inside c r')).phase t)
      rw [move_self]
      exact ⟨hfound.1, hfound.2.tail hn⟩
  | @leave t c r h hn =>
    have hfound := hs.since t
    rw [h] at hfound
    refine ⟨s.data, atomic_owner hx hs (by rw [h]; trivial)
      (hs.serial.finished hfound.1 hfound.2 hn) (fun _ => rfl) (fun u hu => move_other s _ hu) ?_⟩
    show Since methods s.data s.data ((move s t (.notifying (methods c).notify)).phase t)
    rw [move_self]
    trivial
  | silent h => exact ⟨d, atomic_move hs trivial⟩
  | @wakeOne t w c h hw =>
    have hwoken : Atomic methods start d (move s w (.entering c false)) := atomic_move hs trivial
    exact ⟨d, atomic_move hwoken trivial⟩
  | wakeNone h hw => exact ⟨d, atomic_move hs trivial⟩
  | wakeAll h =>
    have hall : Atomic methods start d (wakeAll s) :=
      ⟨hs.serial, hs.free, fun u => since_woken methods (hs.since u)⟩
    exact ⟨d, atomic_move hall trivial⟩
  | spurious h => exact ⟨d, atomic_move hs trivial⟩
  | timeout h ht => exact ⟨d, atomic_move hs ht⟩

/-- The methods of a monitor take effect one after the other, in the order in
which they release the lock. -/
theorem atomic_reachable {start : σ} {s : Monitor τ α σ ρ} (h : Reachable methods start s) :
    ∃ d, Atomic methods start d s := by
  apply reachable_invariant (P := fun s => ∃ d, Atomic methods start d s) ?_ ?_ h
  · exact ⟨start, .start, fun _ => rfl, fun _ => trivial⟩
  · rintro s s' hr ⟨d, hd⟩ hstep
    exact atomic_step (exclusive_reachable hr) hd hstep

section Effects

omit [DecidableEq τ] in
/-- Methods without a time limit, each with one effect on its own: the data
is what these effects make of it in the order of the entries. -/
theorem serial_effects {effect : α → σ → σ} (htimed : ∀ c, (methods c).timed = false)
    (heffect : ∀ c d, ∃ r, Runs (methods c) (d, (methods c).start) (effect c d, r) ∧
      (methods c).next (effect c d, r) = none)
    {start d : σ} {es : List (Entry τ α ρ)} (h : Serial methods start es d) :
    d = (es.map Entry.call).foldl (fun d c => effect c d) start := by
  induction h with
  | start => rfl
  | @finished es d d' t c r h hready hruns hend ih =>
    obtain ⟨r', hruns', hend'⟩ := heffect c d
    have hd : d' = effect c d := congrArg Prod.fst (runs_unique hruns hend hruns' hend')
    rw [List.map_append, List.foldl_append, ← ih]
    exact hd
  | @expired es d t c h ht hready ih =>
    rw [htimed c] at ht
    cases ht

omit [DecidableEq τ] in
theorem serial_entry {start d : σ} {es : List (Entry τ α ρ)} (h : Serial methods start es d)
    {before after : List (Entry τ α ρ)} {e : Entry τ α ρ} (hes : es = before ++ e :: after)
    {r : ρ} (hr : e.result = some r) :
    ∃ found left, Serial methods start before found ∧
      Runs (methods e.call) (found, (methods e.call).start) (left, r) ∧
      (methods e.call).next (left, r) = none := by
  induction h generalizing after with
  | start => simp at hes
  | @finished es d d' t c r' h hready hruns hend ih =>
    rcases List.eq_nil_or_concat after with rfl | ⟨after, last, rfl⟩
    · obtain ⟨rfl, hlast⟩ := List.append_inj' hes rfl
      obtain rfl : ⟨t, c, some r'⟩ = e := by simpa using hlast
      obtain rfl : r' = r := by simpa using hr
      exact ⟨d, d', h, hruns, hend⟩
    · rw [List.concat_eq_append, ← List.cons_append, ← List.append_assoc] at hes
      exact ih (List.append_inj' hes rfl).1
  | @expired es d t c h htimed hready ih =>
    rcases List.eq_nil_or_concat after with rfl | ⟨after, last, rfl⟩
    · obtain ⟨rfl, hlast⟩ := List.append_inj' hes rfl
      obtain rfl : ⟨t, c, none⟩ = e := by simpa using hlast
      cases hr
    · rw [List.concat_eq_append, ← List.cons_append, ← List.append_assoc] at hes
      exact ih (List.append_inj' hes rfl).1

end Effects

end Atomicity

section Counting

variable [Fintype τ]

def total (weight : Phase α ρ → ℕ) (s : Monitor τ α σ ρ) : ℕ := ∑ t, weight (s.phase t)

omit [DecidableEq τ] in
theorem le_total (weight : Phase α ρ → ℕ) (s : Monitor τ α σ ρ) (t : τ) :
    weight (s.phase t) ≤ total weight s :=
  Finset.single_le_sum (f := fun u => weight (s.phase u)) (fun _ _ => Nat.zero_le _)
    (Finset.mem_univ t)

theorem total_move (weight : Phase α ρ → ℕ) (s : Monitor τ α σ ρ) (t : τ) (p : Phase α ρ) :
    total weight (move s t p) + weight (s.phase t) = total weight s + weight p := by
  have hrest : ∑ u ∈ Finset.univ.erase t, weight ((move s t p).phase u) =
      ∑ u ∈ Finset.univ.erase t, weight (s.phase u) := by
    apply Finset.sum_congr rfl
    intro u hu
    rw [move_other s p (Finset.ne_of_mem_erase hu)]
  rw [total, total, ← Finset.add_sum_erase _ _ (Finset.mem_univ t), hrest, move_self,
    ← Finset.add_sum_erase _ (fun u => weight (s.phase u)) (Finset.mem_univ t)]
  omega

end Counting

end Monitors
