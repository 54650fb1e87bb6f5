import Gvs.Drains
import Mathlib.Logic.Function.Basic

/-!
# The frame loop

The main thread of the viewer draws a frame when the window is marked for a
redraw. Inputs and the callbacks of the client set the draw counter to five and
mark the window; a frame counts down and marks it again while the counter was
positive. The callbacks run on threads of their own and any step of theirs may
fall between two steps of a frame. The counter is not atomic: `draw_counter_--`
is a load and a store. A use of `scene_updates_` or `messages_` is one step, and
so is a change of the mark.
-/

set_option autoImplicit false

namespace GVS.FrameLoop
open GVS.Proto GVS.Server GuardedRuns
open GVS.Vis GVS.SceneBooks GVS.Wiring GVS.Resetting GVS.Viewers GVS.ViewerAppearance GVS.FailedSnapshots GVS.Drains

inductive Instruction where
  | client (e : FailedSnapshots.Event)
  | setDrawCounter
  | redraw
  | loadDrawCounter
  | storeDrawCounter (value : ℤ)

def resetDrawCounter : List Instruction := [.setDrawCounter, .redraw]

inductive Callback where
  | processMessageUpdate (message : Message)
  | processSceneUpdate (u : SceneUpdate)
  | onStateChange (messages : UnaryCall (List Message)) (items : UnaryCall SceneItems)

def Callback.program : Callback → List Instruction
  | .processMessageUpdate message => .client (.processMessageUpdate message) :: resetDrawCounter
  | .processSceneUpdate u => .client (.processSceneUpdate u) :: resetDrawCounter
  | .onStateChange messages items =>
    .client (.getMessageState messages) :: .client (.getSceneState items) :: resetDrawCounter

def configureGui (runAsFastAsPossible : Bool) : List Instruction :=
  if runAsFastAsPossible then resetDrawCounter else []

def drawEvent (runAsFastAsPossible : Bool) : List Instruction :=
  .client .update :: (configureGui runAsFastAsPossible ++ [.loadDrawCounter])

def countDown (loaded : ℤ) : List Instruction :=
  .storeDrawCounter (loaded - 1) :: if 0 < loaded then [.redraw] else []

/-- The state after the constructor, and what is left of the program of each
thread. The frames that were begun are counted for the statements below. -/
structure Loop where
  client : VisClient := {}
  drawCounter : ℤ := 5
  redraw : Bool := true
  main : List Instruction := []
  threads : ℕ → List Instruction := fun _ => []
  begun : ℕ := 0

inductive Choice where
  | call (k : ℕ) (callback : Callback)
  | input
  | frame (runAsFastAsPossible : Bool)
  | thread (k : ℕ)
  | main

def execute (order : MapOrder) (s : Loop) : Instruction → Loop
  | .client e => { s with client := FailedSnapshots.act order s.client e }
  | .setDrawCounter => { s with drawCounter := 5 }
  | .redraw => { s with redraw := true }
  | .loadDrawCounter => { s with main := countDown s.drawCounter ++ s.main }
  | .storeDrawCounter value => { s with drawCounter := value }

/-- One choice. What is not enabled changes nothing. -/
def perform (order : MapOrder) (s : Loop) : Choice → Loop
  | .call k callback =>
    match s.threads k with
    | [] => { s with threads := Function.update s.threads k callback.program }
    | _::_ => s
  | .input =>
    match s.main with
    | [] => { s with main := resetDrawCounter }
    | _::_ => s
  | .frame fast =>
    match s.main, s.redraw with
    | [], true => { s with redraw := false, main := drawEvent fast, begun := s.begun + 1 }
    | _, _ => s
  | .thread k =>
    match s.threads k with
    | [] => s
    | i::rest => execute order { s with threads := Function.update s.threads k rest } i
  | .main =>
    match s.main with
    | [] => s
    | i::rest => execute order { s with main := rest } i

def running (s : Loop) : Bool :=
  match s.client.scene with
  | .done _ => true
  | .raised _ _ => false

def step (order : MapOrder) (s : Loop) (c : Choice) : Loop :=
  if running s then perform order s c else s

def performed (s : Loop) : Choice → List FailedSnapshots.Event
  | .call _ _ | .input | .frame _ => []
  | .thread k =>
    match s.threads k with
    | .client e :: _ => [e]
    | _ => []
  | .main =>
    match s.main with
    | .client e :: _ => [e]
    | _ => []

def history (order : MapOrder) : Loop → List Choice → List FailedSnapshots.Event
  | _, [] => []
  | s, c::cs => (if running s then performed s c else []) ++ history order (step order s c) cs

def Quiet (s : Loop) : Prop := s.redraw = false ∧ s.main = [] ∧ ∀ k, s.threads k = []

section Refinement

@[simp] theorem execute_threads (order : MapOrder) (s : Loop) (i : Instruction) :
    (execute order s i).threads = s.threads := by
  cases i <;> rfl

@[simp] theorem execute_begun (order : MapOrder) (s : Loop) (i : Instruction) :
    (execute order s i).begun = s.begun := by
  cases i <;> rfl

theorem execute_client (order : MapOrder) (s : Loop) (i : Instruction)
    (hi : ∀ e, i ≠ .client e) : (execute order s i).client = s.client := by
  cases i with
  | client e => exact absurd rfl (hi e)
  | setDrawCounter => rfl
  | redraw => rfl
  | loadDrawCounter => rfl
  | storeDrawCounter value => rfl

theorem perform_client (order : MapOrder) (s : Loop) (c : Choice) :
    (perform order s c).client = run (FailedSnapshots.act order) s.client (performed s c) := by
  cases c with
  | call k callback => cases h : s.threads k <;> simp [perform, performed, run, h]
  | input => cases h : s.main <;> simp [perform, performed, run, h]
  | frame fast =>
    cases h : s.main <;> cases hr : s.redraw <;> simp [perform, performed, run, h, hr]
  | thread k =>
    cases h : s.threads k with
    | nil => simp [perform, performed, run, h]
    | cons i rest => cases i <;> simp [perform, performed, run, execute, h]
  | main =>
    cases h : s.main with
    | nil => simp [perform, performed, run, h]
    | cons i rest => cases i <;> simp [perform, performed, run, execute, h]

/-- The client of the loop is the client of the events, in the order in which
the threads came to them. -/
theorem run_client (order : MapOrder) (s : Loop) (cs : List Choice) :
    (run (step order) s cs).client =
      run (FailedSnapshots.act order) s.client (history order s cs) := by
  induction cs generalizing s with
  | nil => rfl
  | cons c cs ih =>
    rw [run, ih, history, run_append, step]
    cases h : running s with
    | true => simp only [if_true, perform_client]
    | false => rfl

theorem history_append (order : MapOrder) (s : Loop) (cs ds : List Choice) :
    history order s (cs ++ ds) =
      history order s cs ++ history order (run (step order) s cs) ds := by
  induction cs generalizing s with
  | nil => rfl
  | cons c cs ih => rw [List.cons_append, history, ih, history, run, List.append_assoc]

/-- At every moment, whatever was delivered, in the middle of a frame and also
after a raise: no parent link of the scene closes a cycle, the pointers of its
packages lead to an object and to the drawable of that object, and no two ids
share them. -/
theorem always_wired (order : MapOrder) (cs : List Choice) :
    Wired (books (run (step order) {} cs).client.scene.state) := by
  have hstart : Sound {} := wired_construct
  rw [run_client]
  exact run_invariant (FailedSnapshots.act order) (sound_act order) hstart (history order {} cs)

end Refinement

section Control

inductive Stepped (order : MapOrder) (s : Loop) : Choice → Loop → Prop where
  | idle (c : Choice) : Stepped order s c s
  | call (k : ℕ) (callback : Callback) (hk : s.threads k = []) :
    Stepped order s (.call k callback)
      { s with threads := Function.update s.threads k callback.program }
  | input (hm : s.main = []) : Stepped order s .input { s with main := resetDrawCounter }
  | frame (fast : Bool) (hm : s.main = []) (hr : s.redraw = true) :
    Stepped order s (.frame fast)
      { s with redraw := false, main := drawEvent fast, begun := s.begun + 1 }
  | thread (k : ℕ) (i : Instruction) (rest : List Instruction) (hk : s.threads k = i :: rest) :
    Stepped order s (.thread k)
      (execute order { s with threads := Function.update s.threads k rest } i)
  | main (i : Instruction) (rest : List Instruction) (hm : s.main = i :: rest)
    (hr : running s = true) :
    Stepped order s .main (execute order { s with main := rest } i)

theorem stepped_perform (order : MapOrder) {s : Loop} (hr : running s = true) (c : Choice) :
    Stepped order s c (perform order s c) := by
  cases c with
  | call k callback =>
    cases hk : s.threads k with
    | nil =>
      simp only [perform, hk]
      exact .call k callback hk
    | cons i rest =>
      simp only [perform, hk]
      exact .idle _
  | input =>
    cases hm : s.main with
    | nil =>
      simp only [perform, hm]
      exact .input hm
    | cons i rest =>
      simp only [perform, hm]
      exact .idle _
  | frame fast =>
    cases hm : s.main with
    | nil =>
      cases hredraw : s.redraw with
      | true =>
        simp only [perform, hm, hredraw]
        exact .frame fast hm hredraw
      | false =>
        simp only [perform, hm, hredraw]
        exact .idle _
    | cons i rest =>
      simp only [perform, hm]
      exact .idle _
  | thread k =>
    cases hk : s.threads k with
    | nil =>
      simp only [perform, hk]
      exact .idle _
    | cons i rest =>
      simp only [perform, hk]
      exact .thread k i rest hk
  | main =>
    cases hm : s.main with
    | nil =>
      simp only [perform, hm]
      exact .idle _
    | cons i rest =>
      simp only [perform, hm]
      exact .main i rest hm hr

theorem stepped (order : MapOrder) (s : Loop) (c : Choice) : Stepped order s c (step order s c) := by
  rw [step]
  split
  · exact stepped_perform order ‹_› c
  · exact .idle c

/-- What may be left of a callback: what it appends and its reset of the
counter come before it marks the window. -/
def CallbackCode : List Instruction → Prop
  | [] => True
  | .client e :: rest => e ≠ .update ∧ .redraw ∈ rest ∧ CallbackCode rest
  | .setDrawCounter :: rest => .redraw ∈ rest ∧ CallbackCode rest
  | .redraw :: rest => CallbackCode rest
  | .loadDrawCounter :: _ | .storeDrawCounter _ :: _ => False

def MainCode : List Instruction → Prop
  | [] => True
  | .client e :: rest => e = .update ∧ .loadDrawCounter ∈ rest ∧ MainCode rest
  | .setDrawCounter :: rest => (∀ value, .storeDrawCounter value ∉ rest) ∧ MainCode rest
  | .redraw :: rest => MainCode rest
  | .loadDrawCounter :: rest => rest = []
  | .storeDrawCounter value :: rest => value ≤ 4 ∧ (rest = [] ∨ rest = [.redraw])

theorem callbackCode_program (callback : Callback) : CallbackCode callback.program := by
  cases callback <;> simp [Callback.program, resetDrawCounter, CallbackCode]

theorem mainCode_drawEvent (fast : Bool) : MainCode (drawEvent fast) := by
  cases fast <;> simp [drawEvent, configureGui, resetDrawCounter, MainCode]

theorem mainCode_countDown {loaded : ℤ} (h : loaded ≤ 5) : MainCode (countDown loaded) := by
  unfold countDown
  refine ⟨by omega, ?_⟩
  by_cases hl : 0 < loaded <;> simp [hl]

def settle : ℤ × Bool → List Instruction → ℤ × Bool
  | at_, [] => at_
  | at_, .client _ :: rest => settle at_ rest
  | at_, .setDrawCounter :: rest => settle (5, at_.2) rest
  | at_, .redraw :: rest => settle (at_.1, true) rest
  | at_, .loadDrawCounter :: rest => settle (at_.1 - 1, at_.2 || decide (0 < at_.1)) rest
  | at_, .storeDrawCounter value :: rest => settle (value, at_.2) rest

def settled (s : Loop) : ℤ × Bool := settle (s.drawCounter, s.redraw) s.main

theorem settled_idle {s : Loop} (h : s.main = []) : settled s = (s.drawCounter, s.redraw) := by
  rw [settled, h, settle]

theorem settle_countDown (loaded : ℤ) (mark : Bool) (rest : List Instruction) :
    settle (loaded, mark) (countDown loaded ++ rest) =
      settle (loaded - 1, mark || decide (0 < loaded)) rest := by
  by_cases h : 0 < loaded <;> simp [countDown, settle, h]

theorem settled_main (order : MapOrder) {s : Loop} {i : Instruction} {rest : List Instruction}
    (hm : s.main = i :: rest) : settled (execute order { s with main := rest } i) = settled s := by
  cases i with
  | client e => simp [settled, execute, settle, hm]
  | setDrawCounter => simp [settled, execute, settle, hm]
  | redraw => simp [settled, execute, settle, hm]
  | loadDrawCounter =>
    rw [settled, settled, hm, settle]
    exact settle_countDown s.drawCounter s.redraw rest
  | storeDrawCounter value => simp [settled, execute, settle, hm]

theorem settle_mono {c d : ℤ} {m n : Bool} (hc : c ≤ d) (hm : m = true → n = true)
    (p : List Instruction) :
    (settle (c, m) p).1 ≤ (settle (d, n) p).1 ∧
      ((settle (c, m) p).2 = true → (settle (d, n) p).2 = true) := by
  induction p generalizing c d m n with
  | nil => exact ⟨hc, hm⟩
  | cons i p ih =>
    cases i with
    | client e => exact ih hc hm
    | setDrawCounter => exact ih (Int.le_refl 5) hm
    | redraw => exact ih hc (fun _ => rfl)
    | storeDrawCounter value => exact ih (Int.le_refl value) hm
    | loadDrawCounter =>
      apply ih (by omega)
      intro h
      simp only [Bool.or_eq_true, decide_eq_true_eq] at h ⊢
      exact h.imp hm (fun h => by omega)

theorem settle_marked (c : ℤ) (p : List Instruction) : (settle (c, true) p).2 = true := by
  induction p generalizing c with
  | nil => rfl
  | cons i p ih => cases i <;> exact ih _

/-- A frame that has not loaded the counter yet takes at most one from it. -/
theorem settle_five {p : List Instruction} (hp : MainCode p)
    (hs : ∀ value, .storeDrawCounter value ∉ p) (m : Bool) : 4 ≤ (settle (5, m) p).1 := by
  induction p generalizing m with
  | nil => simp [settle]
  | cons i p ih =>
    have hrest : ∀ value, .storeDrawCounter value ∉ p :=
      fun value h => hs value (List.mem_cons_of_mem _ h)
    cases i with
    | client e => exact ih hp.2.2 hrest m
    | setDrawCounter => exact ih hp.2 hrest m
    | redraw => exact ih hp hrest true
    | loadDrawCounter =>
      obtain rfl : p = [] := hp
      simp [settle]
    | storeDrawCounter value => exact absurd List.mem_cons_self (hs value)

end Control

end GVS.FrameLoop
