import Gvs.LoggedPictures

/-!
# Programs that log

A client whose ids the other loggers keep away from finds its items, its
stream and its messages as if it were alone, whatever the others do. So a
program that sends its items one after another, each through a stream of its
own, has them logged as they were streamed, and a viewer at rest draws them.
-/

set_option autoImplicit false

namespace GVS.LoggerPrograms
open GVS.Proto GVS.ItemDefaults GVS.RequestTable GVS.LogParams GVS.LoggedItems GVS.Logbook
open GVS.Vis GVS.Display GVS.Resetting GVS.Shader GVS.Rendering GVS.ViewerPictures
open GVS.LoggedPictures GuardedRuns
open GVS.MessageClients (Call ofClient ofClient_self ofClient_other)

section Alone

variable {k : ℕ} {own : Set String} {b b' : Book}

structure Same (k : ℕ) (own : Set String) (b b' : Book) : Prop where
  stubs : b.stubs k = b'.stubs k
  page : b.pages k = b'.pages k
  logged : ∀ id ∈ own, b.logged id = b'.logged id

/-- Of the sends that arrive, those of the client and no others are to its
ids, and only the client clears. -/
def KeepsTo (k : ℕ) (own : Set String) (b : Book) : ℕ × Operation → Prop
  | (j, .send _ call) => b.stubs j = true → call.arrives = true → ((b.pages j).id ∈ own ↔ j = k)
  | (j, .clearAllItems call) => b.stubs j = true → call.arrives = true → j = k
  | (_, .itemStream _ _) | (_, .shift _) => True

theorem heard_lost {call : Call} (h : call.arrives = false) (errorMsg errorMsg' : String) :
    heard errorMsg call = heard errorMsg' call := by
  cases call with
  | lost statusMessage => rfl
  | cut statusMessage => cases h
  | answered => cases h

theorem Same.write (h : Same k own b b') (page : Page) :
    Same k own (b.write k page) (b'.write k page) :=
  ⟨h.stubs, by simp [Book.write], h.logged⟩

theorem Same.write_other (h : Same k own b b') {j : ℕ} (hj : j ≠ k) (page : Page) :
    Same k own (b.write j page) b' :=
  ⟨h.stubs, by simpa [Book.write, hj.symm] using h.page, h.logged⟩

theorem Same.enter (h : Same k own b b') (id : String) (l : Option Logged) :
    Same k own { b with logged := Function.update b.logged id l }
      { b' with logged := Function.update b'.logged id l } := by
  refine ⟨h.stubs, h.page, fun id' hid => ?_⟩
  simp only [Function.update_apply, h.logged id' hid]

theorem Same.enter_other (h : Same k own b b') {id : String} (hid : id ∉ own)
    (l : Option Logged) : Same k own { b with logged := Function.update b.logged id l } b' := by
  refine ⟨h.stubs, h.page, fun id' hid' => ?_⟩
  have hne : id' ≠ id := fun heq => hid (heq ▸ hid')
  simp only [Function.update_of_ne hne, h.logged id' hid']

theorem same_self (h : Same k own b b') {op : Operation} (hx : KeepsTo k own b (k, op)) :
    Same k own (b.turn (k, op)) (b'.turn (k, op)) := by
  cases op with
  | itemStream id uuid => exact h.write _
  | shift param =>
    simp only [Book.turn, h.page]
    split
    · exact h
    · exact h.write _
  | send type call =>
    have hwritten := h.write { b'.pages k with pending := [] }
    cases hb : b'.stubs k with
    | false => simpa [Book.turn, h.stubs, h.page, hb] using hwritten
    | true =>
      have hb' := h.stubs.trans hb
      cases harrives : call.arrives with
      | false =>
        simp only [Book.turn, hb, hb', harrives, h.page, heard_lost harrives _ ""]
        exact h.write _
      | true =>
        have hown : (b'.pages k).id ∈ own := h.page ▸ (hx hb' harrives).mpr rfl
        simp only [Book.turn, hb, hb', harrives, h.page, h.logged _ hown]
        exact (h.write _).enter _ _
  | clearAllItems call =>
    simp only [Book.turn, h.stubs]
    split
    · exact ⟨h.stubs, h.page, fun _ _ => rfl⟩
    · exact h

theorem same_other (h : Same k own b b') {j : ℕ} (hj : j ≠ k) {op : Operation}
    (hx : KeepsTo k own b (j, op)) : Same k own (b.turn (j, op)) b' := by
  cases op with
  | itemStream id uuid => exact h.write_other hj _
  | shift param =>
    simp only [Book.turn]
    split
    · exact h
    · exact h.write_other hj _
  | send type call =>
    cases hb : b.stubs j with
    | false => simpa [Book.turn, hb] using h.write_other hj _
    | true =>
      cases harrives : call.arrives with
      | false => simpa [Book.turn, hb, harrives] using h.write_other hj _
      | true =>
        have hforeign : (b.pages j).id ∉ own := fun hown => hj ((hx hb harrives).mp hown)
        simp only [Book.turn, hb, harrives, if_true]
        exact (h.write_other hj _).enter_other hforeign _
  | clearAllItems call =>
    simp only [Book.turn]
    split
    · rename_i hclear
      obtain ⟨hb, harrives⟩ := Bool.and_eq_true_iff.mp hclear
      exact absurd (hx hb harrives) hj
    · exact h

def solo (k : ℕ) (b : Book) (op : Operation) : Book := b.turn (k, op)

theorem run_solo (k : ℕ) (b : Book) (ops : List Operation) :
    run Book.turn b (ops.map (Prod.mk k)) = run (solo k) b ops := by
  induction ops generalizing b with
  | nil => rfl
  | cons op ops ih => exact ih (solo k b op)

theorem same_run (h : Same k own b b') {turns : List (ℕ × Operation)}
    (hturns : Along Book.turn (KeepsTo k own) b turns) :
    Same k own (run Book.turn b turns) (run (solo k) b' (ofClient k turns)) := by
  induction turns generalizing b b' with
  | nil => exact h
  | cons x turns ih =>
    obtain ⟨j, op⟩ := x
    by_cases hj : j = k
    · subst hj
      rw [ofClient_self]
      exact ih (same_self h hturns.1) hturns.2
    · rw [ofClient_other hj]
      exact ih (same_other h hj hturns.1) hturns.2

/-- A client that has its ids to itself is alone: what the server stores for
these ids, what its stream holds and the message of its last send are those of
a run in which nobody else does anything. -/
theorem own_ids_alone (stubs : ℕ → Bool) (ids : ℕ → String) (k : ℕ) (own : Set String)
    (turns : List (ℕ × Operation))
    (h : Along Book.turn (KeepsTo k own) (blank stubs ids) turns) :
    let c := run turn (opened stubs ids) turns
    let alone := run turn (opened stubs ids) ((ofClient k turns).map (Prod.mk k))
    c.streams k = alone.streams k ∧
      ∀ id ∈ own, c.server.scene.lookup id = alone.server.scene.lookup id := by
  intro c alone
  have hopened := refines_opened stubs ids
  have hc : Refines c _ := refines_run hopened turns
  have halone : Refines alone _ := refines_run hopened ((ofClient k turns).map (Prod.mk k))
  rw [run_solo] at halone
  obtain ⟨hstubs, hpage, hlogged⟩ := same_run ⟨rfl, rfl, fun _ _ => rfl⟩ h
  refine ⟨?_, fun id hid => ?_⟩
  · rw [hc.streams, halone.streams, hstubs, hpage]
  · rw [hc.stored, halone.stored, hlogged id hid]

def apartTurns : List (ℕ × Operation) :=
  [(1, .itemStream "b" ""), (0, .shift (.positions3d [0, 0, 0])),
    (1, .shift (.positions3d [one, one, one])), (1, .send .safe .answered),
    (0, .send .safe .answered)]

theorem apart_alone :
    let c := run turn (opened (fun _ => true) fun _ => "a") apartTurns
    let alone := run turn (opened (fun _ => true) fun _ => "a")
      [(0, .shift (.positions3d [0, 0, 0])), (0, .send .safe .answered)]
    c.streams 0 = alone.streams 0 ∧ ∀ id ∈ ({"a"} : Set String),
      c.server.scene.lookup id = alone.server.scene.lookup id := by
  have hforeign : "b" ≠ "a" := by decide
  exact own_ids_alone (fun _ => true) (fun _ => "a") 0 {"a"} apartTurns
    ⟨trivial, trivial, trivial, fun _ _ => iff_of_false hforeign Nat.one_ne_zero,
      fun _ _ => iff_of_true rfl rfl, trivial⟩

end Alone

section Guests

variable {k : ℕ} {own : Set String} {b b' : Book}

def Guest (k : ℕ) (own : Set String) (b : Book) (x : ℕ × Operation) : Prop :=
  x.1 ≠ k → Steady b x ∧ KeepsTo k own b x

structure OwnTurn (k : ℕ) (own : Set String) (b : Book) (op : Operation) : Prop where
  steady : Steady b (k, op)
  keepsTo : KeepsTo k own b (k, op)
  parent : ∀ type call, op = .send type call →
    ∀ parent, given .parent (b.pages k).pending = some parent → parent = "" ∨ parent ∈ own

theorem keepsTo_same (h : Same k own b b') {op : Operation} (hx : KeepsTo k own b' (k, op)) :
    KeepsTo k own b (k, op) := by
  cases op with
  | itemStream id uuid => trivial
  | shift param => trivial
  | send type call => simpa [KeepsTo, h.stubs, h.page] using hx
  | clearAllItems call => exact fun _ _ => rfl

theorem steady_same (h : Same k own b b') {op : Operation} (hx : OwnTurn k own b' op) :
    Steady b (k, op) := by
  obtain ⟨⟨hwelcome, hsteady⟩, hkeeps, hparents⟩ := hx
  cases op with
  | itemStream id uuid => exact ⟨trivial, trivial⟩
  | shift param => exact ⟨trivial, trivial⟩
  | send type call =>
    refine ⟨fun hb harrives => ?_, fun hb harrives => ?_⟩
    · obtain ⟨htype, hparent, hformat⟩ := hwelcome (h.stubs ▸ hb) harrives
      rw [h.page]
      refine ⟨htype, fun parent hgiven => ?_, hformat⟩
      rcases hparents type call rfl parent hgiven with hroot | hown
      · exact Or.inl hroot
      · rw [h.logged parent hown]
        exact hparent parent hgiven
    · have hid := (hkeeps (h.stubs ▸ hb) harrives).mpr rfl
      rw [h.page, h.logged _ hid]
      exact hsteady (h.stubs ▸ hb) harrives
  | clearAllItems call => exact ⟨trivial, trivial⟩

/-- The turns of a client are as steady among guests as they are alone. -/
theorem interleaved (h : Same k own b b') {turns : List (ℕ × Operation)}
    (hguests : Along Book.turn (Guest k own) b turns)
    (hown : Along (solo k) (OwnTurn k own) b' (ofClient k turns)) :
    Along Book.turn (fun b x => Steady b x ∧ KeepsTo k own b x) b turns := by
  induction turns generalizing b b' with
  | nil => trivial
  | cons x turns ih =>
    obtain ⟨j, op⟩ := x
    by_cases hj : j = k
    · subst hj
      rw [ofClient_self] at hown
      have hkeeps := keepsTo_same h hown.1.keepsTo
      exact ⟨⟨steady_same h hown.1, hkeeps⟩, ih (same_self h hkeeps) hguests.2 hown.2⟩
    · rw [ofClient_other hj] at hown
      obtain ⟨hsteady, hkeeps⟩ := hguests.1 hj
      exact ⟨⟨hsteady, hkeeps⟩, ih (same_other h hj hkeeps) hguests.2 hown⟩

end Guests

section Programs

structure Exhibit where
  id : String
  uuid : String
  params : List LogParam
  type : SendType
  call : Call

def Exhibit.name (e : Exhibit) : String := if e.id.isEmpty then e.uuid else e.id

def Exhibit.operations (e : Exhibit) : List Operation :=
  .itemStream e.id e.uuid :: (e.params.map .shift ++ [.send e.type e.call])

def program (exhibits : List Exhibit) : List Operation :=
  .clearAllItems .answered :: exhibits.flatMap Exhibit.operations

structure Showable (known : List String) (e : Exhibit) : Prop where
  name : e.name ≠ ""
  accepted : e.params.Pairwise Lets
  geometry : hasGeometry e.params = true
  type : e.type ≠ .append
  parent : ∀ parent, given .parent e.params.reverse = some parent → parent = "" ∨ parent ∈ known
  format : ∀ format, given .geometryFormat e.params.reverse = some format →
    (primitiveOf format).isSome

def Staged : List String → List Exhibit → Prop
  | _, [] => True
  | known, e :: exhibits =>
    Showable known e ∧ Staged (if e.call.arrives then e.name :: known else known) exhibits

variable {k : ℕ} {own : Set String} {b : Book}

@[simp] theorem write_pages (b : Book) (k : ℕ) (page : Page) :
    (b.write k page).pages k = page := by
  simp [Book.write]

theorem write_write (b : Book) (k : ℕ) (page page' : Page) :
    (b.write k page).write k page' = b.write k page' := by
  simp [Book.write]

theorem shifts_run (b : Book) (k : ℕ) {page : Page} {params : List LogParam}
    (hfree : ∀ p ∈ params, given (checked p) page.pending = none) (h : params.Pairwise Lets) :
    run (solo k) (b.write k page) (params.map .shift) =
      b.write k { page with pending := params.reverse ++ page.pending } := by
  induction params generalizing page with
  | nil => rfl
  | cons p params ih =>
    obtain ⟨hunset, hfree⟩ := List.forall_mem_cons.mp hfree
    obtain ⟨hlets, hlater⟩ := List.pairwise_cons.mp h
    have hturn : solo k (b.write k page) (.shift p) =
        b.write k { page with pending := p :: page.pending } := by
      simp [solo, Book.turn, hunset, write_write]
    have hfree' : ∀ q ∈ params, given (checked q) (p :: page.pending) = none := by
      intro q hq
      rw [given_cons, hlets q hq, hfree q hq, Option.none_or]
    rw [List.map_cons, run, hturn, ih hfree' hlater, List.reverse_cons, List.append_assoc]
    rfl

theorem shifts_own (b : Book) (params : List LogParam) :
    Along (solo k) (OwnTurn k own) b (params.map .shift) := by
  induction params generalizing b with
  | nil => trivial
  | cons p params ih =>
    exact ⟨⟨⟨trivial, trivial⟩, trivial, fun _ _ hop => by cases hop⟩, ih _⟩

def Exhibit.logged (e : Exhibit) : Option Logged :=
  if e.call.arrives then some (.first e.params.reverse) else none

theorem enter_exhibit {known : List String} {e : Exhibit} (he : Showable known e) :
    enter e.name e.params.reverse none e.type = (some (.first e.params.reverse), "") := by
  have hgeometry : hasGeometry e.params.reverse = true := by
    rw [hasGeometry, List.any_reverse]
    exact he.geometry
  cases htype : e.type with
  | append => exact absurd htype he.type
  | safe => simp [enter, hgeometry]
  | replace => simp [enter, hgeometry]

def Exhibit.filled (e : Exhibit) : Page where
  id := e.name
  pending := e.params.reverse

theorem filled_run (b : Book) (k : ℕ) {known : List String} {e : Exhibit} (he : Showable known e) :
    run (solo k) b (.itemStream e.id e.uuid :: e.params.map .shift) = b.write k e.filled := by
  rw [run]
  show run (solo k) (b.write k { id := e.name }) _ = _
  rw [shifts_run b k (fun _ _ => rfl) he.accepted, List.append_nil]
  rfl

theorem exhibit_run (hb : b.stubs k = true) {known : List String} {e : Exhibit}
    (he : Showable known e) (habsent : b.logged e.name = none) :
    run (solo k) b e.operations =
      { b.write k { id := e.name, errorMessage := heard "" e.call } with
        logged := Function.update b.logged e.name e.logged } := by
  rw [Exhibit.operations, ← List.cons_append, run_append, filled_run b k he, run, run, solo,
    Book.turn_send (by exact hb)]
  have hnone : (b.write k e.filled).logged e.filled.id = none := habsent
  rw [write_pages, hnone, write_write]
  simp only [Exhibit.filled, enter_exhibit he]
  rfl

theorem exhibit_own {known : List String} {e : Exhibit} (he : Showable known e)
    (habsent : b.logged e.name = none) (hown : e.name ∈ own)
    (hknown : ∀ name ∈ known, name ∈ own ∧ (b.logged name).isSome) :
    Along (solo k) (OwnTurn k own) b e.operations := by
  rw [Exhibit.operations, ← List.cons_append, along_append, filled_run b k he]
  refine ⟨⟨⟨⟨trivial, trivial⟩, trivial, fun _ _ hop => by cases hop⟩, shifts_own _ _⟩, ?_, trivial⟩
  refine ⟨⟨fun _ _ => ?_, fun _ _ => ?_⟩, fun _ _ => ?_, fun _ _ _ => ?_⟩
  · rw [write_pages]
    exact ⟨he.type, fun parent hgiven =>
      (he.parent parent hgiven).imp_right fun hmem => (hknown parent hmem).2, he.format⟩
  · rw [write_pages]
    refine ⟨he.name, fun l hl => ?_⟩
    rw [show (b.write k e.filled).logged e.filled.id = none from habsent] at hl
    cases hl
  · rw [write_pages]
    exact iff_of_true hown rfl
  · rw [write_pages]
    exact fun parent hgiven =>
      (he.parent parent hgiven).imp_right fun hmem => (hknown parent hmem).1

theorem exhibits_run {known : List String} {exhibits : List Exhibit} (hb : b.stubs k = true)
    (hstaged : Staged known exhibits) (hnodup : (exhibits.map Exhibit.name).Nodup)
    (habsent : ∀ e ∈ exhibits, b.logged e.name = none) (hown : ∀ e ∈ exhibits, e.name ∈ own)
    (hknown : ∀ name ∈ known, name ∈ own ∧ (b.logged name).isSome) :
    Along (solo k) (OwnTurn k own) b (exhibits.flatMap Exhibit.operations) ∧
      (∀ e ∈ exhibits,
        (run (solo k) b (exhibits.flatMap Exhibit.operations)).logged e.name = e.logged) ∧
      ∀ id, id ∉ exhibits.map Exhibit.name →
        (run (solo k) b (exhibits.flatMap Exhibit.operations)).logged id = b.logged id := by
  induction exhibits generalizing b known with
  | nil => exact ⟨trivial, List.forall_mem_nil _, fun _ _ => rfl⟩
  | cons e exhibits ih =>
    obtain ⟨he, hlater⟩ := hstaged
    obtain ⟨hfresh, hnodup⟩ := List.nodup_cons.mp hnodup
    obtain ⟨hname, habsent⟩ := List.forall_mem_cons.mp habsent
    obtain ⟨hmine, hown⟩ := List.forall_mem_cons.mp hown
    have hrun := exhibit_run hb he hname
    have hlogged : ∀ id, (run (solo k) b e.operations).logged id =
        if id = e.name then e.logged else b.logged id := by
      intro id
      rw [hrun]
      exact Function.update_apply _ _ _ _
    have hknown' : ∀ name ∈ (if e.call.arrives then e.name :: known else known),
        name ∈ own ∧ ((run (solo k) b e.operations).logged name).isSome := by
      intro name hmem
      rw [hlogged]
      by_cases heq : name = e.name
      · subst heq
        have harrives : e.call.arrives = true := by
          by_contra hlost
          rw [if_neg hlost] at hmem
          simpa [hname] using (hknown _ hmem).2
        simpa [Exhibit.logged, harrives] using hmine
      · rw [if_neg heq]
        refine hknown name ?_
        split at hmem
        · exact List.mem_of_ne_of_mem heq hmem
        · exact hmem
    have habsent' : ∀ e' ∈ exhibits, (run (solo k) b e.operations).logged e'.name = none := by
      intro e' he'
      have hne : e'.name ≠ e.name := fun heq => hfresh (heq ▸ List.mem_map_of_mem he')
      rw [hlogged, if_neg hne, habsent e' he']
    obtain ⟨hturns, hsent, hkept⟩ :=
      ih (by rw [hrun]; exact hb) hlater hnodup habsent' hown hknown'
    rw [List.flatMap_cons, along_append, run_append]
    refine ⟨⟨exhibit_own he hname hmine hknown, hturns⟩, ?_, fun id hid => ?_⟩
    · refine List.forall_mem_cons.mpr ⟨?_, hsent⟩
      rw [hkept e.name hfresh, hlogged, if_pos rfl]
    · rw [List.map_cons, List.mem_cons, not_or] at hid
      rw [hkept id hid.2, hlogged, if_neg hid.1]

/-- A program alone has what arrives logged as it was streamed. -/
theorem program_run {exhibits : List Exhibit} (hb : b.stubs k = true)
    (hstaged : Staged [] exhibits) (hnodup : (exhibits.map Exhibit.name).Nodup) :
    Along (solo k) (OwnTurn k {name | name ∈ exhibits.map Exhibit.name}) b (program exhibits) ∧
      ∀ e ∈ exhibits, (run (solo k) b (program exhibits)).logged e.name = e.logged := by
  have hclear : solo k b (.clearAllItems .answered) = { b with logged := fun _ => none } := by
    simp [solo, Book.turn, hb, Call.arrives]
  have hown : ∀ e ∈ exhibits, e.name ∈ {name | name ∈ exhibits.map Exhibit.name} :=
    fun e he => List.mem_map_of_mem he
  obtain ⟨hturns, hlogged, -⟩ := exhibits_run (b := { b with logged := fun _ => none }) hb hstaged
    hnodup (fun _ _ => rfl) hown (List.forall_mem_nil _)
  rw [program, run, Along, hclear]
  exact ⟨⟨⟨⟨trivial, trivial⟩, fun _ _ => rfl, fun _ _ hop => by cases hop⟩, hturns⟩, hlogged⟩

variable {M N : Type*}

/-- What a program shows is what is drawn. A program clears the scene and sends
items, each with its own stream and id, in any interleaving with loggers that
are steady and keep away from its ids. A viewer may join at any time, lose its
connection and get it back. At rest its frames have a call for every item of
the program that has arrived, with the vertices, the appearance and the
parents that were streamed for it. -/
theorem exhibits_drawn (a : Arithmetic M N) (camera : Camera M) (order : MapOrder)
    (stubs : ℕ → Bool) (ids : ℕ → String) (k : ℕ) (hstub : stubs k = true)
    (exhibits : List Exhibit) (hstaged : Staged [] exhibits)
    (hnodup : (exhibits.map Exhibit.name).Nodup)
    (connections : List (List (ℕ × Operation) × List (ℕ × Operation)))
    (hprogram : ofClient k (changes connections) = program exhibits)
    (hguests : Along Book.turn (Guest k {name | name ∈ exhibits.map Exhibit.name})
      (blank stubs ids) (changes connections))
    (cs : List FrameLoop.Choice)
    (hidle : ∀ k, (run (FrameLoop.step order) {} cs).threads k = [])
    (hconnected : (FrameLoop.history order {} cs).flatMap Drains.appended =
      connected turn Loggers.server (opened stubs ids) connections) :
    let b := run Book.turn (blank stubs ids) (changes connections)
    (∀ e ∈ exhibits, e.call.arrives = true →
      b.logged e.name = some (.first e.params.reverse)) ∧
      (∃ ds, (∀ d ∈ ds, FrameCount.Calm d) ∧
        FrameLoop.Quiet (run (FrameLoop.step order) {} (cs ++ ds))) ∧
      ∀ ds, (∀ d ∈ ds, FrameCount.Calm d) →
        FrameLoop.Quiet (run (FrameLoop.step order) {} (cs ++ ds)) →
        ∃ t, (run (FrameLoop.step order) {} (cs ++ ds)).client.scene = .done t ∧
          ShowsBook a camera b t := by
  intro b
  have hsame : Same k {name | name ∈ exhibits.map Exhibit.name} (blank stubs ids)
      (blank stubs ids) := ⟨rfl, rfl, fun _ _ => rfl⟩
  obtain ⟨hown, hlogged⟩ := program_run (b := blank stubs ids) hstub hstaged hnodup
  rw [← hprogram] at hown hlogged
  have hturns := interleaved hsame hguests hown
  have hrefines : Refines _ b := refines_run (refines_opened stubs ids) (changes connections)
  obtain ⟨t, ht, hportrays⟩ := connected_portrayed order stubs ids
    (along_mono Book.turn (fun _ _ hx => hx.1) hturns)
  rw [← hconnected] at ht
  obtain ⟨hrests, hshown⟩ := FrameCount.shown_at_rest order hidle ht
  refine ⟨fun e he harrives => ?_, hrests, fun ds hcalm hquiet =>
    ⟨t, hshown ds hcalm hquiet, showsBook_of_portrays hrefines hportrays a camera⟩⟩
  have hbook := same_run hsame (along_mono Book.turn (fun _ _ hx => hx.2) hturns)
  rw [hbook.logged e.name (List.mem_map_of_mem he), hlogged e he, Exhibit.logged, if_pos harrives]

/-- The items of `log_test`, with the circle, the random sphere and the uuids
of the triangle and of the strip. Its calls are answered. -/
def logTest (circle sphere : List Single) (triangle strip : String) : List Exhibit :=
  [{ id := "Axes"
     uuid := ""
     params :=
      [.positions3d [0, 0, 0, one, 0, 0, 0, one, 0, 0, 0, one],
        .vertexColors3d [one, one, one, one, 0, 0, 0, one, 0, 0, 0, one],
        .coloring .vertexColors, .indices .lines [0, 1, 0, 2, 0, 3]]
     type := .replace
     call := .answered },
   { id := "Head"
     uuid := ""
     params :=
      [.positions3d circle,
        .transformation
          ⟨[0x3F400000, 0, 0, 0, 0, 0x3F400000, 0, 0, 0, 0, 0x3F400000, 0,
            0x40000000, 0x40000000, one, one], rfl⟩,
        .uniformColor ⟨one, half, one⟩, .indices .lineStrip [], .shading .uniformColor]
     type := .replace
     call := .answered },
   { id := "Body"
     uuid := ""
     params :=
      [.parent "Head", .positions3d circle,
        .transformation
          ⟨[0x3FA66666, 0, 0, 0, 0, 0x3FA66666, 0, 0, 0, 0, 0x3FA66666, 0,
            0, 0xC0133333, 0, one], rfl⟩,
        .uniformColor ⟨one, one, half⟩, .indices .lineStrip []]
     type := .replace
     call := .answered },
   { id := "Feet"
     uuid := ""
     params :=
      [.parent "Body", .positions3d circle,
        .transformation
          ⟨[0x3FA66666, 0, 0, 0, 0, 0x3FA66666, 0, 0, 0, 0, 0x3FA66666, 0,
            0, 0xC0133333, 0, one], rfl⟩,
        .uniformColor ⟨half, one, one⟩, .indices .triangleFan []]
     type := .replace
     call := .answered },
   { id := ""
     uuid := triangle
     params :=
      [.positions3d [0xBF800000, 0xBF800000, 0, one, 0xBF800000, 0, 0, 0x3FC00000, 0xBF800000],
        .uniformColor ⟨half, 0x3E800000, 0x3D4CCCCD⟩, .indices .triangles []]
     type := .safe
     call := .answered },
   { id := ""
     uuid := strip
     params :=
      [.positions3d
        [0xBF800000, 0xBF800000, 0xC0000000, 0x40000000, 0xBF800000, 0xC0000000,
          0xBF800000, 0x40000000, 0xC0000000, 0x40000000, 0x40000000, 0xC0000000],
        .indices .triangleStrip []]
     type := .safe
     call := .answered },
   { id := "sphere"
     uuid := ""
     params :=
      [.positions3d sphere, .normals3d sphere,
        .transformation
          ⟨[one, 0, 0, 0, 0, one, 0, 0, 0, 0, one, 0, 0xC0000000, 0x40000000, 0x40000000, one],
            rfl⟩,
        .shading (.lambertian ⟨[], by decide⟩), .coloring .normals]
     type := .safe
     call := .answered }]

theorem logTest_accepted (circle sphere : List Single) (triangle strip : String) :
    ∀ e ∈ logTest circle sphere triangle strip, e.params.Pairwise Lets := by
  simp only [logTest, List.forall_mem_cons, List.pairwise_cons, List.Pairwise.nil, and_true, Lets]
  repeat' apply And.intro
  all_goals first
    | rfl
    | exact List.forall_mem_nil _

theorem logTest_staged (circle sphere : List Single) {triangle strip : String}
    (htriangle : triangle ≠ "") (hstrip : strip ≠ "") :
    Staged [] (logTest circle sphere triangle strip) := by
  have hroot : ∀ {known : List String}, ∀ parent, none = some parent →
      parent = "" ∨ parent ∈ known := fun _ h => by cases h
  have hreplace : SendType.replace ≠ .append := by decide
  have hsend : SendType.safe ≠ .append := by decide
  have hnamed : "Axes" ≠ "" ∧ "Head" ≠ "" ∧ "Body" ≠ "" ∧ "Feet" ≠ "" ∧ "sphere" ≠ "" := by decide
  obtain ⟨haxes, hhead, hbody, hfeet, hsphere⟩ := hnamed
  have haccepted := logTest_accepted circle sphere triangle strip
  simp only [logTest, List.forall_mem_cons] at haccepted
  obtain ⟨h₁, h₂, h₃, h₄, h₅, h₆, h₇, -⟩ := haccepted
  refine ⟨⟨haxes, h₁, rfl, hreplace, hroot, ?_⟩, ⟨hhead, h₂, rfl, hreplace, hroot, ?_⟩,
    ⟨hbody, h₃, rfl, hreplace, ?_, ?_⟩, ⟨hfeet, h₄, rfl, hreplace, ?_, ?_⟩,
    ⟨htriangle, h₅, rfl, hsend, hroot, ?_⟩, ⟨hstrip, h₆, rfl, hsend, hroot, ?_⟩,
    ⟨hsphere, h₇, rfl, hsend, hroot, ?_⟩, trivial⟩
  all_goals
    intro value hgiven
    cases hgiven <;> first
      | rfl
      | exact Or.inr List.mem_cons_self

theorem solo_guests (own : Set String) (b : Book) (k : ℕ) (ops : List Operation) :
    Along Book.turn (Guest k own) b (ops.map (Prod.mk k)) := by
  induction ops generalizing b with
  | nil => trivial
  | cons op ops ih => exact ⟨fun hother => absurd rfl hother, ih _⟩

def snowman : List Exhibit := logTest [one, 0, 0] [0, 0, one] "triangle" "strip"

def snowmanTurns : List (ℕ × Operation) := (program snowman).map (Prod.mk 0)

def connecting : List FrameLoop.Choice :=
  [.call 0 (.onStateChange .notConnected
      (.answered (run turn (opened (fun _ => true) fun _ => "") snowmanTurns).server.scene)),
    .thread 0, .thread 0, .thread 0, .thread 0]

theorem snowman_drawn : ∃ ds t,
    (run (FrameLoop.step entryOrder) {} (connecting ++ ds)).client.scene = .done t ∧
      ShowsBook symbolic ⟨[], []⟩
        (run Book.turn (blank (fun _ => true) fun _ => "") snowmanTurns) t := by
  have hchanges : changes [(snowmanTurns, [])] = snowmanTurns := rfl
  have hprogram : ofClient 0 (changes [(snowmanTurns, [])]) = program snowman := rfl
  obtain ⟨-, ⟨ds, hcalm, hquiet⟩, hrest⟩ :=
    exhibits_drawn symbolic ⟨[], []⟩ entryOrder (fun _ => true) (fun _ => "") 0 rfl snowman
      (logTest_staged _ _ (by decide) (by decide)) (by decide) [(snowmanTurns, [])] hprogram
      (by rw [hchanges]; exact solo_guests _ _ 0 (program snowman)) connecting
      (fun k => by cases k <;> rfl) (by simp [connected, run]; rfl)
  obtain ⟨t, ht, hshown⟩ := hrest ds hcalm hquiet
  exact ⟨ds, t, ht, hshown⟩

end Programs

end GVS.LoggerPrograms
