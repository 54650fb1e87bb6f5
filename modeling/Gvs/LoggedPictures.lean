import Gvs.Logbook
import Gvs.DrawnVertices

/-!
# Pictures of the logbook

From the parameters that loggers stream to the vertices that the shader is
given. Sends that move no item and leave nothing of a geometry behind bring a
viewer to portray the server, which stores the book. Then a frame has a call
for each id of the book, and the call runs the two stages on the logged
vertices, with the logged appearance, under the logged transformations.
-/

set_option autoImplicit false

namespace GVS.LoggedPictures
open GVS.Proto GVS.ItemDefaults GVS.Server GVS.RequestTable GVS.LogParams GVS.LoggedItems
open GVS.Logbook GVS.Vis GVS.Display GVS.DrawStates GVS.Viewers GVS.ViewerSafety
open GVS.ViewerAppearance GVS.ViewerHierarchy GVS.Resetting GVS.ResetOrder GVS.BulkSet GVS.Shader
open GVS.Rendering GVS.DrawnVertices GVS.ViewerPictures GuardedRuns ParentForest

section Following

structure Extends (l : Logged) (params : List LogParam) : Prop where
  parent : (given .parent params).getD "" = (given .parent l.created).getD ""
  covers : ∀ older, l.geometry = some older → hasGeometry params = true →
    Covers (givenGeometry older) (givenGeometry params)

/-- A welcome send has an id, and extends what is logged for it unless the
server rejects it. -/
def Steady (b : Book) (x : ℕ × Operation) : Prop :=
  Welcome b x ∧
    match x with
    | (k, .send type call) => b.stubs k = true → call.arrives = true → (b.pages k).id ≠ "" ∧
        ∀ l, b.logged (b.pages k).id = some l →
          (type = .safe → hasGeometry (b.pages k).pending = false) →
          Extends l (b.pages k).pending
    | (_, _) => True

theorem item_parentValue (id : String) (l : Logged) :
    (l.item id).parentValue = (given .parent l.created).getD "" :=
  carried_parentValue id l.created

theorem not_below_absent {items : SceneItems} (htree : StoredTree items) {id parent : String}
    (hid : id ≠ "") (habsent : id ∉ items) (hparent : parent ∈ items) :
    ¬ Below (storedUp items) parent id := by
  intro hbelow
  rcases Relation.ReflTransGen.cases_tail hbelow with heq | ⟨child, -, hup⟩
  · exact habsent (heq ▸ hparent)
  · obtain ⟨info, hl, rfl⟩ := Option.map_eq_some_iff.mp hup
    exact (htree.filed child info hl).2.elim hid habsent

theorem placed_carried {c : Loggers} {b : Book} (h : Refines c b)
    (htree : StoredTree c.server.scene) {id : String} {params : List LogParam} (hid : id ≠ "")
    (hknown : ParentKnown c.server.scene (carried id params))
    (hparent : ∀ l, b.logged id = some l →
      (given .parent params).getD "" = (given .parent l.created).getD "") :
    ParentPlaced c.server.scene (carried id params) := by
  refine hknown.imp_right fun hmem => ⟨hmem, ?_⟩
  have hl := h.stored id
  cases hlogged : b.logged id with
  | none =>
    rw [hlogged, Option.map_none] at hl
    exact not_below_absent htree hid (Finmap.lookup_eq_none.mp hl) hmem
  | some l =>
    rw [hlogged, Option.map_some] at hl
    apply htree.acyclic id
    rw [storedUp, hl, Option.map_some, item_parentValue, ← hparent l hlogged, carried_parentValue]

theorem merge_logged {c : Loggers} {b : Book} (h : Refines c b) {id : String}
    {params : List LogParam} {type : SendType} {old info : SceneItemInfo}
    (hv : verdict c.server.scene (request (carried id params) type) = .merge old info) :
    info = carried id params ∧ ∃ l, b.logged id = some l ∧ old = l.item id := by
  have hj := justified c.server.scene (request (carried id params) type)
  rw [hv] at hj
  obtain ⟨hinfo, hl, -⟩ := hj
  obtain rfl : carried id params = info := by
    cases type <;> exact Option.some.inj hinfo
  refine ⟨rfl, ?_⟩
  rw [show (carried id params).idValue = id from rfl, h.stored id] at hl
  obtain ⟨l, hlogged, rfl⟩ := Option.map_eq_some_iff.mp hl
  exact ⟨l, hlogged, rfl⟩

theorem followable_carried {c : Loggers} {b : Book} (h : Refines c b)
    (htree : StoredTree c.server.scene) {id : String} {params : List LogParam} {type : SendType}
    (hadmissible : Admissible c.server (request (carried id params) type)) (hid : id ≠ "")
    (hextends : ∀ l, b.logged id = some l → Extends l params) :
    Followable c.server (request (carried id params) type) where
  admissible := hadmissible
  placed := by
    have hparent := fun l hl => (hextends l hl).parent
    cases type with
    | append => exact hadmissible.elim
    | safe => exact ⟨hid, placed_carried h htree hid hadmissible.1 hparent⟩
    | replace => exact ⟨hid, placed_carried h htree hid hadmissible.1 hparent⟩
  keepsParent := by
    unfold KeepsParent
    split
    · rename_i old info hv
      obtain ⟨rfl, l, hl, rfl⟩ := merge_logged h hv
      rw [carried_parentValue, item_parentValue, (hextends l hl).parent]
    all_goals trivial
  covered := by
    unfold Covered
    split
    · rename_i old info hv
      obtain ⟨rfl, l, hl, rfl⟩ := merge_logged h hv
      intro older newer holder hnewer
      obtain ⟨params', hgeometry, rfl⟩ := Option.map_eq_some_iff.mp holder
      rw [carried_geometry, Option.ite_none_right_eq_some] at hnewer
      obtain ⟨hhas, hnewer⟩ := hnewer
      cases hnewer
      exact (hextends l hl).covers params' hgeometry hhas
    all_goals trivial

/-- A safe send with geometry to a logged id leaves the server as it is. -/
theorem refused_step {c : Loggers} {b : Book} (h : Refines c b) {id : String}
    {params : List LogParam} {l : Logged} (hl : b.logged id = some l)
    (hhas : hasGeometry params = true) :
    step c.server (request (carried id params) .safe) = c.server := by
  have hstored : c.server.scene.lookup (carried id params).idValue = some (l.item id) := by
    rw [show (carried id params).idValue = id from rfl, h.stored id, hl, Option.map_some]
  rw [step_eq]
  simp [verdict, request, hstored, carried_geometry, hhas, perform]

/-- What a turn makes of the server is one followable request, or nothing. -/
theorem turn_followable {c : Loggers} {b : Book} (h : Refines c b)
    (htree : StoredTree c.server.scene) {x : ℕ × Operation} (hx : Steady b x) :
    (turn c x).server = c.server ∨
      ∃ r, Followable c.server r ∧ (turn c x).server = step c.server r := by
  obtain ⟨hwelcome, hsteady⟩ := hx
  rw [turn_posted h]
  cases hr : posted b x with
  | none => exact Or.inl rfl
  | some r =>
    rcases posted_cases hr with ⟨k, type, call, rfl, hb, harrives, rfl⟩ | rfl
    · obtain ⟨hid, hextends⟩ := hsteady hb harrives
      by_cases hrefused : type = .safe ∧ hasGeometry (b.pages k).pending = true ∧
          (b.logged (b.pages k).id).isSome
      · obtain ⟨rfl, hhas, hlogged⟩ := hrefused
        obtain ⟨l, hl⟩ := Option.isSome_iff_exists.mp hlogged
        exact Or.inl (refused_step h hl hhas)
      · refine Or.inr ⟨_, ?_, rfl⟩
        apply followable_carried h htree (admissible_carried h hb harrives hwelcome) hid
        intro l hl
        refine hextends l hl fun hsafe => ?_
        by_contra hhas
        exact hrefused ⟨hsafe, Bool.not_eq_false _ ▸ hhas, by rw [hl]; rfl⟩
    · exact Or.inr ⟨.clearAll, ⟨trivial, trivial, trivial, trivial⟩, rfl⟩

theorem connected_portrayed (order : MapOrder) (stubs : ℕ → Bool) (ids : ℕ → String)
    {connections : List (List (ℕ × Operation) × List (ℕ × Operation))}
    (h : Along Book.turn Steady (blank stubs ids) (changes connections)) :
    ∃ t, Vis.update order construct
        (connected turn Loggers.server (opened stubs ids) connections) = .done t ∧
      Portrays (run turn (opened stubs ids) (changes connections)).server t :=
  simulation_connected (portrays_step order)
    (fun _ _ _ _ hrefines ht hx => turn_followable hrefines ht.tree hx)
    (fun _ _ _ _ ht hthere => portrays_reset order ht.kept hthere.tree hthere.loadable)
    (refines_opened stubs ids) portrays_construct h

end Following

section Pictures

variable {M N : Type*}

inductive LoggedDescends (b : Book) : String → List Mat4 → Prop where
  | root : LoggedDescends b "" [identity]
  | logged {id : String} {l : Logged} {ts : List Mat4} (hid : id ≠ "") (hl : b.logged id = some l)
    (hts : LoggedDescends b ((given .parent l.created).getD "") ts) :
    LoggedDescends b id (ts ++ [l.shown.transformation])

def loggedVertices (l : Logged) : List Vertex :=
  match l.geometry with
  | none => []
  | some params =>
    (drawingOrder (givenGeometry params)).map (vertexOf (givenGeometry params))

def WellLogged (l : Logged) : Prop :=
  ∀ params, l.geometry = some params → Formed (givenGeometry params)

def loggedUniforms (a : Arithmetic M N) (camera : Camera M) (l : Logged) (ts : List Mat4) :
    Uniforms M N :=
  draw a camera (shownDrawable l.shown) (a.relative camera.cameraMatrix ts) (constructShader a)

inductive LoggedPicture (a : Arithmetic M N) (camera : Camera M) (b : Book) :
    String → DrawCall → Prop where
  | root {call : DrawCall} (hvertices : stageOutputs call = []) : LoggedPicture a camera b "" call
  | logged {id : String} {l : Logged} {ts : List Mat4} {call : DrawCall}
    (hl : b.logged id = some l) (hts : LoggedDescends b id ts)
    (hprimitive : call.primitive = l.shown.primitive)
    (hvertices : WellLogged l → stageOutputs call = (loggedVertices l).map fun vertex =>
      some (vertexMain a (loggedUniforms a camera l ts) vertex))
    (hfragment : call.fragment = fragmentMain a (loggedUniforms a camera l ts)) :
    LoggedPicture a camera b id call

def ShowsBook (a : Arithmetic M N) (camera : Camera M) (b : Book) (t : OpenGLScene) : Prop :=
  ∀ u, Left a u → (∃ u' calls, Renders a camera t u u' calls) ∧
    ∀ u' calls, Renders a camera t u u' calls →
      ∃ ids : List String, ids.Nodup ∧ (∀ id, id ∈ ids ↔ id = "" ∨ (b.logged id).isSome) ∧
        List.Forall₂ (LoggedPicture a camera b) ids calls

theorem itemsView_root {items : SceneItems} (htree : StoredTree items) :
    itemsView items "" = some freshDisplay := by
  rw [itemsView, Finmap.lookup_eq_none.mpr htree.nonempty]
  rfl

theorem itemsDraw_root {items : SceneItems} (htree : StoredTree items) :
    itemsDraw items "" = some freshDraw := by
  rw [itemsDraw, Finmap.lookup_eq_none.mpr htree.nonempty]
  rfl

theorem itemsDraw_logged {c : Loggers} {b : Book} (h : Refines c b) {id : String} {l : Logged}
    (hl : b.logged id = some l) :
    itemsDraw c.server.scene id = some (redrawn (l.item id) freshDraw) := by
  rw [itemsDraw, h.stored id, hl]
  rfl

theorem loggedDescends_of_stored {c : Loggers} {b : Book} (h : Refines c b)
    (htree : StoredTree c.server.scene) {id : String} {ts : List Mat4}
    (hts : StoredDescends c.server.scene id ts) : LoggedDescends b id ts := by
  induction hts with
  | root hshown =>
    rw [itemsView_root htree] at hshown
    cases hshown
    exact .root
  | @item id parent shown ts hup hshown _ ih =>
    have hid : id ≠ "" := by
      rintro rfl
      rw [storedUp_root htree] at hup
      cases hup
    rw [itemsView_logged h hid] at hshown
    obtain ⟨l, hl, rfl⟩ := Option.map_eq_some_iff.mp hshown
    rw [storedUp, h.stored id, hl, Option.map_some, Option.map_some, item_parentValue] at hup
    cases hup
    exact .logged hid hl ih

theorem stageOutputs_logged {id : String} {l : Logged} {call : DrawCall}
    (hmesh : call.mesh = redrawn (l.item id) freshDraw) (h : WellLogged l) :
    stageOutputs call = (loggedVertices l).map fun vertex => some (call.vertex vertex) := by
  cases hgeometry : l.geometry with
  | none =>
    have hnone : (l.item id).geometryInfo = none := by simp [Logged.item, hgeometry]
    rw [redrawn, hnone] at hmesh
    simp only [loggedVertices, hgeometry]
    exact stageOutputs_fresh hmesh
  | some params =>
    have hsome : (l.item id).geometryInfo = some (givenGeometry params) := by
      simp [Logged.item, hgeometry]
    rw [redrawn, hsome] at hmesh
    simp only [loggedVertices, hgeometry, List.map_map]
    exact stageOutputs_redraw hmesh (h params hgeometry)

/-- What the stored items say of a call is what the book says. -/
theorem loggedPicture_of_stored {c : Loggers} {b : Book} (h : Refines c b)
    (htree : StoredTree c.server.scene) {a : Arithmetic M N} {camera : Camera M} {id : String}
    {call : DrawCall} (hcall : StoredPicture a camera c.server.scene id call) :
    LoggedPicture a camera b id call := by
  cases hcall with
  | @intro shown mesh ts u hshown hmesh hts hu =>
    by_cases hid : id = ""
    · subst hid
      rw [itemsDraw_root htree] at hmesh
      exact .root (stageOutputs_fresh (Option.some.inj hmesh).symm)
    · rw [itemsView_logged h hid] at hshown
      obtain ⟨l, hl, rfl⟩ := Option.map_eq_some_iff.mp hshown
      rw [itemsDraw_logged h hl] at hmesh
      have halike : Alike (draw a camera (shownDrawable l.shown)
          (a.relative camera.cameraMatrix ts) u) (loggedUniforms a camera l ts) :=
        draw_alike a camera _ _ hu
      rw [halike.vertexMain, halike.fragmentMain]
      exact .logged hl (loggedDescends_of_stored h htree hts) rfl
        (fun hwell => stageOutputs_logged (Option.some.inj hmesh).symm hwell) rfl

theorem showsBook_of_portrays {c : Loggers} {b : Book} (h : Refines c b) {t : OpenGLScene}
    (ht : Portrays c.server t) (a : Arithmetic M N) (camera : Camera M) :
    ShowsBook a camera b t := by
  intro u hu
  refine ⟨renders_exists a camera ht.kept u, fun u' calls hcalls => ?_⟩
  obtain ⟨ids, hnodup, hmem, hpictured⟩ := renders_items ht.kept.wired (left_opacity hu) hcalls
  refine ⟨ids, hnodup, fun id => ?_,
    hpictured.imp fun _ _ hcall => loggedPicture_of_stored h ht.tree (ht.pictured hcall)⟩
  rw [hmem, ht.linked.tracks.known, mem_iff_lookup, ← Option.isSome_iff_exists, h.stored,
    Option.isSome_map]

/-- From the streamed parameters to the shader: a viewer that joins steady
loggers at any time, loses its connection and gets it back, with its callbacks
and frames in any interleaving, comes to rest once the callbacks are done and
no input comes. At rest every frame has one call for each logged id. The call
runs the vertex stage on the vertices that were streamed last for the id and
the fragment stage with the appearance streamed for it, both under the
transformations that were streamed for the ids from the root down to it. -/
theorem screen_draws_book (a : Arithmetic M N) (camera : Camera M) (order : MapOrder)
    (stubs : ℕ → Bool) (ids : ℕ → String)
    (connections : List (List (ℕ × Operation) × List (ℕ × Operation)))
    (h : Along Book.turn Steady (blank stubs ids) (changes connections))
    (cs : List FrameLoop.Choice)
    (hidle : ∀ k, (run (FrameLoop.step order) {} cs).threads k = [])
    (hconnected : (FrameLoop.history order {} cs).flatMap Drains.appended =
      connected turn Loggers.server (opened stubs ids) connections) :
    (∃ ds, (∀ d ∈ ds, FrameCount.Calm d) ∧
      FrameLoop.Quiet (run (FrameLoop.step order) {} (cs ++ ds))) ∧
      ∀ ds, (∀ d ∈ ds, FrameCount.Calm d) →
        FrameLoop.Quiet (run (FrameLoop.step order) {} (cs ++ ds)) →
        ∃ t, (run (FrameLoop.step order) {} (cs ++ ds)).client.scene = .done t ∧
          ShowsBook a camera (run Book.turn (blank stubs ids) (changes connections)) t := by
  obtain ⟨t, ht, hportrays⟩ := connected_portrayed order stubs ids h
  rw [← hconnected] at ht
  obtain ⟨hrests, hshown⟩ := FrameCount.shown_at_rest order hidle ht
  have hrefines := refines_run (refines_opened stubs ids) (changes connections)
  exact ⟨hrests, fun ds hcalm hquiet =>
    ⟨t, hshown ds hcalm hquiet, showsBook_of_portrays hrefines hportrays a camera⟩⟩

theorem sent_steady : Along Book.turn Steady twoStreams (itemSent ++ colorSent) := by
  obtain ⟨-, -, hitem, hcolor, -⟩ := sent_welcome
  refine ⟨⟨trivial, trivial⟩, ⟨trivial, trivial⟩, ⟨hitem, fun _ _ => ⟨by decide, ?_⟩⟩,
    ⟨hcolor, fun _ _ => ⟨by decide, ?_⟩⟩, trivial⟩
  · intro l hl
    cases hl
  · intro l hl _
    cases hl
    exact ⟨rfl, fun _ _ hhas => by cases hhas⟩

theorem joining_draws_white : ∃ ds t,
    (run (FrameLoop.step entryOrder) {} (joining ++ ds)).client.scene = .done t ∧
      ShowsBook symbolic ⟨[], []⟩ (run Book.turn twoStreams (itemSent ++ colorSent)) t := by
  obtain ⟨⟨ds, hcalm, hquiet⟩, hrest⟩ :=
    screen_draws_book symbolic ⟨[], []⟩ entryOrder (fun _ => true) (fun _ => "item")
      [(itemSent, colorSent)] sent_steady joining (fun k => by cases k <;> rfl) rfl
  obtain ⟨t, ht, hshown⟩ := hrest ds hcalm hquiet
  exact ⟨ds, t, ht, hshown⟩

end Pictures

end GVS.LoggedPictures
