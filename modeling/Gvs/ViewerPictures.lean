import Gvs.Rendering
import Gvs.ViewerHierarchy
import Gvs.BulkSet
import Gvs.FrameCount

/-!
# Viewers draw the same pictures

A viewer portrays the server when its scene is kept and has the appearance,
the geometry and the hierarchy of the stored items. Then each draw call is
determined by the stored items alone, so that the frames of all viewers of a
server have the same calls. Only their order differs: it is that in which a
viewer came to know the items. A snapshot makes a viewer portray the server
again, so that one that was disconnected for a while catches up.
-/

set_option autoImplicit false

namespace GVS.ViewerPictures
open GVS.Proto GVS.ItemDefaults GVS.Server GVS.RequestTable GVS.StoredItems GuardedRuns
open GVS.Vis GVS.SceneBooks GVS.Wiring GVS.Display GVS.Resetting GVS.Links GVS.DrawStates
open GVS.Bookkeeping GVS.Viewers GVS.Views GVS.ViewerSafety GVS.ViewerAppearance
open GVS.ViewerHierarchy GVS.ResetOrder GVS.BulkSet GVS.Shader GVS.Rendering ParentForest

/-- A send, a replace or a clear that a viewer follows in every respect: the
payload is loadable and placed in the tree, an update names the stored parent
again and a geometry binds again what the stored one binds. -/
structure Followable (s : SceneServer) (r : SceneUpdateRequest) : Prop where
  admissible : Admissible s r
  placed : WellPlaced s r
  keepsParent : KeepsParent s r
  covered : Covered s r

structure Portrays (s : SceneServer) (t : OpenGLScene) : Prop where
  kept : Kept (books t)
  tree : StoredTree s.scene
  loadable : LoadableItems s.scene
  linked : Linked s t
  shown : displayState t = itemsView s.scene
  drawn : draws t = itemsDraw s.scene

section Connections

variable {σ ρ : Type*} (change : σ → ρ → σ) (server : σ → SceneServer)

/-- What the client of a viewer appends that loses its connection and gets it
back: on each connection a snapshot after the changes that it has missed, and
then what is written by those that it follows. -/
def connected : σ → List (List ρ × List ρ) → List SceneUpdate
  | _, [] => []
  | s, (missed, followed) :: connections =>
    let opened := run change s missed
    let closed := run change opened followed
    .resetAllItems (server opened).scene ::
      ((server closed).sceneStream.drop (server opened).sceneStream.length ++
        connected closed connections)

def changes (connections : List (List ρ × List ρ)) : List ρ :=
  connections.flatMap fun connection => connection.1 ++ connection.2

variable {change server}

/-- A relation that a snapshot sets up again and a stream keeps holds after any
number of connections. -/
theorem connected_simulation (order : MapOrder) {R : σ → OpenGLScene → Prop}
    {valid : σ → List ρ → Prop}
    (happend : ∀ s rs ts, valid s (rs ++ ts) → valid s rs ∧ valid (run change s rs) ts)
    (hreset : ∀ s t missed, R s t → valid s missed →
      ∃ t', reset order t (server (run change s missed)).scene = .done t' ∧
        R (run change s missed) t')
    (hfollow : ∀ s t followed, R s t → valid s followed →
      ∃ t', Vis.update order t ((server (run change s followed)).sceneStream.drop
          (server s).sceneStream.length) = .done t' ∧ R (run change s followed) t')
    {s : σ} {t : OpenGLScene} (hR : R s t) {connections : List (List ρ × List ρ)}
    (h : valid s (changes connections)) :
    ∃ t', Vis.update order t (connected change server s connections) = .done t' ∧
      R (run change s (changes connections)) t' := by
  induction connections generalizing s t with
  | nil => exact ⟨t, rfl, hR⟩
  | cons connection connections ih =>
    obtain ⟨missed, followed⟩ := connection
    have hchanges : changes ((missed, followed) :: connections) =
        missed ++ (followed ++ changes connections) := by
      rw [changes, List.flatMap_cons, List.append_assoc]
      rfl
    rw [hchanges] at h ⊢
    obtain ⟨hmissed, hrest⟩ := happend s missed _ h
    obtain ⟨hfollowed, hlater⟩ := happend _ followed _ hrest
    obtain ⟨t₁, h₁, hR₁⟩ := hreset s t missed hR hmissed
    obtain ⟨t₂, h₂, hR₂⟩ := hfollow _ t₁ followed hR₁ hfollowed
    obtain ⟨t', h', hR'⟩ := ih hR₂ hlater
    refine ⟨t', ?_, by rw [run_append, run_append]; exact hR'⟩
    show (reset order t (server (run change s missed)).scene).andThen
      (fun t => Vis.update order t (_ ++ _)) = _
    rw [h₁, Outcome.done_andThen, update_append, h₂, Outcome.done_andThen, h']

end Connections

section Following

theorem portrays_construct : Portrays {} construct where
  kept := kept_construct
  tree := storedTree_empty
  loadable := fun id info h => by simp at h
  linked := linked_construct
  shown := funext construct_shown
  drawn := by
    ext1 id
    show draws (Vis.freshRoot (erased {})) id = _
    rw [draws_observes.rooted {} wired_empty]
    rfl

theorem kept_call {t t' : OpenGLScene} (ht : Kept (books t)) {c : Call}
    (hc : call t c = .done t') (hg : Tidy (some t) c) : Kept (books t') := by
  have halive : Alive (some t) := by
    intro s hs
    cases hs
    exact ht
  refine alive_act (some t) c halive hg t' ?_
  show survivor (call t c) = some t'
  rw [hc]
  rfl

theorem kept_step (order : MapOrder) {s : SceneServer} {t t' : OpenGLScene} (h : Portrays s t)
    {r : SceneUpdateRequest} (hg : Followable s r)
    (hd : Vis.update order t (broadcast s r) = .done t') : Kept (books t') := by
  have hj := justified s.scene r
  have hsafe := admissible_viewerSafe hg.admissible
  unfold broadcast at hd
  unfold ViewerSafe at hsafe
  cases hv : verdict s.scene r with
  | reject errorMsg =>
    rw [hv] at hd
    cases hd
    exact h.kept
  | create info =>
    rw [hv] at hd hj hsafe
    rw [update_singleton] at hd
    obtain ⟨hid, hplaced, -⟩ := wellPlaced_info hg.placed hj.1
    refine kept_call (c := .addItem (setDisplayDefaults info)) h.kept hd fun t₀ ht₀ _ => ?_
    cases ht₀
    refine ⟨?_, ((loadable_setDisplayDefaults info).mpr hsafe.2.1).1, ?_⟩
    · rw [← Option.not_isSome_iff_eq_none, h.linked.tracks.known]
      have hnew : info.idValue ∉ s.scene := Finmap.lookup_eq_none.mp hj.2.1
      exact fun hknown => hknown.elim hid hnew
    · exact (h.linked.tracks.known _).mpr (hplaced.imp_right And.left)
  | merge old info =>
    rw [hv] at hd hj hsafe
    rw [update_singleton] at hd
    refine kept_call (c := .updateItem info) h.kept hd fun t₀ ht₀ _ _ => ?_
    cases ht₀
    exact (h.linked.tracks.known _).mpr hsafe.2
  | announce old info =>
    rw [hv] at hj
    exact absurd hj.1 (admissible_not_append hg.admissible info)
  | clear =>
    rw [hv] at hd
    rw [update_singleton] at hd
    refine kept_call (c := .reset order ∅) h.kept hd fun t₀ _ => ?_
    exact ⟨storedTree_empty.declaresTree, fun key info hl => by simp at hl⟩

theorem portrays_step (order : MapOrder) (s : SceneServer) (r : SceneUpdateRequest)
    (t : OpenGLScene) (h : Portrays s t) (hg : Followable s r) :
    ∃ t', Vis.update order t (broadcast s r) = .done t' ∧ Portrays (step s r) t' := by
  have hsafe := admissible_viewerSafe hg.admissible
  obtain ⟨t', hd⟩ := (Outcome.returns_iff _).mp
    ((tracks_returns order h.linked.tracks r).mpr ⟨hsafe, fun _ => rootOnTop_of_kept h.kept⟩)
  have hsilent : Silent s r := by
    unfold Silent
    cases hv : verdict s.scene r with
    | announce old info => exact absurd hv (not_announced (admissible_not_append hg.admissible) old info)
    | reject errorMsg => trivial
    | create info => trivial
    | merge old info => trivial
    | clear => trivial
  exact ⟨t', hd, {
    kept := kept_step order h hg hd
    tree := storedTree_step s r h.tree hg.placed
    loadable := loadableItems_step s r h.loadable hsafe
    linked := linked_step order h.linked h.tree hg.placed hg.keepsParent hd
    shown := (shown_step order h.kept.wired h.shown hsafe hd).mpr hsilent
    drawn := (drawn_step order h.kept.wired h.drawn hd).mpr hg.covered }⟩

theorem portrays_live (order : MapOrder) {rs : List SceneUpdateRequest}
    (h : Along step Followable {} rs) :
    ∃ live, liveViewer order (run step {} rs) = .done live ∧ Portrays (run step {} rs) live := by
  rw [liveViewer_run]
  exact viewer_simulation order (portrays_step order) portrays_construct h

theorem linked_rebuilt {s : SceneServer} {t : OpenGLScene} (hw : Wired (books t))
    (h : Rebuilt s.scene t) : Linked s t where
  tracks := ⟨hw, h.keys⟩
  top g hg := by
    obtain ⟨package, hp, hroot⟩ := h.root
    have hown : (books t).packages "" = some (handles package) := by simp [books, hp]
    rw [hown] at hg
    cases hg
    rw [up_books]
    exact h.top _ hroot
  hangs id parent hup := by
    obtain ⟨info, hl, rfl⟩ := Option.map_eq_some_iff.mp hup
    exact (hangsUnder_iff t id _).mp (h.hangs id info hl)

/-- A viewer that resets to the stored items portrays the server, whatever it
has shown before. -/
theorem portrays_reset (order : MapOrder) {t : OpenGLScene} (ht : Kept (books t))
    {s : SceneServer} (htree : StoredTree s.scene) (hload : LoadableItems s.scene) :
    ∃ t', reset order t s.scene = .done t' ∧ Portrays s t' := by
  have hloadable : ∀ id info, s.scene.lookup id = some info → Loadable info :=
    fun id info hl => (hload id info hl).2.1
  obtain ⟨t', hreset, hrebuilt⟩ := reset_rebuilt order ht.wired (rootOnTop_of_kept ht) htree hloadable
  have hkept : Kept (books t') := by
    refine kept_call (c := .reset order s.scene) ht hreset fun t₀ _ => ?_
    exact ⟨htree.declaresTree, fun key info hl => (hloadable key info hl).1⟩
  exact ⟨t', hreset, hkept, htree, hload, linked_rebuilt hkept.wired hrebuilt,
    funext hrebuilt.shown, funext hrebuilt.drawn⟩

theorem portrays_late (order : MapOrder) {s : SceneServer} {t : OpenGLScene} (h : Portrays s t) :
    ∃ late, lateViewer order s = .done late ∧ Portrays s late :=
  portrays_reset order kept_construct h.tree h.loadable

end Following

section Pictures

variable {M N : Type*}

inductive StoredDescends (items : SceneItems) : String → List Mat4 → Prop where
  | root {shown : DisplayState} (hshown : itemsView items "" = some shown) :
    StoredDescends items "" [shown.transformation]
  | item {id parent : String} {shown : DisplayState} {ts : List Mat4}
    (hup : storedUp items id = some parent) (hshown : itemsView items id = some shown)
    (hts : StoredDescends items parent ts) :
    StoredDescends items id (ts ++ [shown.transformation])

theorem storedDescends_unique {items : SceneItems} (htree : StoredTree items) {id : String}
    {ts ts' : List Mat4} (h : StoredDescends items id ts) (h' : StoredDescends items id ts') :
    ts = ts' := by
  induction h generalizing ts' with
  | root hshown =>
    cases h' with
    | root hshown' =>
      rw [hshown] at hshown'
      cases hshown'
      rfl
    | item hup' hshown' hts' =>
      rw [storedUp_root htree] at hup'
      cases hup'
  | item hup hshown hts ih =>
    cases h' with
    | root hshown' =>
      rw [storedUp_root htree] at hup
      cases hup
    | item hup' hshown' hts' =>
      rw [hup] at hup'
      cases hup'
      rw [hshown] at hshown'
      cases hshown'
      rw [ih hts']

def shownDrawable (shown : DisplayState) : OpaqueDrawable where
  object := 0
  mesh := 0
  coloring := shown.coloring
  uniformColor := shown.uniformColor
  shading := shown.shading

inductive StoredPicture (a : Arithmetic M N) (camera : Camera M) (items : SceneItems)
    (id : String) : DrawCall → Prop where
  | intro {shown : DisplayState} {mesh : DrawState} {ts : List Mat4} {u : Uniforms M N}
    (hshown : itemsView items id = some shown) (hmesh : itemsDraw items id = some mesh)
    (hts : StoredDescends items id ts) (hu : u.opacity = one) :
    StoredPicture a camera items id
      { vertex := vertexMain a
          (draw a camera (shownDrawable shown) (a.relative camera.cameraMatrix ts) u)
        fragment := fragmentMain a
          (draw a camera (shownDrawable shown) (a.relative camera.cameraMatrix ts) u)
        primitive := shown.primitive
        mesh }

theorem storedPicture_unique {a : Arithmetic M N} {camera : Camera M} {items : SceneItems}
    (htree : StoredTree items) : Relator.RightUnique (StoredPicture a camera items) := by
  intro id call call' h h'
  cases h with
  | @intro shown mesh ts u hshown hmesh hts hu =>
    cases h' with
    | intro hshown' hmesh' hts' hu' =>
      rw [hshown] at hshown'
      cases hshown'
      rw [hmesh] at hmesh'
      cases hmesh'
      rw [storedDescends_unique htree hts' hts]
      have halike := draw_alike a camera (shownDrawable shown) (a.relative camera.cameraMatrix ts)
        (hu.trans hu'.symm)
      rw [halike.vertexMain, halike.fragmentMain]

theorem displayState_package {t : OpenGLScene} {id : String} {package : ObjectMeshPackage}
    {object : Object3D} {drawable : OpaqueDrawable} (hid : t.objects id = some package)
    (ho : t.graph package.object = some object)
    (hd : t.drawables package.drawable = some drawable) :
    displayState t id = some
      { transformation := object.transformation
        coloring := drawable.coloring
        uniformColor := drawable.uniformColor
        shading := drawable.shading
        primitive := package.mesh.primitive } := by
  simp [displayState, hid, ho, hd]

theorem Portrays.shown_transformation {s : SceneServer} {t : OpenGLScene} (h : Portrays s t)
    {id : String} {package : ObjectMeshPackage} {object : Object3D}
    (hid : t.objects id = some package) (ho : t.graph package.object = some object) :
    ∃ shown, itemsView s.scene id = some shown ∧ shown.transformation = object.transformation := by
  obtain ⟨drawable, hd, -⟩ := (bookkept_of_kept h.kept).registered id package hid
  rw [← h.shown, displayState_package hid ho hd]
  exact ⟨_, rfl, rfl⟩

theorem Portrays.descends {s : SceneServer} {t : OpenGLScene} (h : Portrays s t) {o : ℕ}
    {ts : List Mat4} (hts : Descends t o ts) {id : String} {package : ObjectMeshPackage}
    (hid : t.objects id = some package) (ho : package.object = o) :
    StoredDescends s.scene id ts := by
  induction hts generalizing id package with
  | @scene o object hgraph hp =>
    subst ho
    obtain ⟨shown, hshown, heq⟩ := h.shown_transformation hid hgraph
    have hb : (books t).packages id = some (handles package) := by simp [books, hid]
    rcases h.linked.known hb with rfl | ⟨parent, hup⟩
    · rw [← heq]
      exact .root hshown
    · obtain ⟨g, above, hg, -, hgup⟩ := h.linked.hangs id parent hup
      rw [hb] at hg
      cases hg
      have hnone : (books t).up package.object = none := by simp [up_books, up, hgraph, hp]
      rw [show (handles package).object = package.object from rfl, hnone] at hgup
      cases hgup
  | @child o p object ts hgraph hp hts ih =>
    subst ho
    obtain ⟨shown, hshown, heq⟩ := h.shown_transformation hid hgraph
    have hb : (books t).packages id = some (handles package) := by simp [books, hid]
    have hup : (books t).up (handles package).object = some p := by
      rw [up_books]
      show up t package.object = some p
      simp [up, hgraph, hp]
    obtain ⟨parent, above, habove, hobject, hstored⟩ := h.linked.follows id _ p hb hup
    obtain ⟨package', hid', rfl⟩ := Option.map_eq_some_iff.mp habove
    rw [← heq]
    exact .item hstored hshown (ih hid' hobject)

/-- What a viewer draws for an item is what the stored items say. -/
theorem Portrays.pictured {s : SceneServer} {t : OpenGLScene} (h : Portrays s t)
    {a : Arithmetic M N} {camera : Camera M} {id : String} {call : DrawCall}
    (hcall : Pictured a camera t id call) : StoredPicture a camera s.scene id call := by
  cases hcall with
  | @intro package drawable ts u hid hd hts hu =>
    obtain ⟨object, ho⟩ :=
      Option.isSome_iff_exists.mp ((bookkept_of_kept h.kept).live id package hid)
    have hshown := displayState_package hid ho hd
    have hmesh : draws t id = some (drawState package) := by simp [draws, hid]
    rw [h.shown] at hshown
    rw [h.drawn] at hmesh
    exact .intro hshown hmesh (h.descends hts hid rfl) hu

/-- The frames of two viewers of one server have the same calls. -/
theorem Portrays.frames_perm {s : SceneServer} {t t' : OpenGLScene} (h : Portrays s t)
    (h' : Portrays s t') {a : Arithmetic M N} {camera : Camera M} {u u' v v' : Uniforms M N}
    {calls calls' : List DrawCall} (hu : u.opacity = one) (hv : v.opacity = one)
    (hr : Renders a camera t u u' calls) (hr' : Renders a camera t' v v' calls') :
    calls.Perm calls' := by
  obtain ⟨ids, hnodup, hmem, hcalls⟩ := renders_items h.kept.wired hu hr
  obtain ⟨ids', hnodup', hmem', hcalls'⟩ := renders_items h'.kept.wired hv hr'
  have hids : ids.Perm ids' := by
    rw [List.perm_ext_iff_of_nodup hnodup hnodup']
    intro id
    rw [hmem, hmem', h.linked.tracks.known, h'.linked.tracks.known]
  exact List.rel_perm_imp (storedPicture_unique h.tree)
    (hcalls.imp fun _ _ => h.pictured) (hcalls'.imp fun _ _ => h'.pictured) hids

def DrawAlike (a : Arithmetic M N) (camera : Camera M) (t t' : OpenGLScene) : Prop :=
  ∀ u v, Left a u → Left a v →
    (∃ u' calls, Renders a camera t u u' calls) ∧
      (∃ v' calls', Renders a camera t' v v' calls') ∧
      ∀ u' calls v' calls', Renders a camera t u u' calls → Renders a camera t' v v' calls' →
        calls.Perm calls'

theorem Portrays.drawAlike {s : SceneServer} {t t' : OpenGLScene} (h : Portrays s t)
    (h' : Portrays s t') (a : Arithmetic M N) (camera : Camera M) : DrawAlike a camera t t' :=
  fun u v hu hv => ⟨renders_exists a camera h.kept u, renders_exists a camera h'.kept v,
    fun _ _ _ _ hr hr' => h.frames_perm h' (left_opacity hu) (left_opacity hv) hr hr'⟩

/-- After every run of followable requests a live viewer and a late viewer
draw frames of the same calls under every camera. -/
theorem viewers_draw_alike (a : Arithmetic M N) (camera : Camera M) (order order' : MapOrder)
    (rs : List SceneUpdateRequest) (h : Along step Followable {} rs) :
    ∃ live late, liveViewer order (run step {} rs) = .done live ∧
      lateViewer order' (run step {} rs) = .done late ∧ DrawAlike a camera live late := by
  obtain ⟨live, hlive, hportrays⟩ := portrays_live order h
  obtain ⟨late, hlate, hportrays'⟩ := portrays_late order' hportrays
  exact ⟨live, late, hlive, hlate, hportrays.drawAlike hportrays' a camera⟩

theorem connected_portrays (order : MapOrder)
    {connections : List (List SceneUpdateRequest × List SceneUpdateRequest)}
    (h : Along step Followable {} (changes connections)) :
    ∃ t, Vis.update order construct (connected step id {} connections) = .done t ∧
      Portrays (run step {} (changes connections)) t := by
  refine connected_simulation order (fun s rs ts => (along_append step Followable s rs ts).mp)
    ?_ ?_ portrays_construct h
  · intro s t missed hportrays hmissed
    obtain ⟨_, -, hthere⟩ := viewer_simulation order (portrays_step order) hportrays hmissed
    exact portrays_reset order hportrays.kept hthere.tree hthere.loadable
  · intro s t followed hportrays hfollowed
    rw [id, id, stream_run, List.drop_left]
    exact viewer_simulation order (portrays_step order) hportrays hfollowed

/-- A viewer may lose its connection and get it back, any number of times, with
its callbacks in any interleaving with its frames. When the callbacks are done
and no input comes it comes to rest, and at rest it draws what a viewer draws
that resets to the stored items now. -/
theorem viewer_catches_up (a : Arithmetic M N) (camera : Camera M) (order order' : MapOrder)
    (connections : List (List SceneUpdateRequest × List SceneUpdateRequest))
    (h : Along step Followable {} (changes connections)) (cs : List FrameLoop.Choice)
    (hidle : ∀ k, (run (FrameLoop.step order) {} cs).threads k = [])
    (hconnected : (FrameLoop.history order {} cs).flatMap Drains.appended =
      connected step id {} connections) :
    (∃ ds, (∀ d ∈ ds, FrameCount.Calm d) ∧
      FrameLoop.Quiet (run (FrameLoop.step order) {} (cs ++ ds))) ∧
      ∀ ds, (∀ d ∈ ds, FrameCount.Calm d) →
        FrameLoop.Quiet (run (FrameLoop.step order) {} (cs ++ ds)) →
        ∃ t late, (run (FrameLoop.step order) {} (cs ++ ds)).client.scene = .done t ∧
          lateViewer order' (run step {} (changes connections)) = .done late ∧
          DrawAlike a camera t late := by
  obtain ⟨t, ht, hcurrent⟩ := connected_portrays order h
  rw [← hconnected] at ht
  obtain ⟨late, hlate, hlast⟩ := portrays_late order' hcurrent
  obtain ⟨hrests, hshown⟩ := FrameCount.shown_at_rest order hidle ht
  exact ⟨hrests, fun ds hcalm hquiet =>
    ⟨t, late, hshown ds hcalm hquiet, hlate, hcurrent.drawAlike hlast a camera⟩⟩

def sent : List SceneUpdateRequest := [.safeSetItem shapedItem]

def resent : List SceneUpdateRequest := [.safeSetItem recolored]

theorem sent_followable : Along step Followable {} (sent ++ resent) := by
  refine ⟨⟨⟨Or.inl rfl, rfl, rfl⟩, ⟨by decide, Or.inl rfl⟩, trivial, trivial⟩,
    ⟨⟨Or.inl rfl, rfl, rfl⟩, ⟨by decide, Or.inl rfl⟩, rfl, ?_⟩, trivial⟩
  intro older newer _ hnewer
  cases hnewer

theorem sent_drawn_alike :
    ∃ live late, liveViewer entryOrder (run step {} (sent ++ resent)) = .done live ∧
      lateViewer entryOrder (run step {} (sent ++ resent)) = .done late ∧
      DrawAlike symbolic ⟨[], []⟩ live late :=
  viewers_draw_alike symbolic ⟨[], []⟩ entryOrder entryOrder (sent ++ resent) sent_followable

def callbacks : List FrameLoop.Choice :=
  [.call 0 (.onStateChange .notConnected (.answered ∅)), .thread 0, .thread 0, .thread 0, .thread 0,
    .call 0 (.processSceneUpdate (.addItem (setDisplayDefaults shapedItem))), .thread 0, .thread 0,
    .thread 0, .call 0 (.onStateChange .notConnected
      (.answered (run step {} (sent ++ resent)).scene)), .thread 0, .thread 0, .thread 0, .thread 0]

theorem callbacks_caught_up :
    (∃ ds, (∀ d ∈ ds, FrameCount.Calm d) ∧
      FrameLoop.Quiet (run (FrameLoop.step entryOrder) {} (callbacks ++ ds))) ∧
      ∀ ds, (∀ d ∈ ds, FrameCount.Calm d) →
        FrameLoop.Quiet (run (FrameLoop.step entryOrder) {} (callbacks ++ ds)) →
        ∃ t late, (run (FrameLoop.step entryOrder) {} (callbacks ++ ds)).client.scene = .done t ∧
          lateViewer entryOrder (run step {} (sent ++ resent)) = .done late ∧
          DrawAlike symbolic ⟨[], []⟩ t late :=
  viewer_catches_up symbolic ⟨[], []⟩ entryOrder entryOrder [([], sent), (resent, [])]
    sent_followable callbacks (fun k => by cases k <;> rfl) rfl

end Pictures

end GVS.ViewerPictures
