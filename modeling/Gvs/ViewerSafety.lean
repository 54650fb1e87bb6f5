import Gvs.Views

/-!
# Requests that bring down a viewer

The server checks neither geometry on append, nor formats, nor transformation
sizes, nor parents, and the viewer raises on each of them. The guard below
names the accepted requests that pass the viewer's checks. An update of the
root can hang it under an item, and a clear then raises in every viewer where
it did. A viewer survives a run exactly when every request of the run passes
and every clear finds its root in place.
-/

set_option autoImplicit false

namespace GVS.ViewerSafety
open GVS.Proto GVS.ItemDefaults GVS.Server GVS.RequestTable GVS.StoredItems GuardedRuns
open GVS.Vis GVS.SceneBooks GVS.Wiring GVS.Display GVS.Resetting GVS.Anchors GVS.Viewers
open GVS.Views

def ParentKnown (scene : SceneItems) (info : SceneItemInfo) : Prop :=
  info.parentValue = "" ∨ info.parentValue ∈ scene

def ViewerSafe (s : SceneServer) (r : SceneUpdateRequest) : Prop :=
  match verdict s.scene r with
  | .reject _ | .clear => True
  | .create info => info.geometryInfo.isSome ∧ Loadable info ∧
      (info.parentValue = info.idValue ∨ ParentKnown s.scene info)
  | .merge _ info | .announce _ info => Loadable info ∧ ParentKnown s.scene info

def Knows (scene : SceneItems) (v : View) : Prop :=
  ∀ id, (v id).isSome = true ↔ id = "" ∨ id ∈ scene

structure Tracks (s : SceneServer) (t : OpenGLScene) : Prop where
  wired : Wired (books t)
  known : ∀ id, (t.objects id).isSome = true ↔ id = "" ∨ id ∈ s.scene

theorem tracks_of_shown {s : SceneServer} {t : OpenGLScene} (ht : Wired (books t))
    (h : ∀ id, displayState t id = itemsView s.scene id) : Tracks s t where
  wired := ht
  known id := by rw [← displayState_isSome ht, h, itemsView_isSome]

theorem construct_shown (id : String) : displayState construct id = itemsView ∅ id := by
  show displayState (Vis.freshRoot (erased {})) id = _
  rw [freshRoot_shown wired_empty]
  rfl

theorem tracks_construct : Tracks {} construct :=
  tracks_of_shown wired_construct construct_shown

theorem Tracks.knows {s : SceneServer} {t : OpenGLScene} (h : Tracks s t) :
    Knows s.scene (displayState t) := by
  intro id
  rw [displayState_isSome h.wired]
  exact h.known id

theorem broadcast_plain (s : SceneServer) (r : SceneUpdateRequest) :
    ∀ u ∈ broadcast s r, Plain u := by
  unfold broadcast
  cases verdict s.scene r with
  | reject errorMsg => simp
  | create info => simp [Plain]
  | merge old info => simp [Plain]
  | announce old info => simp [Plain]
  | clear => simp [Plain]

/-- A request that names no parent for the root leaves the root of a viewer in
its place. -/
theorem broadcast_anchoring {s : SceneServer} {r : SceneUpdateRequest}
    (h : ∀ info, requestInfo r = some info → KeepsRoot info) :
    ∀ u ∈ broadcast s r, Anchoring u := by
  have hj := justified s.scene r
  unfold broadcast
  cases hv : verdict s.scene r with
  | reject errorMsg => simp
  | create info =>
    rw [hv] at hj
    exact List.forall_mem_singleton.mpr (h info hj.1)
  | merge old info =>
    rw [hv] at hj
    exact List.forall_mem_singleton.mpr (h info hj.1)
  | announce old info =>
    rw [hv] at hj
    exact List.forall_mem_singleton.mpr (h info (by rw [hj.1]; rfl))
  | clear => simp [Anchoring]

/-- The broadcasts of a request fit what a viewer knows exactly when the
request passes the viewers' checks. -/
theorem fits_broadcast {s : SceneServer} {v : View} (hk : Knows s.scene v)
    (r : SceneUpdateRequest) :
    Along applyView Fits v (broadcast s r) ↔ ViewerSafe s r := by
  have hj := justified s.scene r
  have hupdate : ∀ old info, s.scene.lookup info.idValue = some old →
      (Fits v (.updateItem info) ↔ Loadable info ∧ ParentKnown s.scene info) := by
    intro old info hl
    have hid : (v info.idValue).isSome := (hk _).mpr (Or.inr (mem_of_lookup hl))
    rw [Fits, and_iff_right hid, hk]
    exact and_comm
  unfold broadcast ViewerSafe
  cases hv : verdict s.scene r with
  | reject errorMsg => exact iff_of_true trivial trivial
  | create info =>
    simp only [Along, and_true, Fits, hk _, loadable_setDisplayDefaults, ParentKnown,
      setDisplayDefaults_geometryInfo, setDisplayDefaults_parentValue, setDisplayDefaults_idValue]
  | merge old info =>
    rw [hv] at hj
    simpa only [Along, and_true] using hupdate old info hj.2.1
  | announce old info =>
    rw [hv] at hj
    simpa only [Along, and_true] using hupdate old info hj.2.1
  | clear => exact iff_of_true ⟨fun id info hl => by simp at hl, trivial⟩ trivial

theorem knows_step {s : SceneServer} {v : View} (hk : Knows s.scene v)
    (r : SceneUpdateRequest) : Knows (step s r).scene (run applyView v (broadcast s r)) := by
  have hj := justified s.scene r
  intro id
  rw [run_known, funext fun id => propext (hk id)]
  unfold broadcast
  rw [step_eq]
  cases hv : verdict s.scene r with
  | reject errorMsg => rfl
  | create info =>
    show id = info.idValue ∨ id = "" ∨ id ∈ s.scene ↔
      id = "" ∨ id ∈ s.scene.insert info.idValue (setDisplayDefaults info)
    rw [Finmap.mem_insert]
    tauto
  | merge old info =>
    rw [hv] at hj
    have hid : id = info.idValue → id ∈ s.scene := fun he => he ▸ mem_of_lookup hj.2.1
    show id = "" ∨ id ∈ s.scene ↔ id = "" ∨ id ∈ s.scene.insert info.idValue (merged old info)
    rw [Finmap.mem_insert]
    tauto
  | announce old info => rfl
  | clear => rfl

/-- A viewer that knows the stored items survives a request exactly when the
request passes its checks and, if it clears the scene, finds the root in place. -/
theorem tracks_returns (order : MapOrder) {s : SceneServer} {t : OpenGLScene} (h : Tracks s t)
    (r : SceneUpdateRequest) :
    (Vis.update order t (broadcast s r)).Returns ↔
      ViewerSafe s r ∧ (r = .clearAll → RootOnTop t) := by
  have hj := justified s.scene r
  have hplain := broadcast_plain s r
  rw [← fits_broadcast h.knows r]
  unfold broadcast at hplain ⊢
  have hother : ∀ u, (∀ items, u ≠ .resetAllItems items) → (IsReset u → RootOnTop t) := by
    rintro u hne ⟨items, he⟩
    exact absurd he (hne items)
  have hkind : ∀ info, requestInfo r = some info → (r = .clearAll → RootOnTop t) := by
    rintro info hr rfl
    cases hr
  cases hv : verdict s.scene r with
  | reject errorMsg =>
    refine iff_of_true rfl ⟨trivial, ?_⟩
    rintro rfl
    cases hv
  | create info =>
    rw [hv] at hj hplain
    rw [update_singleton, applyUpdate_returns order h.wired (hplain _ (by simp)), Along,
      and_iff_left (hother _ (by simp)), and_iff_left (hkind info hj.1), Along, and_true]
  | merge old info =>
    rw [hv] at hj hplain
    rw [update_singleton, applyUpdate_returns order h.wired (hplain _ (by simp)), Along,
      and_iff_left (hother _ (by simp)), and_iff_left (hkind info hj.1), Along, and_true]
  | announce old info =>
    rw [hv] at hj hplain
    rw [update_singleton, applyUpdate_returns order h.wired (hplain _ (by simp)), Along,
      and_iff_left (hother _ (by simp)), and_iff_left (hkind info (by rw [hj.1]; rfl)), Along,
      and_true]
  | clear =>
    rw [hv] at hj hplain
    obtain rfl : r = .clearAll := hj
    rw [update_singleton, applyUpdate_returns order h.wired (hplain _ (by simp)), Along, Along,
      and_true]
    exact and_congr_right fun _ => ⟨fun htop _ => htop ⟨∅, rfl⟩, fun htop _ => htop rfl⟩

theorem tracks_step (order : MapOrder) {s : SceneServer} {t t' : OpenGLScene} (h : Tracks s t)
    {r : SceneUpdateRequest} (hd : Vis.update order t (broadcast s r) = .done t') :
    Tracks (step s r) t' := by
  obtain ⟨hw, hv⟩ := update_done order h.wired (broadcast_plain s r) hd
  refine ⟨hw, fun id => ?_⟩
  rw [← displayState_isSome hw, hv]
  exact knows_step h.knows r id

def ClearsOnTop (order : MapOrder) (s : SceneServer) (t : OpenGLScene)
    (rs : List SceneUpdateRequest) : Prop :=
  ∀ pre post t', rs = pre ++ .clearAll :: post →
    Vis.update order t (broadcasts s pre) = .done t' → RootOnTop t'

theorem clearsOnTop_cons {order : MapOrder} {s : SceneServer} {t : OpenGLScene}
    {r : SceneUpdateRequest} {rs : List SceneUpdateRequest} :
    ClearsOnTop order s t (r :: rs) ↔ (r = .clearAll → RootOnTop t) ∧
      ∀ t₁, Vis.update order t (broadcast s r) = .done t₁ →
        ClearsOnTop order (step s r) t₁ rs := by
  constructor
  · intro h
    refine ⟨fun hr => h [] rs t (by rw [hr]; rfl) rfl, fun t₁ h₁ pre post t' he hd => ?_⟩
    refine h (r :: pre) post t' (by rw [he]; rfl) ?_
    rw [broadcasts, update_append, h₁]
    exact hd
  · rintro ⟨hr, hrest⟩ pre post t' he hd
    cases pre with
    | nil =>
      cases hd
      exact hr (List.cons.inj he).1
    | cons r' pre =>
      obtain ⟨rfl, he'⟩ := List.cons.inj he
      rw [broadcasts, update_append] at hd
      obtain ⟨t₁, h₁, hd'⟩ := Outcome.andThen_eq_done.mp hd
      exact hrest t₁ h₁ pre post t' he' hd'

theorem replay_returns (order : MapOrder) (rs : List SceneUpdateRequest) {s : SceneServer}
    {t : OpenGLScene} (h : Tracks s t) :
    (Vis.update order t (broadcasts s rs)).Returns ↔
      Along step ViewerSafe s rs ∧ ClearsOnTop order s t rs := by
  induction rs generalizing s t with
  | nil => exact iff_of_true rfl ⟨trivial, fun pre post t' he => by simp at he⟩
  | cons r rs ih =>
    rw [broadcasts, update_append, Outcome.returns_andThen, Along, clearsOnTop_cons]
    constructor
    · rintro ⟨t₁, h₁, hrest⟩
      obtain ⟨hsafe, htop⟩ := (tracks_returns order h r).mp (h₁ ▸ rfl)
      obtain ⟨hsafes, htops⟩ := (ih (tracks_step order h h₁)).mp hrest
      refine ⟨⟨hsafe, hsafes⟩, htop, fun t₂ h₂ => ?_⟩
      rw [h₁] at h₂
      cases h₂
      exact htops
    · rintro ⟨⟨hsafe, hsafes⟩, htop, htops⟩
      obtain ⟨t₁, h₁⟩ := (Outcome.returns_iff _).mp ((tracks_returns order h r).mpr ⟨hsafe, htop⟩)
      exact ⟨t₁, h₁, (ih (tracks_step order h h₁)).mpr ⟨hsafes, htops t₁ h₁⟩⟩

@[simp] theorem merged_parentValue (old info : SceneItemInfo) :
    (merged old info).parentValue = old.parentValue := by
  simp [merged, SceneItemInfo.parentValue]

theorem loadableItems_step (s : SceneServer) (r : SceneUpdateRequest)
    (h : LoadableItems s.scene) (hg : ViewerSafe s r) : LoadableItems (step s r).scene := by
  have hj := justified s.scene r
  have hgrow : ∀ k new, LoadableItems (s.scene.insert k new) ↔
      ∀ id info, (s.scene.insert k new).lookup id = some info → info.idValue = id ∧
        Loadable info ∧ (info.parentValue = k ∨ ParentKnown s.scene info) := by
    intro k new
    have hk : ∀ info : SceneItemInfo,
        (info.parentValue = "" ∨ info.parentValue ∈ s.scene.insert k new) ↔
          (info.parentValue = k ∨ ParentKnown s.scene info) := by
      intro info
      rw [Finmap.mem_insert, ParentKnown]
      tauto
    simp only [LoadableItems, hk]
  have hold : ∀ k id info, s.scene.lookup id = some info →
      info.idValue = id ∧ Loadable info ∧ (info.parentValue = k ∨ ParentKnown s.scene info) := by
    intro k id info hl
    obtain ⟨h1, h2, h3⟩ := h id info hl
    exact ⟨h1, h2, Or.inr h3⟩
  unfold ViewerSafe at hg
  rw [step_eq]
  cases hv : verdict s.scene r with
  | reject errorMsg => exact h
  | create info =>
    rw [hv] at hg
    exact (hgrow _ _).mpr (eachItem_insert (hold info.idValue)
      ⟨rfl, (loadable_setDisplayDefaults info).mpr hg.2.1, hg.2.2⟩)
  | merge old info =>
    rw [hv] at hj hg
    obtain ⟨h1, h2, h3⟩ := h _ _ hj.2.1
    exact (hgrow _ _).mpr (eachItem_insert (hold info.idValue)
      ⟨by simpa using h1, loadable_merged h2 hg.1, Or.inr (by simpa [ParentKnown] using h3)⟩)
  | announce old info => exact h
  | clear =>
    intro id info hl
    simp [perform, write] at hl

theorem loadableItems_run {rs : List SceneUpdateRequest} (h : Along step ViewerSafe {} rs) :
    LoadableItems (run step {} rs).scene :=
  run_invariant_along step (fun s => LoadableItems s.scene) loadableItems_step
    (fun id info hl => by simp at hl) h

/-- The viewer that resets to the scene at one point and then replays what is
broadcast up to a later one. -/
def joiningViewer (order : MapOrder) (s s' : SceneServer) : Outcome Failure OpenGLScene :=
  (lateViewer order s).andThen fun t =>
    Vis.update order t (s'.sceneStream.drop s.sceneStream.length)

theorem later_broadcasts (pre post : List SceneUpdateRequest) :
    (run step {} (pre ++ post)).sceneStream.drop (run step {} pre).sceneStream.length =
      broadcasts (run step {} pre) post := by
  rw [run_append, stream_run (run step {} pre) post, List.drop_left]

def Watches (order : MapOrder) (rs : List SceneUpdateRequest) (t : OpenGLScene) : Prop :=
  liveViewer order (run step {} rs) = .done t ∨ ∃ pre post, rs = pre ++ post ∧
    joiningViewer order (run step {} pre) (run step {} rs) = .done t

theorem joiningViewer_replays (order : MapOrder) {pre : List SceneUpdateRequest}
    (hl : LoadableItems (run step {} pre).scene) :
    ∃ late, Tracks (run step {} pre) late ∧ ∀ post,
      joiningViewer order (run step {} pre) (run step {} (pre ++ post)) =
        Vis.update order late (broadcasts (run step {} pre) post) := by
  obtain ⟨late, hlate, hw, hshow⟩ := reset_shown order wired_construct rootOnTop_construct hl
  refine ⟨late, tracks_of_shown hw hshow, fun post => ?_⟩
  rw [joiningViewer, lateViewer, hlate, Outcome.done_andThen, later_broadcasts]

/-- No viewer raises, whenever it joins, exactly when every request of the
run passes the viewers' checks and every clear finds the roots in place. -/
theorem viewers_survive (order : MapOrder) (rs : List SceneUpdateRequest) :
    ((liveViewer order (run step {} rs)).Returns ∧
      ∀ pre post, rs = pre ++ post →
        (joiningViewer order (run step {} pre) (run step {} rs)).Returns) ↔
      Along step ViewerSafe {} rs ∧ ∀ before after, rs = before ++ .clearAll :: after →
        ∀ t, Watches order before t → RootOnTop t := by
  rw [liveViewer_run, replay_returns order rs tracks_construct]
  constructor
  · rintro ⟨⟨hsafe, hlive⟩, hjoining⟩
    refine ⟨hsafe, fun before after he t ht => ?_⟩
    rcases ht with ht | ⟨pre, post, rfl, ht⟩
    · rw [liveViewer_run] at ht
      exact hlive before after t he ht
    · rw [List.append_assoc] at he
      subst he
      have hsafe' := ((along_append _ _ _ _ _).mp hsafe).1
      obtain ⟨late, htracks, hreplay⟩ := joiningViewer_replays order (loadableItems_run hsafe')
      have hret := hjoining pre _ rfl
      rw [hreplay, replay_returns order _ htracks] at hret
      rw [hreplay] at ht
      exact hret.2 post after t rfl ht
  · rintro ⟨hsafe, htop⟩
    refine ⟨⟨hsafe, fun before after t he hd => ?_⟩, fun pre post he => ?_⟩
    · exact htop before after he t (Or.inl (by rw [liveViewer_run, hd]))
    · subst he
      obtain ⟨hsafe, hsafe'⟩ := (along_append _ _ _ _ _).mp hsafe
      obtain ⟨late, htracks, hreplay⟩ := joiningViewer_replays order (loadableItems_run hsafe)
      rw [hreplay, replay_returns order _ htracks]
      refine ⟨hsafe', fun before after t he hd => ?_⟩
      refine htop (pre ++ before) after (by rw [he, List.append_assoc]) t
        (Or.inr ⟨pre, before, rfl, ?_⟩)
      rw [hreplay, hd]

def under (id parent : String) : SceneItemInfo where
  id := some ⟨id⟩
  geometryInfo := some { positions := some [one, one, one] }
  parent := some ⟨parent⟩

-- An item under itself hangs below nothing, so the root can go under it.
example (order : MapOrder) : ∃ t, liveViewer order (run step {}
    [.safeSetItem (under "item" "item"), .safeSetItem (under "" "item"), .clearAll]) =
      .raised (.assertion "item->_list == this") t := ⟨_, rfl⟩

def shapeless : SceneItemInfo where
  id := some ⟨"item"⟩

/-- The server accepts an append without geometry for a fresh id and
broadcasts an `add_item` on which the viewer aborts. -/
theorem shapeless_append_aborts :
    (requestUpdateScene {} (.appendToItem shapeless)).2.errorMsg = "" ∧
      ¬ ∀ order, (liveViewer order (run step {} [.appendToItem shapeless])).Returns := by
  refine ⟨by decide, fun h => ?_⟩
  have hr := h entryOrder
  rw [liveViewer_run, replay_returns _ _ tracks_construct] at hr
  exact absurd hr.1.1.1 (by decide)

end GVS.ViewerSafety
