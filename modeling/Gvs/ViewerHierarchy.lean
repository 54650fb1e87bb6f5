import Gvs.Links
import Gvs.ViewerAppearance

/-!
# Live and late viewers hang items alike

A live viewer hangs an item under the parent of each update, the server keeps
the parent of the creating request. The stored items always form a tree under
the root, so a late viewer hangs them as stored; a live viewer does so as long
as every update names the stored parent again. An update without a parent
moves its item to the root.
-/

set_option autoImplicit false

namespace GVS.ViewerHierarchy
open GVS.Proto GVS.ItemDefaults GVS.Server GVS.RequestTable GVS.StoredItems GuardedRuns
open GVS.Vis GVS.SceneBooks GVS.Wiring GVS.Display GVS.Resetting GVS.Links GVS.Anchors
open GVS.Viewers GVS.ViewerSafety GVS.ViewerAppearance ParentForest Relation

def storedUp (items : SceneItems) (id : String) : Option String :=
  (items.lookup id).map (·.parentValue)

def ParentPlaced (items : SceneItems) (info : SceneItemInfo) : Prop :=
  info.parentValue = "" ∨
    (info.parentValue ∈ items ∧ ¬ Below (storedUp items) info.parentValue info.idValue)

def WellPlaced (s : SceneServer) : SceneUpdateRequest → Prop
  | .safeSetItem info | .replaceItem info => info.idValue ≠ "" ∧ ParentPlaced s.scene info
  | .clearAll => True
  | .appendToItem _ | .updateItem _ | .removeItem _ | .updateNotSet => False

def KeepsParent (s : SceneServer) (r : SceneUpdateRequest) : Prop :=
  match verdict s.scene r with
  | .merge old info => info.parentValue = old.parentValue
  | .reject _ | .create _ | .announce _ _ | .clear => True

theorem wellPlaced_info {s : SceneServer} {r : SceneUpdateRequest} (h : WellPlaced s r)
    {info : SceneItemInfo} (hr : requestInfo r = some info) :
    info.idValue ≠ "" ∧ ParentPlaced s.scene info ∧ r ≠ .appendToItem info := by
  cases r with
  | safeSetItem given =>
    cases hr
    exact ⟨h.1, h.2, by simp⟩
  | replaceItem given =>
    cases hr
    exact ⟨h.1, h.2, by simp⟩
  | clearAll => cases hr
  | appendToItem given => exact h.elim
  | updateItem given => exact h.elim
  | removeItem given => exact h.elim
  | updateNotSet => exact h.elim

structure StoredTree (items : SceneItems) : Prop where
  nonempty : "" ∉ items
  filed : ∀ id info, items.lookup id = some info →
    info.idValue = id ∧ (info.parentValue = "" ∨ info.parentValue ∈ items)
  acyclic : Acyclic (storedUp items)

theorem storedUp_root {items : SceneItems} (h : StoredTree items) : storedUp items "" = none := by
  simp [storedUp, Finmap.lookup_eq_none.mpr h.nonempty]

theorem StoredTree.declares {items : SceneItems} (h : StoredTree items) {id parent : String} :
    Declares items id parent ↔ storedUp items id = some parent := by
  unfold Declares storedUp
  rw [Option.map_eq_some_iff]
  constructor
  · rintro ⟨key, info, hl, rfl, hp⟩
    rw [← (h.filed key info hl).1] at hl
    exact ⟨info, hl, hp⟩
  · rintro ⟨info, hl, hp⟩
    exact ⟨id, info, hl, (h.filed id info hl).1, hp⟩

theorem StoredTree.declaresTree {items : SceneItems} (h : StoredTree items) :
    DeclaresTree items where
  nonempty := h.nonempty
  covered key hk := by
    obtain ⟨info, hl⟩ := (mem_iff_lookup items key).mp hk
    exact ⟨key, info, hl, (h.filed key info hl).1⟩
  parents key info hl := (h.filed key info hl).2
  acyclic id hid := acyclic_irrefl h.acyclic id (TransGen.mono (fun _ _ => h.declares.mp) _ _ hid)

theorem not_below_placed {items : SceneItems} (h : StoredTree items) {info : SceneItemInfo}
    (hid : info.idValue ≠ "") (hp : ParentPlaced items info) :
    ¬ Below (storedUp items) info.parentValue info.idValue := by
  rcases hp with hp | hp
  · intro hb
    rw [hp] at hb
    exact hid (below_of_top (storedUp_root h) hb).symm
  · exact hp.2

theorem storedUp_insert (items : SceneItems) (id : String) (info : SceneItemInfo) :
    storedUp (items.insert id info) = attach (storedUp items) id info.parentValue := by
  ext k : 1
  unfold storedUp
  rw [lookup_insert_ite]
  by_cases hk : k = id
  · rw [hk, attach_self]
    simp
  · rw [attach_of_ne _ _ _ hk, if_neg hk]

theorem storedTree_empty : StoredTree ∅ where
  nonempty := Finmap.notMem_empty
  filed id info h := by simp at h
  acyclic a b h := by simp [storedUp] at h

theorem storedTree_step (s : SceneServer) (r : SceneUpdateRequest) (h : StoredTree s.scene)
    (hg : WellPlaced s r) : StoredTree (step s r).scene := by
  have hj := justified s.scene r
  have hgrow : ∀ k info, (info.parentValue = "" ∨ info.parentValue ∈ s.scene) →
      info.idValue = k → ∀ id new, (s.scene.insert k info).lookup id = some new →
        new.idValue = id ∧ (new.parentValue = "" ∨ new.parentValue ∈ s.scene.insert k info) := by
    intro k info hp hk id new hl
    simp only [Finmap.mem_insert]
    rw [lookup_insert_ite] at hl
    split at hl
    · cases hl
      subst id
      exact ⟨hk, hp.imp_right Or.inr⟩
    · obtain ⟨h1, h2⟩ := h.filed id new hl
      exact ⟨h1, h2.imp_right Or.inr⟩
  rw [step_eq]
  cases hv : verdict s.scene r with
  | reject errorMsg => exact h
  | create info =>
    rw [hv] at hj
    obtain ⟨hid, hp, -⟩ := wellPlaced_info hg hj.1
    refine ⟨?_, hgrow info.idValue (setDisplayDefaults info) (hp.imp_right And.left) rfl, ?_⟩
    · exact fun hm => (Finmap.mem_insert.mp hm).elim (fun he => hid he.symm) h.nonempty
    · show Acyclic (storedUp (s.scene.insert info.idValue (setDisplayDefaults info)))
      rw [storedUp_insert]
      exact acyclic_attach h.acyclic (not_below_placed h hid hp)
  | merge old info =>
    rw [hv] at hj
    obtain ⟨hid, -, -⟩ := wellPlaced_info hg hj.1
    obtain ⟨h1, h2⟩ := h.filed _ _ hj.2.1
    refine ⟨?_, hgrow info.idValue (merged old info) (by simpa using h2) (by simpa using h1), ?_⟩
    · exact fun hm => (Finmap.mem_insert.mp hm).elim (fun he => hid he.symm) h.nonempty
    · have hsame : attach (storedUp s.scene) info.idValue (merged old info).parentValue =
          storedUp s.scene := by
        have hu : storedUp s.scene info.idValue = some old.parentValue := by
          simp [storedUp, hj.2.1]
        rw [attach, merged_parentValue, ← hu, Function.update_eq_self]
      show Acyclic (storedUp (s.scene.insert info.idValue (merged old info)))
      rw [storedUp_insert, hsame]
      exact h.acyclic
  | announce old info =>
    rw [hv] at hj
    obtain ⟨-, -, hne⟩ := wellPlaced_info hg (by rw [hj.1]; rfl)
    exact absurd hj.1 hne
  | clear => exact storedTree_empty

structure Linked (s : SceneServer) (t : OpenGLScene) : Prop where
  tracks : Tracks s t
  top : ∀ h, (books t).packages "" = some h → (books t).up h.object = none
  hangs : ∀ id parent, storedUp s.scene id = some parent → Hangs (books t) id parent

theorem Linked.known {s : SceneServer} {t : OpenGLScene} (h : Linked s t) {id : String}
    {g : Handles} (hid : (books t).packages id = some g) :
    id = "" ∨ ∃ parent, storedUp s.scene id = some parent := by
  have hk := (h.tracks.known id).mp (by rw [← books_known, hid]; rfl)
  apply hk.imp_right
  intro hm
  obtain ⟨info, hl⟩ := (mem_iff_lookup s.scene id).mp hm
  exact ⟨info.parentValue, by simp [storedUp, hl]⟩

theorem Linked.follows {s : SceneServer} {t : OpenGLScene} (h : Linked s t) :
    Follows (books t) (fun a b => storedUp s.scene a = some b) := by
  intro id g p hid hp
  rcases h.known hid with rfl | ⟨parent, hu⟩
  · rw [h.top g hid] at hp
    cases hp
  · obtain ⟨g', above, hg', ha, hup⟩ := h.hangs id parent hu
    rw [hid] at hg'
    cases hg'
    exact ⟨parent, above, ha, Option.some.inj (hup.symm.trans hp), hu⟩

theorem Linked.hangsUnder {s : SceneServer} {t : OpenGLScene} (h : Linked s t)
    (id parent : String) : HangsUnder t id parent ↔ storedUp s.scene id = some parent := by
  rw [hangsUnder_iff]
  refine ⟨fun hh => ?_, h.hangs id parent⟩
  obtain ⟨g, above, hid, -, hu⟩ := (show Hangs (books t) id parent from hh)
  rcases h.known hid with rfl | ⟨parent', hs⟩
  · rw [h.top g hid] at hu
    cases hu
  · rw [hs, hangs_unique h.tracks.wired (h.hangs id parent' hs) hh]

theorem hangs_kept {b b' : Books} {id parent : String} (h : Hangs b id parent) {o p : ℕ}
    (hpk : ∀ k g, b.packages k = some g → b'.packages k = some g)
    (hu : b'.up = attach b.up o p) (hne : ∀ g, b.packages id = some g → g.object ≠ o) :
    Hangs b' id parent := by
  obtain ⟨g, above, hid, ha, hup⟩ := h
  exact ⟨g, above, hpk id g hid, hpk parent above ha, by
    rw [hu, attach_of_ne _ _ _ (hne g hid), hup]⟩

theorem updateItem_hangs {s : SceneServer} {t t' : OpenGLScene} (h : Linked s t)
    (hs : StoredTree s.scene) {info : SceneItemInfo} (hid : info.idValue ≠ "")
    (hp : ParentPlaced s.scene info) (hd : Vis.updateItem t info = .done t') :
    (books t').packages = (books t).packages ∧ Hangs (books t') info.idValue info.parentValue ∧
      (∀ id parent, id ≠ info.idValue → Hangs (books t) id parent → Hangs (books t') id parent) ∧
      ∀ g, (books t).packages "" = some g → (books t').up g.object = none := by
  have hw := h.tracks.wired
  obtain ⟨own, above, hown, habove, hb⟩ := updateItem_moved hw hd
  have hn : ¬ Below (books t).up above.object own.object := by
    intro hbelow
    obtain ⟨top, g, ht, hg, hR⟩ := below_packages h.follows habove hbelow
    obtain rfl := hw.object_inj top _ g own ht hown hg
    exact not_below_placed hs hid hp hR
  have hu := setParent_moves hw (hw.object_live _ own hown) hn
  have hpk := (sameParts_setParent (books t) own.object above.object).packages
  rw [← hb] at hu hpk
  refine ⟨hpk, ⟨own, above, by rw [hpk, hown], by rw [hpk, habove], by rw [hu, attach_self]⟩,
    fun id parent hne hh => ?_, fun g hg => ?_⟩
  · exact hangs_kept hh (fun k g hk => by rw [hpk, hk]) hu
      fun g hg he => hne (hw.object_inj id _ g own hg hown he)
  · have hne : g.object ≠ own.object := fun he => hid (hw.object_inj "" _ g own hg hown he).symm
    rw [hu, attach_of_ne _ _ _ hne, h.top g hg]

theorem addItem_hangs {s : SceneServer} {t t' : OpenGLScene} (h : Linked s t)
    (info : SceneItemInfo) (hfresh : s.scene.lookup info.idValue = none) (hid : info.idValue ≠ "")
    (hp : (t.objects info.parentValue).isSome) (hd : addItem t info = .done t') :
    Hangs (books t') info.idValue info.parentValue ∧
      (∀ id parent, Hangs (books t) id parent → Hangs (books t') id parent) ∧
      ∀ g, (books t').packages "" = some g → (books t').up g.object = none := by
  have hw := h.tracks.wired
  have hnone : (books t).packages info.idValue = none := by
    rw [← Option.not_isSome_iff_eq_none, books_known, h.tracks.known]
    exact fun hk => hk.elim hid fun hm => Finmap.lookup_eq_none.mp hfresh hm
  rw [← books_known] at hp
  obtain ⟨above, habove⟩ := Option.isSome_iff_exists.mp hp
  have hb := addItem_moved hw hd
  obtain ⟨hnew, hparts, hu⟩ := addItem_moves hw hnone habove
  rw [← hb] at hu hparts
  have hpk : ∀ k g, (books t).packages k = some g → (books t').packages k = some g := by
    intro k g hk
    have hne : k ≠ info.idValue := fun he => by simp [he, hnone] at hk
    rw [hparts.packages, packages_emplace, if_neg (fun he => hne he.1), hk]
  have hold : ∀ k g, (books t).packages k = some g → g.object ≠ (books t).next := by
    intro k g hk he
    exact Nat.lt_irrefl _ (he ▸ hw.node_lt _ (hw.object_live k g hk))
  refine ⟨⟨_, above, by rw [hparts.packages, hnew], hpk _ _ habove, by rw [hu, attach_self]⟩,
    fun id parent hh => hangs_kept hh hpk hu (hold id), fun g hg => ?_⟩
  have hg' : (books t).packages "" = some g := by
    rw [hparts.packages, packages_emplace, if_neg (fun he => hid he.1.symm)] at hg
    exact hg
  rw [hu, attach_of_ne _ _ _ (hold _ g hg'), h.top g hg']

theorem storedUp_create {items : SceneItems} {info new : SceneItemInfo} {id parent : String}
    (h : storedUp (items.insert info.idValue new) id = some parent) :
    id = info.idValue ∧ parent = new.parentValue ∨
      id ≠ info.idValue ∧ storedUp items id = some parent := by
  rw [storedUp_insert] at h
  by_cases hid : id = info.idValue
  · rw [hid, attach_self] at h
    exact Or.inl ⟨hid, (Option.some.inj h).symm⟩
  · rw [attach_of_ne _ _ _ hid] at h
    exact Or.inr ⟨hid, h⟩

/-- A well placed request that keeps parents keeps the viewer linked. -/
theorem linked_step (order : MapOrder) {s : SceneServer} {t t' : OpenGLScene} (h : Linked s t)
    (hs : StoredTree s.scene) {r : SceneUpdateRequest} (hg : WellPlaced s r)
    (hk : KeepsParent s r) (hd : Vis.update order t (broadcast s r) = .done t') :
    Linked (step s r) t' := by
  have htracks := tracks_step order h.tracks hd
  have hj := justified s.scene r
  unfold KeepsParent at hk
  unfold broadcast at hd
  suffices hlinks : (∀ g, (books t').packages "" = some g → (books t').up g.object = none) ∧
      ∀ id parent, storedUp (step s r).scene id = some parent → Hangs (books t') id parent from
    ⟨htracks, hlinks.1, hlinks.2⟩
  rw [step_eq]
  cases hv : verdict s.scene r with
  | reject errorMsg =>
    rw [hv] at hd
    cases hd
    exact ⟨h.top, h.hangs⟩
  | create info =>
    rw [hv] at hd hj
    obtain ⟨hid, hp, -⟩ := wellPlaced_info hg hj.1
    simp only [update_singleton, applyUpdate] at hd
    have hparent : (t.objects info.parentValue).isSome :=
      (h.tracks.known _).mpr (hp.imp_right And.left)
    obtain ⟨hnew, hold, htop⟩ := addItem_hangs h (setDisplayDefaults info) hj.2.1 hid
      hparent hd
    refine ⟨htop, fun id parent hu => ?_⟩
    rcases storedUp_create hu with ⟨rfl, rfl⟩ | ⟨-, hu⟩
    · exact hnew
    · exact hold id parent (h.hangs id parent hu)
  | merge old info =>
    rw [hv] at hd hj hk
    obtain ⟨hid, hp, -⟩ := wellPlaced_info hg hj.1
    simp only [update_singleton, applyUpdate] at hd
    obtain ⟨hpk, hnew, hold, htop⟩ := updateItem_hangs h hs hid hp hd
    refine ⟨fun g h0 => htop g (by rw [← hpk, h0]), fun id parent hu => ?_⟩
    rcases storedUp_create hu with ⟨rfl, rfl⟩ | ⟨hne, hu⟩
    · rw [merged_parentValue, ← hk]
      exact hnew
    · exact hold id parent hne (h.hangs id parent hu)
  | announce old info =>
    rw [hv] at hj
    obtain ⟨-, -, hne⟩ := wellPlaced_info hg (by rw [hj.1]; rfl)
    exact absurd hj.1 hne
  | clear =>
    rw [hv] at hd
    simp only [update_singleton, applyUpdate] at hd
    rw [reset_empty order (rootOnTop_of_reset hd), Outcome.done.injEq] at hd
    rw [← hd]
    refine ⟨loose_freshRoot h.tracks.wired "", fun id parent hu => ?_⟩
    simp [perform, write, storedUp] at hu

theorem linked_late {order : MapOrder} {s : SceneServer} {late : OpenGLScene}
    (hs : StoredTree s.scene) (h : lateViewer order s = .done late) : Linked s late := by
  have hsecond := order.second_iterates s.scene
  have hload : LoadableItems s.scene :=
    (reset_returns order wired_construct rootOnTop_construct
      fun key info hl => (hs.filed key info hl).1).mp ((Outcome.returns_iff _).mpr ⟨late, h⟩)
  have hv : ∀ key info, s.scene.lookup key = some info → validFormat info = true :=
    fun key info hl => (hload key info hl).2.1.1
  have hperm := ids_perm hs.declaresTree hsecond
  rw [lateViewer] at h
  rcases reset_links order wired_construct hs.declaresTree hv with ⟨t, ht, hl⟩ | ⟨_, _, ha⟩
  · rw [h] at ht
    cases ht
    refine ⟨⟨hl.wired, fun id => ?_⟩, fun g h0 => ?_, fun id parent hu => ?_⟩
    · rw [← books_known, hl.parts.packages, books_known, opened_known order wired_construct]
    · have hroot : "" ∉ ((order.second s.scene).map Prod.snd).map (·.idValue) := fun hm =>
        hs.nonempty ((mem_keys_iff hsecond _).mp (hperm.mem_iff.mpr hm))
      rw [hl.parts.packages] at h0
      rw [hl.other "" g h0 hroot]
      exact loose_emplaceAll _ (wired_freshRoot_scene wired_construct)
        (loose_freshRoot wired_construct) "" g h0
    · obtain ⟨info, hlk, rfl⟩ := Option.map_eq_some_iff.mp hu
      have hd := hl.declared info
        (List.mem_map.mpr ⟨(id, info), (hsecond.mem_iff id info).mpr hlk, rfl⟩)
      rwa [(hs.filed id info hlk).1] at hd
  · rw [h] at ha
    cases ha

def SameHierarchy (order order' : MapOrder) (s : SceneServer) : Prop :=
  ∀ live late, liveViewer order s = .done live → lateViewer order' s = .done late →
    ∀ id parent, HangsUnder live id parent ↔ HangsUnder late id parent

def BothReturn (order order' : MapOrder) (s : SceneServer) : Prop :=
  (liveViewer order s).Returns ∧ (lateViewer order' s).Returns

theorem sameHierarchy_of_linked {order order' : MapOrder} {s : SceneServer}
    (hs : StoredTree s.scene) (h : ∀ live, liveViewer order s = .done live → Linked s live) :
    SameHierarchy order order' s := by
  intro live late hlive hlate id parent
  rw [(h live hlive).hangsUnder, (linked_late hs hlate).hangsUnder]

def Followed (order : MapOrder) (s : SceneServer) : Prop :=
  StoredTree s.scene ∧ ∀ live, liveViewer order s = .done live → Linked s live

theorem linked_construct : Linked {} construct :=
  ⟨tracks_construct, loose_freshRoot wired_empty "", fun id parent h => by simp [storedUp] at h⟩

theorem followed_empty (order : MapOrder) : Followed order {} := by
  refine ⟨storedTree_empty, fun live h => ?_⟩
  cases h
  exact linked_construct

theorem followed_step (order : MapOrder) (s : SceneServer) (r : SceneUpdateRequest)
    (h : Followed order s) (hg : WellPlaced s r ∧ KeepsParent s r) :
    Followed order (step s r) := by
  refine ⟨storedTree_step s r h.1 hg.1, fun live' hlive' => ?_⟩
  rw [liveViewer_step] at hlive'
  obtain ⟨live, hlive, hd⟩ := Outcome.andThen_eq_done.mp hlive'
  exact linked_step order (h.2 live hlive) h.1 hg.1 hg.2 hd

def Returning (order : MapOrder) (s : SceneServer) : Prop :=
  LoadableItems s.scene ∧ ∃ live, liveViewer order s = .done live ∧ Tracks s live ∧
    Anchored (books live)

theorem returning_empty (order : MapOrder) : Returning order {} :=
  ⟨fun id info h => by simp at h, construct, rfl, tracks_construct, anchored_construct⟩

theorem returning_step (order : MapOrder) (s : SceneServer) (r : SceneUpdateRequest)
    (h : Returning order s) (hp : WellPlaced s r) (hg : ViewerSafe s r) :
    Returning order (step s r) := by
  obtain ⟨hl, live, hlive, htracks, ha⟩ := h
  obtain ⟨live', hd⟩ := (Outcome.returns_iff _).mp
    ((tracks_returns order htracks r).mpr ⟨hg, fun _ => rootOnTop_of_anchored ha⟩)
  have hkeeps : ∀ info, requestInfo r = some info → KeepsRoot info :=
    fun info hr hid => absurd hid (wellPlaced_info hp hr).1
  refine ⟨loadableItems_step s r hl hg, live', ?_, tracks_step order htracks hd,
    anchored_update order _ htracks.wired ha (broadcast_anchoring hkeeps) hd⟩
  rw [liveViewer_step, hlive]
  exact hd

theorem bothReturn_of_returning {order : MapOrder} (order' : MapOrder) {s : SceneServer}
    (h : Returning order s) : BothReturn order order' s := by
  obtain ⟨hl, live, hlive, -⟩ := h
  obtain ⟨late, hlate, -⟩ := reset_shown order' wired_construct rootOnTop_construct hl
  exact ⟨(Outcome.returns_iff _).mpr ⟨live, hlive⟩, (Outcome.returns_iff _).mpr ⟨late, hlate⟩⟩

/-- A viewer that is still up after a request was sent one that passes. -/
theorem viewerSafe_of_returns {order : MapOrder} {s : SceneServer} {r : SceneUpdateRequest}
    (h : Returning order s) (hr : (liveViewer order (step s r)).Returns) : ViewerSafe s r := by
  obtain ⟨-, live, hlive, htracks, -⟩ := h
  rw [liveViewer_step, hlive, Outcome.done_andThen] at hr
  exact ((tracks_returns order htracks r).mp hr).1

theorem bothReturn_iff (order order' : MapOrder) {rs : List SceneUpdateRequest}
    (h : Along step WellPlaced {} rs) :
    Everywhere step (BothReturn order order') {} rs ↔ Along step ViewerSafe {} rs :=
  everywhere_iff_along_within step (Returning order)
    (fun _ hi => bothReturn_of_returning order' hi)
    (fun s r hi hp hsafe => returning_step order s r hi hp hsafe)
    (fun _ _ hi _ hb => viewerSafe_of_returns hi hb.1) (returning_empty order) h

/-- Viewers that still agree after a request were told the stored parent. -/
theorem keepsParent_of_agree {order order' : MapOrder} {s : SceneServer} {r : SceneUpdateRequest}
    (hf : Followed order s) (hr : Returning order s) (hp : WellPlaced s r)
    (hsafe : ViewerSafe s r) (h : SameHierarchy order order' (step s r)) : KeepsParent s r := by
  have hret := returning_step order s r hr hp hsafe
  obtain ⟨live', hlive'⟩ := (Outcome.returns_iff _).mp (bothReturn_of_returning order' hret).1
  obtain ⟨late, hlate⟩ := (Outcome.returns_iff _).mp (bothReturn_of_returning order' hret).2
  have hstored := (linked_late (storedTree_step s r hf.1 hp) hlate).hangsUnder
  have hagree := h live' late hlive' hlate
  rw [liveViewer_step] at hlive'
  obtain ⟨live, hlive, hd⟩ := Outcome.andThen_eq_done.mp hlive'
  have hj := justified s.scene r
  unfold KeepsParent
  unfold broadcast at hd
  rw [step_eq] at hstored
  cases hv : verdict s.scene r with
  | reject errorMsg => trivial
  | create info => trivial
  | merge old info =>
    rw [hv] at hd hj hstored
    obtain ⟨hid, hplaced, -⟩ := wellPlaced_info hp hj.1
    simp only [update_singleton, applyUpdate] at hd
    obtain ⟨-, hnew, -⟩ := updateItem_hangs (hf.2 live hlive) hf.1 hid hplaced hd
    have hlink := (hstored _ _).mp ((hagree _ _).mp ((hangsUnder_iff _ _ _).mpr hnew))
    change storedUp (s.scene.insert info.idValue (merged old info)) _ = _ at hlink
    rw [storedUp_insert, attach_self, merged_parentValue] at hlink
    exact (Option.some.inj hlink).symm
  | announce old info => trivial
  | clear => trivial

/-- Viewers agree on the hierarchy in every state of a run of well placed
requests whose updates name the stored parents. Where both viewers return
throughout, they agree in no other run. -/
theorem viewers_agree_on_hierarchy (order order' : MapOrder) (rs : List SceneUpdateRequest)
    (h : Along step WellPlaced {} rs) :
    (Along step KeepsParent {} rs → Everywhere step (SameHierarchy order order') {} rs) ∧
      (Everywhere step (BothReturn order order') {} rs ↔ Along step ViewerSafe {} rs) ∧
      (Along step ViewerSafe {} rs →
        (Everywhere step (SameHierarchy order order') {} rs ↔ Along step KeepsParent {} rs)) := by
  have hsame : ∀ s, Followed order s → SameHierarchy order order' s :=
    fun s hf => sameHierarchy_of_linked hf.1 hf.2
  refine ⟨fun hk => ?_, bothReturn_iff order order' h, fun hsafe => ?_⟩
  · exact everywhere_mono step hsame (everywhere_of_along step (followed_step order)
      (followed_empty order) (along_and step h hk))
  · exact everywhere_iff_along_within step (fun s => Followed order s ∧ Returning order s)
      (fun s hi => hsame s hi.1)
      (fun s r hi hd hk => ⟨followed_step order s r hi.1 ⟨hd.1, hk⟩,
        returning_step order s r hi.2 hd.1 hd.2⟩)
      (fun s r hi hd hg => keepsParent_of_agree hi.1 hi.2 hd.1 hd.2 hg)
      ⟨followed_empty order, returning_empty order⟩ (along_and step h hsafe)

def placedItem (id parent : String) : SceneItemInfo where
  id := some ⟨id⟩
  geometryInfo := some { positions := some [one, one, one] }
  parent := some ⟨parent⟩

def recoloredItem (id : String) (parent : Option ID) : SceneItemInfo where
  id := some ⟨id⟩
  displayInfo := some { coloring := some .white }
  parent := parent

def recoloring (parent : Option ID) : List SceneUpdateRequest :=
  [.safeSetItem (placedItem "a" ""), .safeSetItem (placedItem "b" "a"),
    .safeSetItem (recoloredItem "b" parent)]

theorem not_below_of_under_root {items : SceneItems} {a b : String}
    (ha : storedUp items a = some "") (h0 : storedUp items "" = none) (hab : a ≠ b)
    (hb : "" ≠ b) : ¬ Below (storedUp items) a b := by
  intro h
  rcases below_cases h with h | ⟨c, hc, h⟩
  · exact hab h
  · rw [ha] at hc
    cases hc
    exact hb (below_of_top h0 h)

theorem recoloring_placed (parent : Option ID)
    (hp : ParentPlaced (run step {} ((recoloring none).take 2)).scene (recoloredItem "b" parent)) :
    Along step WellPlaced {} (recoloring parent) :=
  ⟨⟨by decide, Or.inl rfl⟩,
    ⟨by decide, Or.inr ⟨by decide, not_below_of_under_root rfl rfl (by decide) (by decide)⟩⟩,
    ⟨by change "b" ≠ ""; decide, hp⟩, trivial⟩

theorem recoloring_safe (parent : Option ID)
    (hp : ParentPlaced (run step {} ((recoloring none).take 2)).scene (recoloredItem "b" parent)) :
    Along step ViewerSafe {} (recoloring parent) :=
  ⟨admissible_viewerSafe ⟨Or.inl rfl, rfl, rfl⟩,
    admissible_viewerSafe ⟨Or.inr (by decide), rfl, rfl⟩,
    admissible_viewerSafe ⟨hp.imp_right And.left, rfl, rfl⟩, trivial⟩

theorem viewers_agree_after_recoloring :
    Everywhere step (BothReturn entryOrder entryOrder) {} (recoloring (some ⟨"a"⟩)) ∧
      Everywhere step (SameHierarchy entryOrder entryOrder) {} (recoloring (some ⟨"a"⟩)) := by
  have hp : ParentPlaced (run step {} ((recoloring none).take 2)).scene
      (recoloredItem "b" (some ⟨"a"⟩)) :=
    Or.inr ⟨by decide, not_below_of_under_root rfl rfl (by decide) (by decide)⟩
  have hagree := viewers_agree_on_hierarchy entryOrder entryOrder _ (recoloring_placed _ hp)
  exact ⟨hagree.2.1.mpr (recoloring_safe _ hp), hagree.1 ⟨trivial, trivial, rfl, trivial⟩⟩

/-- Recoloring without a parent moves the item to the root in a live viewer
and leaves it under its parent in a late one. -/
theorem recoloring_moves_item :
    Along step WellPlaced {} (recoloring none) ∧
      ¬ SameHierarchy entryOrder entryOrder (run step {} (recoloring none)) := by
  have hplaced := recoloring_placed none (Or.inl rfl)
  refine ⟨hplaced, fun h => ?_⟩
  have hsafe := recoloring_safe none (Or.inl rfl)
  have hfollowed : Followed entryOrder (run step {} ((recoloring none).take 2)) :=
    run_invariant_along step (Followed entryOrder) (followed_step entryOrder)
      (followed_empty entryOrder)
      ⟨⟨hplaced.1, trivial⟩, ⟨hplaced.2.1, trivial⟩, trivial⟩
  have hboth : Along step (fun s r => WellPlaced s r ∧ ViewerSafe s r) {}
      ((recoloring none).take 2) :=
    ⟨⟨hplaced.1, hsafe.1⟩, ⟨hplaced.2.1, hsafe.2.1⟩, trivial⟩
  have hreturning : Returning entryOrder (run step {} ((recoloring none).take 2)) :=
    run_invariant_along step (Returning entryOrder)
      (fun s r hi hg => returning_step entryOrder s r hi hg.1 hg.2) (returning_empty entryOrder)
      hboth
  have hkeeps := keepsParent_of_agree hfollowed hreturning hplaced.2.2.1 hsafe.2.2.1 h
  have hstored : ("" : String) = "a" := hkeeps
  exact absurd hstored (by decide)

end GVS.ViewerHierarchy
