import Gvs.Bookkeeping
import Gvs.DrawStates
import Gvs.ViewerHierarchy

/-!
# Resetting in any order

A map whose items declare a tree and have loadable payloads determines what
`reset` builds from it: the keys, the links, what every item shows and what
its mesh draws, whatever the orders of the two loops. Halfway through the
second loop every package hangs loose or under its declared parent, so no
parent change is refused. The scene before may be any whose root hangs under
nothing; from the others `reset` does not get past erasing the root.
-/

set_option autoImplicit false

namespace GVS.ResetOrder
open GVS.Proto GVS.Vis GVS.SceneBooks GVS.Wiring GVS.Display GVS.Resetting GVS.Links
open GVS.Anchors GVS.Bookkeeping GVS.DrawStates GVS.ViewerHierarchy GuardedRuns

section Draws

theorem updateItem_draws {s s' : OpenGLScene} (hs : Wired (books s)) {info : SceneItemInfo}
    (h : Vis.updateItem s info = .done s') (k : String) :
    draws s' k = if k = info.idValue then (draws s k).map (redrawn info) else draws s k := by
  have hstate : (Vis.updateItem s info).state = s' := by rw [h, Outcome.state_done]
  by_cases hk : k = info.idValue
  · subst hk
    obtain ⟨hid, hparent, -⟩ := (updateItem_returns hs info).mp (h ▸ rfl)
    obtain ⟨ready, hready⟩ := updateItem_kept hid hparent
    obtain ⟨package, hpackage, hdraw⟩ := updateItem_self hready
    rw [hstate] at hready
    simp [draws, hready, hpackage, hdraw]
  · have hother := updateItem_other s info hk
    rw [hstate] at hother
    simp [draws, hother, hk]

def itemsDraw (items : SceneItems) (id : String) : Option DrawState :=
  match items.lookup id with
  | none => if id = "" then some freshDraw else none
  | some info => some (redrawn info freshDraw)

theorem draws_observes : Observes draws freshDraw redrawn where
  rooted s _ id := by
    unfold Vis.freshRoot
    rw [draws_emplace]
    simp [draws]
  emplaced s key _ id := by
    have hnone : s.objects key = none ↔ draws s key = none := by simp [draws]
    rw [draws_emplace]
    by_cases hid : id = key
    · subst hid
      simp only [hnone]
    · simp only [hid, false_and, if_false]
  updated _ _ _ hs h := updateItem_draws hs h

theorem reset_draws (order : MapOrder) {s s' : OpenGLScene} (hs : Wired (books s))
    {items : SceneItems} (hf : ∀ id info, items.lookup id = some info → info.idValue = id)
    (h : reset order s items = .done s') (id : String) : draws s' id = itemsDraw items id :=
  draws_observes.reset order hs hf h id

end Draws

section Rebuilding

structure Rebuilt (items : SceneItems) (t : OpenGLScene) : Prop where
  keys : ∀ id, (t.objects id).isSome ↔ id = "" ∨ id ∈ items
  root : ∃ package, t.objects "" = some package ∧ t.rootObject = some package.object
  top : RootOnTop t
  hangs : ∀ id info, items.lookup id = some info → HangsUnder t id info.parentValue
  links : ∀ id parent, HangsUnder t id parent ↔
    ∃ info, items.lookup id = some info ∧ info.parentValue = parent
  shown : ∀ id, displayState t id = itemsView items id
  drawn : ∀ id, draws t id = itemsDraw items id

structure Alike (t t' : OpenGLScene) : Prop where
  keys : ∀ id, (t.objects id).isSome = (t'.objects id).isSome
  links : ∀ id parent, HangsUnder t id parent ↔ HangsUnder t' id parent
  shown : ∀ id, displayState t id = displayState t' id
  drawn : ∀ id, draws t id = draws t' id

theorem Rebuilt.alike {items : SceneItems} {t t' : OpenGLScene} (h : Rebuilt items t)
    (h' : Rebuilt items t') : Alike t t' where
  keys id := by rw [Bool.eq_iff_iff, h.keys, h'.keys]
  links id parent := by rw [h.links, h'.links]
  shown id := by rw [h.shown, h'.shown]
  drawn id := by rw [h.drawn, h'.drawn]

theorem storedTree_loadableItems {items : SceneItems} (ht : StoredTree items)
    (hl : ∀ id info, items.lookup id = some info → Loadable info) : LoadableItems items :=
  fun id info hlookup => ⟨(ht.filed id info hlookup).1, hl id info hlookup,
    (ht.filed id info hlookup).2⟩

theorem relinked_links {items : SceneItems} (ht : StoredTree items) {b : Books} {t : OpenGLScene}
    {infos : List SceneItemInfo} (hl : Relinked b (books t) infos) (hloose : Loose b)
    (hinfos : ∀ info, info ∈ infos ↔ ∃ id, items.lookup id = some info)
    (hknown : ∀ id, (t.objects id).isSome → id = "" ∨ id ∈ items) (id parent : String) :
    HangsUnder t id parent ↔ ∃ info, items.lookup id = some info ∧ info.parentValue = parent := by
  have hdeclared : ∀ info, items.lookup id = some info → Hangs (books t) id info.parentValue := by
    intro info hlookup
    have hhangs := hl.declared info ((hinfos info).mpr ⟨id, hlookup⟩)
    rwa [(ht.filed id info hlookup).1] at hhangs
  rw [hangsUnder_iff]
  constructor
  · intro hhangs
    obtain ⟨h, above, hid, habove, hup⟩ := hhangs
    have hpackages := hid
    rw [hl.parts.packages] at hpackages
    rcases hknown id (by rw [← books_known, hid]; rfl) with rfl | hm
    · have hother : "" ∉ infos.map (·.idValue) := by
        intro hm
        obtain ⟨info, hinfo, hroot⟩ := List.mem_map.mp hm
        obtain ⟨key, hlookup⟩ := (hinfos info).mp hinfo
        apply ht.nonempty
        rw [← hroot, (ht.filed key info hlookup).1]
        exact Finmap.mem_of_lookup_eq_some hlookup
      rw [hl.other "" h hpackages hother, hloose "" h hpackages] at hup
      cases hup
    · obtain ⟨info, hlookup⟩ := (mem_iff_lookup items id).mp hm
      exact ⟨info, hlookup, hangs_unique hl.wired (hdeclared info hlookup)
        ⟨h, above, hid, habove, hup⟩⟩
  · rintro ⟨info, hlookup, rfl⟩
    exact hdeclared info hlookup

theorem reset_rebuilt (order : MapOrder) {s : OpenGLScene} (hs : Wired (books s))
    (htop : RootOnTop s) {items : SceneItems} (ht : StoredTree items)
    (hl : ∀ id info, items.lookup id = some info → Loadable info) :
    ∃ t, reset order s items = .done t ∧ Rebuilt items t := by
  obtain ⟨t, hreset, hw, hshown⟩ := reset_shown order hs htop (storedTree_loadableItems ht hl)
  have hrelinked : Relinked (books (emplaceAll (Vis.freshRoot (erased s)) (order.first items))) (books t)
      ((order.second items).map Prod.snd) := by
    rcases reset_links order hs ht.declaresTree fun key info hk => (hl key info hk).1 with
      ⟨t', ht', hlinks⟩ | ⟨expression, t', ha⟩
    · rw [hreset] at ht'
      cases ht'
      exact hlinks
    · rw [hreset] at ha
      cases ha
  have hkeys : ∀ id, (t.objects id).isSome ↔ id = "" ∨ id ∈ items := by
    intro id
    rw [← displayState_isSome hw, hshown, itemsView_isSome]
  have hloose := loose_emplaceAll (order.first items) (wired_freshRoot_scene hs)
    (loose_freshRoot hs)
  have hinfos : ∀ info, info ∈ (order.second items).map Prod.snd ↔
      ∃ id, items.lookup id = some info := by
    intro info
    simp [(order.second_iterates items).mem_iff]
  have hlinks := relinked_links ht hrelinked hloose hinfos fun id => (hkeys id).mp
  have hkeeps : ∀ id info, items.lookup id = some info → KeepsRoot info := by
    intro id info hk hid
    rw [(ht.filed id info hk).1] at hid
    exact absurd (hid ▸ Finmap.mem_of_lookup_eq_some hk) ht.nonempty
  have hanchored := anchored_reset order hs hkeeps hreset
  refine ⟨t, hreset, ⟨hkeys, ?_, rootOnTop_of_anchored hanchored,
    fun id info hk => (hlinks id _).mpr ⟨info, hk, rfl⟩, hlinks, hshown,
    reset_draws order hs (fun id info hk => (ht.filed id info hk).1) hreset⟩⟩
  obtain ⟨h, hroot, hobject, -⟩ := hanchored
  obtain ⟨package, hpackage, rfl⟩ := Option.map_eq_some_iff.mp hroot
  exact ⟨package, hpackage, hobject⟩

theorem wired_reachable {calls : List Call} {s : OpenGLScene}
    (h : run act (some construct) calls = some s) : Wired (books s) := by
  have hstep : ∀ process c, (∀ s, process = some s → Wired (books s)) →
      ∀ s, act process c = some s → Wired (books s) := by
    intro process c hp s' hs'
    obtain ⟨s, rfl, hcall⟩ := Option.bind_eq_some_iff.mp hs'
    rw [← survivor_state hcall]
    cases c with
    | reset order items => exact wired_call_reset order (hp s rfl) items
    | addItem info => exact wired_call_addItem (hp s rfl) info
    | updateItem info => exact wired_call_updateItem (hp s rfl) info
  have hstart : ∀ s, some construct = some s → Wired (books s) := by
    rintro s ⟨⟩
    exact wired_construct
  exact run_invariant act hstep hstart calls s h

/-- From every scene whose root hangs under nothing, a reset to a map that
declares a tree of loadable items rebuilds that tree, the same for all orders. -/
theorem reset_any_order (calls : List Call) {s : OpenGLScene}
    (h : run act (some construct) calls = some s) (htop : RootOnTop s) {items : SceneItems}
    (ht : StoredTree items) (hl : ∀ id info, items.lookup id = some info → Loadable info)
    (order order' : MapOrder) :
    ∃ t t', reset order s items = .done t ∧ reset order' s items = .done t' ∧
      Rebuilt items t ∧ Rebuilt items t' ∧ Alike t t' := by
  have hs := wired_reachable h
  obtain ⟨t, hreset, hrebuilt⟩ := reset_rebuilt order hs htop ht hl
  obtain ⟨t', hreset', hrebuilt'⟩ := reset_rebuilt order' hs htop ht hl
  exact ⟨t, t', hreset, hreset', hrebuilt, hrebuilt', hrebuilt.alike hrebuilt'⟩

noncomputable def turnedOrder : MapOrder where
  first := entryList
  second items := (entryList items).reverse
  first_iterates := entryList_iterates
  second_iterates items :=
    { keysNodup := by
        rw [List.map_reverse, List.nodup_reverse]
        exact (entryList_iterates items).keysNodup
      mem_iff := fun id info => by
        rw [List.mem_reverse]
        exact (entryList_iterates items).mem_iff id info }

theorem pair_stored : StoredTree pair where
  nonempty := by decide
  filed id info hl := by
    rcases pair_lookup hl with ⟨rfl, rfl⟩ | ⟨rfl, rfl⟩
    · exact ⟨rfl, Or.inr (by decide)⟩
    · exact ⟨rfl, Or.inl rfl⟩
  acyclic := ParentForest.acyclic_of_rank (fun id => if id = "b" then 2 else if id = "a" then 1 else 0)
    fun id parent h => by
      obtain ⟨info, hl, rfl⟩ := Option.map_eq_some_iff.mp h
      rcases pair_lookup hl with ⟨rfl, rfl⟩ | ⟨rfl, rfl⟩ <;> decide

theorem pair_rebuilt_both_ways :
    ∃ t t', reset entryOrder construct pair = .done t ∧ reset turnedOrder construct pair = .done t' ∧
      Rebuilt pair t ∧ Rebuilt pair t' ∧ Alike t t' := by
  refine reset_any_order [] rfl rootOnTop_construct pair_stored (fun id info hl => ?_) entryOrder turnedOrder
  rcases pair_lookup hl with ⟨rfl, rfl⟩ | ⟨rfl, rfl⟩ <;> exact ⟨rfl, rfl⟩

end Rebuilding

end GVS.ResetOrder
