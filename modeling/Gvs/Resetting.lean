import Gvs.Display

/-!
# Resetting the scene

`reset` empties the scene, makes a package for every key and then updates
every item. When the items are filed under their own ids, have loadable
payloads and known parents, it returns and shows exactly the items of the
map. When moreover the declared parents form no cycle, no parent change is
refused halfway, in whatever order the map is iterated.
-/

set_option autoImplicit false

namespace GVS.Resetting
open GVS.Proto GVS.Vis GVS.SceneBooks GVS.Wiring GVS.Display ParentForest

noncomputable def entryList (items : SceneItems) : List (String × SceneItemInfo) :=
  items.entries.toList.map fun e => (e.1, e.2)

theorem entryList_iterates (items : SceneItems) : Iterates items (entryList items) where
  keysNodup := by
    have hn : (items.entries.toList.map Sigma.fst).Nodup := by
      have hk := items.nodupKeys
      rw [← Multiset.coe_toList items.entries] at hk
      exact Multiset.coe_nodupKeys.mp hk
    simpa [entryList, Function.comp_def] using hn
  mem_iff id info := by
    rw [← Option.mem_def, Finmap.mem_lookup_iff, ← Multiset.mem_toList]
    simp [entryList]

noncomputable def entryOrder : MapOrder where
  first := entryList
  second := entryList
  first_iterates := entryList_iterates
  second_iterates := entryList_iterates

def emptyView (id : String) : Option DisplayState := if id = "" then some freshDisplay else none

def itemsView (items : SceneItems) (id : String) : Option DisplayState :=
  match items.lookup id with
  | none => emptyView id
  | some info => some (overlayDisplay (displayOf info) freshDisplay)

theorem itemsView_isSome (items : SceneItems) (id : String) :
    (itemsView items id).isSome = true ↔ id = "" ∨ id ∈ items := by
  unfold itemsView emptyView
  cases hl : items.lookup id with
  | none =>
    have hn : id ∉ items := Finmap.lookup_eq_none.mp hl
    by_cases hid : id = "" <;> simp [hid, hn]
  | some info => simp [Finmap.mem_of_lookup_eq_some hl]

theorem wired_freshRoot_scene {s : OpenGLScene} (hs : Wired (books s)) :
    Wired (books (Vis.freshRoot (erased s))) := by
  rw [books_freshRoot]
  exact wired_freshRoot hs

/-- A view of the items that starts afresh with a new package, and that an
update changes for its own item only. -/
structure Observes {β : Type*} (look : OpenGLScene → String → Option β) (fresh : β)
    (change : SceneItemInfo → β → β) : Prop where
  rooted : ∀ s, Wired (books s) → ∀ id,
    look (Vis.freshRoot (erased s)) id = if id = "" then some fresh else none
  emplaced : ∀ s key, Wired (books s) → ∀ id,
    look (emplace s key) id = if id = key ∧ look s id = none then some fresh else look s id
  updated : ∀ s info s', Wired (books s) → Vis.updateItem s info = .done s' → ∀ id,
    look s' id = if id = info.idValue then (look s id).map (change info) else look s id

theorem freshRoot_shown {s : OpenGLScene} (hs : Wired (books s)) (id : String) :
    displayState (Vis.freshRoot (erased s)) id = emptyView id := by
  have hw := wired_emptied hs
  rw [← books_cleared s] at hw
  unfold Vis.freshRoot emptyView
  rw [displayState_emplace hw]
  simp [displayState]

theorem displayState_observes :
    Observes displayState freshDisplay fun info => overlayDisplay (displayOf info) where
  rooted _ hs := freshRoot_shown hs
  emplaced s key hs id := by
    rw [displayState_emplace hs]
    by_cases hid : id = key
    · subst hid
      simp only [displayState_eq_none hs]
    · simp only [hid, false_and, if_false]
  updated _ _ _ hs h := updateItem_shown hs h

theorem updateItem_objects {s s' : OpenGLScene} (hs : Wired (books s)) {info : SceneItemInfo}
    (h : Vis.updateItem s info = .done s') (id : String) :
    (s'.objects id).isSome = (s.objects id).isSome := by
  rw [← displayState_isSome (wired_of_updateItem hs h), ← displayState_isSome hs,
    updateItem_shown hs h]
  split <;> simp

/-- A pass of updates returns exactly when each of them finds its item and its
parent and can be loaded. -/
theorem drive_returns (entries : List (String × SceneItemInfo)) {s : OpenGLScene}
    (hs : Wired (books s)) :
    (Outcome.drive (fun s item => Vis.updateItem s item.2) s entries).Returns ↔
      ∀ e ∈ entries, (s.objects e.2.idValue).isSome ∧ (s.objects e.2.parentValue).isSome ∧
        Loadable e.2 := by
  induction entries generalizing s with
  | nil => simp [Outcome.drive]
  | cons entry entries ih =>
    rw [Outcome.drive, Outcome.returns_andThen, List.forall_mem_cons, ← updateItem_returns hs]
    constructor
    · rintro ⟨s₁, h₁, hrest⟩
      have hall := (ih (wired_of_updateItem hs h₁)).mp hrest
      simp only [updateItem_objects hs h₁] at hall
      exact ⟨h₁ ▸ rfl, hall⟩
    · rintro ⟨hret, hall⟩
      obtain ⟨s₁, h₁⟩ := (Outcome.returns_iff _).mp hret
      refine ⟨s₁, h₁, (ih (wired_of_updateItem hs h₁)).mpr ?_⟩
      simpa only [updateItem_objects hs h₁] using hall

def LoadableItems (items : SceneItems) : Prop :=
  ∀ id info, items.lookup id = some info →
    info.idValue = id ∧ Loadable info ∧ (info.parentValue = "" ∨ info.parentValue ∈ items)

theorem mem_keys_iff {items : SceneItems} {entries : List (String × SceneItemInfo)}
    (h : Iterates items entries) (id : String) : id ∈ entries.map Prod.fst ↔ id ∈ items := by
  rw [mem_iff_lookup, List.mem_map]
  constructor
  · rintro ⟨⟨id', info⟩, hm, rfl⟩
    exact ⟨info, (h.mem_iff _ _).mp hm⟩
  · rintro ⟨info, hl⟩
    exact ⟨(id, info), (h.mem_iff _ _).mpr hl, rfl⟩

section Observing

variable {β : Type*} {look : OpenGLScene → String → Option β} {fresh : β}
  {change : SceneItemInfo → β → β}

theorem Observes.emplaceAll (h : Observes look fresh change) {s : OpenGLScene}
    (hs : Wired (books s)) (entries : List (String × SceneItemInfo)) (id : String) :
    look (emplaceAll s entries) id =
      if id ∈ entries.map Prod.fst ∧ look s id = none then some fresh else look s id := by
  induction entries generalizing s with
  | nil => simp [Vis.emplaceAll]
  | cons entry entries ih =>
    rw [Vis.emplaceAll, ih (wired_call_emplace hs entry.1), h.emplaced s entry.1 hs]
    by_cases hid : id = entry.1
    · subst hid
      by_cases hd : look s entry.1 = none <;> simp [hd]
    · simp only [List.map_cons, List.mem_cons, hid, false_or, false_and, if_false]

/-- Before the second loop of `reset` there are the root and a package for
every key, all still fresh. -/
theorem Observes.opened (h : Observes look fresh change) (order : MapOrder) {s : OpenGLScene}
    (hs : Wired (books s)) (items : SceneItems) (id : String) :
    look (Vis.emplaceAll (Vis.freshRoot (erased s)) (order.first items)) id =
      if id = "" ∨ id ∈ items then some fresh else none := by
  rw [h.emplaceAll (wired_freshRoot_scene hs), h.rooted s hs]
  simp only [mem_keys_iff (order.first_iterates items)]
  by_cases hid : id = "" <;> simp [hid]

theorem Observes.addItem (h : Observes look fresh change) {t t' : OpenGLScene}
    (ht : Wired (books t)) {info : SceneItemInfo} (hd : Vis.addItem t info = .done t')
    (id : String) :
    look t' id =
      if id = info.idValue then some (change info ((look t id).getD fresh)) else look t id := by
  unfold Vis.addItem at hd
  split at hd
  · rw [h.updated _ info t' (wired_call_emplace ht _) hd, h.emplaced t info.idValue ht]
    by_cases hid : id = info.idValue
    · subst hid
      cases look t info.idValue <;> simp
    · simp [hid]
  · cases hd

/-- Every item ends as a fresh one that was updated once. -/
theorem Observes.reset (h : Observes look fresh change) (order : MapOrder)
    {s s' : OpenGLScene} (hs : Wired (books s)) {items : SceneItems}
    (hf : ∀ id info, items.lookup id = some info → info.idValue = id)
    (hd : Vis.reset order s items = .done s') (id : String) :
    look s' id =
      match items.lookup id with
      | none => if id = "" then some fresh else none
      | some info => some (change info fresh) := by
  rw [reset_onTop order (rootOnTop_of_reset hd)] at hd
  have hw := wired_emplaceAll (wired_freshRoot_scene hs) (order.first items)
  have hopen := h.opened order hs items
  have hsecond := order.second_iterates items
  have hkeys : (order.second items).map (fun e => e.2.idValue) =
      (order.second items).map Prod.fst := by
    apply List.map_congr_left
    intro e he
    exact hf e.1 e.2 ((hsecond.mem_iff e.1 e.2).mp he)
  have hn := hsecond.keysNodup
  rw [← hkeys] at hn
  obtain ⟨hin, hout⟩ := Outcome.drive_keyed (fun _ e _ hs h => wired_of_updateItem hs h)
    (fun s e s' => h.updated s e.2 s') hw hn hd
  cases hlk : items.lookup id with
  | none =>
    have hnot : id ∉ items := Finmap.lookup_eq_none.mp hlk
    rw [hout id (by rwa [hkeys, mem_keys_iff hsecond]), hopen]
    simp [hnot]
  | some info =>
    have hm : id ∈ items := Finmap.mem_of_lookup_eq_some hlk
    have hitem := hin (id, info) ((hsecond.mem_iff id info).mpr hlk)
    rw [hf id info hlk, hopen, if_pos (Or.inr hm)] at hitem
    exact hitem

end Observing

theorem opened_known (order : MapOrder) {s : OpenGLScene} (hs : Wired (books s))
    (items : SceneItems) (id : String) :
    ((emplaceAll (Vis.freshRoot (erased s)) (order.first items)).objects id).isSome = true ↔
      id = "" ∨ id ∈ items := by
  have hw := wired_emplaceAll (wired_freshRoot_scene hs) (order.first items)
  rw [← displayState_isSome hw, displayState_observes.opened order hs]
  split <;> simp [*]

theorem reset_returns (order : MapOrder) {s : OpenGLScene} (hs : Wired (books s))
    (htop : RootOnTop s) {items : SceneItems}
    (hf : ∀ id info, items.lookup id = some info → info.idValue = id) :
    (reset order s items).Returns ↔ LoadableItems items := by
  have hw := wired_emplaceAll (wired_freshRoot_scene hs) (order.first items)
  have hsecond := order.second_iterates items
  rw [reset_onTop order htop, drive_returns _ hw]
  simp only [opened_known order hs]
  constructor
  · intro h id info hl
    obtain ⟨-, hparent, hload⟩ := h (id, info) ((hsecond.mem_iff id info).mpr hl)
    exact ⟨hf id info hl, hload, hparent⟩
  · intro h e he
    have hl := (hsecond.mem_iff e.1 e.2).mp he
    obtain ⟨hid, hload, hparent⟩ := h e.1 e.2 hl
    rw [hid]
    exact ⟨Or.inr (Finmap.mem_of_lookup_eq_some hl), hparent, hload⟩

theorem filed_of_loadable {items : SceneItems} (h : LoadableItems items) (id : String)
    (info : SceneItemInfo) (hl : items.lookup id = some info) : info.idValue = id :=
  (h id info hl).1

theorem reset_shown (order : MapOrder) {s : OpenGLScene} (hs : Wired (books s))
    (htop : RootOnTop s) {items : SceneItems} (hl : LoadableItems items) :
    ∃ s', reset order s items = .done s' ∧ Wired (books s') ∧
      ∀ id, displayState s' id = itemsView items id := by
  have hf := filed_of_loadable hl
  obtain ⟨s', hd⟩ := (Outcome.returns_iff _).mp ((reset_returns order hs htop hf).mpr hl)
  have hw := wired_call_reset order hs items
  rw [hd] at hw
  exact ⟨s', hd, hw, displayState_observes.reset order hs hf hd⟩

theorem reset_empty (order : MapOrder) {s : OpenGLScene} (htop : RootOnTop s) :
    reset order s ∅ = .done (Vis.freshRoot (erased s)) := by
  have h1 : order.first ∅ = [] := List.eq_nil_iff_forall_not_mem.mpr fun e he => by
    simpa using ((order.first_iterates ∅).mem_iff e.1 e.2).mp he
  have h2 : order.second ∅ = [] := List.eq_nil_iff_forall_not_mem.mpr fun e he => by
    simpa using ((order.second_iterates ∅).mem_iff e.1 e.2).mp he
  simp [reset_onTop order htop, h1, h2, emplaceAll, Outcome.drive]

end GVS.Resetting
