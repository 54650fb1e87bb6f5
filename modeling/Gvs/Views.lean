import Gvs.Anchors
import Gvs.LogReplay
import Gvs.Viewers

/-!
# Views

A view is what a viewer shows under each id. Broadcasts act on views, and a
viewer whose view an update fits performs it and ends with the updated view.
Repeating a stretch of broadcasts leaves a view as it is: creations and resets
fix what is shown, and merges of display fields are idempotent.
-/

set_option autoImplicit false

namespace GVS.Views
open GVS.Proto GVS.ItemDefaults GVS.RequestTable GVS.StoredItems GuardedRuns LogReplay
open GVS.Vis GVS.SceneBooks GVS.Wiring GVS.Display GVS.Resetting GVS.Anchors GVS.Viewers

abbrev View := String → Option DisplayState

def applyView (v : View) : SceneUpdate → View
  | .addItem info => Function.update v info.idValue
      (some (overlayDisplay (displayOf info) ((v info.idValue).getD freshDisplay)))
  | .updateItem info => Function.update v info.idValue
      ((v info.idValue).map (overlayDisplay (displayOf info)))
  | .resetAllItems items => itemsView items
  | .removeItem _ | .updateNotSet => v

def Fits (v : View) : SceneUpdate → Prop
  | .addItem info => info.geometryInfo.isSome ∧ Loadable info ∧
      (info.parentValue = info.idValue ∨ (v info.parentValue).isSome)
  | .updateItem info => (v info.idValue).isSome ∧ (v info.parentValue).isSome ∧ Loadable info
  | .resetAllItems items => LoadableItems items
  | .removeItem _ | .updateNotSet => True

def IsReset (u : SceneUpdate) : Prop := ∃ items, u = .resetAllItems items

theorem applyUpdate_view (order : MapOrder) {t : OpenGLScene} (ht : Wired (books t))
    {u : SceneUpdate} (htop : IsReset u → RootOnTop t) (h : Fits (displayState t) u) :
    ∃ t', applyUpdate order t u = .done t' ∧ Wired (books t') ∧
      displayState t' = applyView (displayState t) u := by
  cases u with
  | addItem info =>
    have hret := (addItem_returns ht info).mpr (by rw [← displayState_isSome ht]; exact h)
    obtain ⟨t', hd⟩ := (Outcome.returns_iff _).mp hret
    have hw := wired_call_addItem ht info
    rw [hd] at hw
    refine ⟨t', hd, hw, funext fun id => ?_⟩
    rw [displayState_observes.addItem ht hd, applyView, Function.update_apply]
    by_cases hid : id = info.idValue <;> simp [hid]
  | updateItem info =>
    have hret := (updateItem_returns ht info).mpr (by
      rw [← displayState_isSome ht, ← displayState_isSome ht]
      exact h)
    obtain ⟨t', hd⟩ := (Outcome.returns_iff _).mp hret
    refine ⟨t', hd, wired_of_updateItem ht hd, funext fun id => ?_⟩
    rw [updateItem_shown ht hd, applyView, Function.update_apply]
    by_cases hid : id = info.idValue <;> simp [hid]
  | removeItem info => exact ⟨t, rfl, ht, rfl⟩
  | resetAllItems items =>
    obtain ⟨t', hd, hw, hs⟩ := reset_shown order ht (htop ⟨items, rfl⟩) h
    exact ⟨t', hd, hw, funext hs⟩
  | updateNotSet => exact ⟨t, rfl, ht, rfl⟩

/-- A viewer whose root stays in its place performs updates that fit one after
the other. -/
theorem update_view (order : MapOrder) (us : List SceneUpdate) {t : OpenGLScene}
    (ht : Wired (books t)) (ha : Anchored (books t)) (hus : ∀ u ∈ us, Anchoring u)
    (h : Along applyView Fits (displayState t) us) :
    ∃ t', Vis.update order t us = .done t' ∧ Wired (books t') ∧ Anchored (books t') ∧
      displayState t' = run applyView (displayState t) us := by
  induction us generalizing t with
  | nil => exact ⟨t, rfl, ht, ha, rfl⟩
  | cons u us ih =>
    obtain ⟨t₁, h₁, hw₁, hv₁⟩ := applyUpdate_view order ht
      (fun _ => rootOnTop_of_anchored ha) h.1
    have ha₁ := anchored_applyUpdate order ht ha (hus u (by simp)) h₁
    obtain ⟨t', h', hw', ha', hv'⟩ :=
      ih hw₁ ha₁ (fun u' hu' => hus u' (List.mem_cons_of_mem _ hu')) (hv₁ ▸ h.2)
    refine ⟨t', ?_, hw', ha', by rw [hv', hv₁, run]⟩
    show (applyUpdate order t u).andThen _ = _
    rw [h₁]
    exact h'

/-- Updates after which a viewer that returned shows what the view says: a
reset of the stream is to the empty scene. -/
def Plain (u : SceneUpdate) : Prop := ∀ items, u = .resetAllItems items → items = ∅

theorem applyUpdate_returns (order : MapOrder) {t : OpenGLScene} (ht : Wired (books t))
    {u : SceneUpdate} (hu : Plain u) :
    (applyUpdate order t u).Returns ↔ Fits (displayState t) u ∧ (IsReset u → RootOnTop t) := by
  have hother : (∀ items, u ≠ .resetAllItems items) → (IsReset u → RootOnTop t) := by
    rintro hne ⟨items, he⟩
    exact absurd he (hne items)
  cases u with
  | addItem info =>
    rw [applyUpdate, addItem_returns ht, Fits, displayState_isSome ht,
      and_iff_left (hother (by simp))]
  | updateItem info =>
    rw [applyUpdate, updateItem_returns ht, Fits, displayState_isSome ht, displayState_isSome ht,
      and_iff_left (hother (by simp))]
  | removeItem info => exact iff_of_true rfl ⟨trivial, hother (by simp)⟩
  | resetAllItems items =>
    obtain rfl := hu items rfl
    constructor
    · intro hret
      obtain ⟨t', hd⟩ := (Outcome.returns_iff _).mp hret
      exact ⟨fun id info hl => by simp at hl, fun _ => rootOnTop_of_reset hd⟩
    · rintro ⟨-, htop⟩
      rw [applyUpdate, reset_empty order (htop ⟨∅, rfl⟩)]
      rfl
  | updateNotSet => exact iff_of_true rfl ⟨trivial, hother (by simp)⟩

theorem applyUpdate_done (order : MapOrder) {t t' : OpenGLScene} (ht : Wired (books t))
    {u : SceneUpdate} (hu : Plain u) (hd : applyUpdate order t u = .done t') :
    Wired (books t') ∧ displayState t' = applyView (displayState t) u := by
  obtain ⟨hf, htop⟩ := (applyUpdate_returns order ht hu).mp (hd ▸ rfl)
  obtain ⟨t₁, h₁, hw, hv⟩ := applyUpdate_view order ht htop hf
  rw [hd] at h₁
  cases h₁
  exact ⟨hw, hv⟩

theorem update_done (order : MapOrder) {us : List SceneUpdate} {t t' : OpenGLScene}
    (ht : Wired (books t)) (hus : ∀ u ∈ us, Plain u) (hd : Vis.update order t us = .done t') :
    Wired (books t') ∧ displayState t' = run applyView (displayState t) us := by
  induction us generalizing t with
  | nil =>
    cases hd
    exact ⟨ht, rfl⟩
  | cons u us ih =>
    obtain ⟨t₁, h₁, hrest⟩ := Outcome.andThen_eq_done.mp hd
    obtain ⟨hw, hv⟩ := applyUpdate_done order ht (hus u (by simp)) h₁
    rw [run, ← hv]
    exact ih hw (fun u' hu' => hus u' (List.mem_cons_of_mem _ hu')) hrest

def learn (known : String → Prop) : SceneUpdate → String → Prop
  | .addItem info => fun id => id = info.idValue ∨ known id
  | .resetAllItems items => fun id => id = "" ∨ id ∈ items
  | .updateItem _ | .removeItem _ | .updateNotSet => known

theorem applyView_known (v : View) (u : SceneUpdate) :
    (fun id => (applyView v u id).isSome = true) = learn (fun id => (v id).isSome = true) u := by
  ext id
  cases u with
  | addItem info =>
    rw [learn, applyView, Function.update_apply]
    by_cases hid : id = info.idValue <;> simp [hid]
  | updateItem info =>
    rw [learn, applyView, Function.update_apply]
    by_cases hid : id = info.idValue <;> simp [hid]
  | removeItem info => rfl
  | resetAllItems items => exact itemsView_isSome items id
  | updateNotSet => rfl

theorem run_known (us : List SceneUpdate) (v : View) (id : String) :
    (run applyView v us id).isSome = true ↔ run learn (fun id => (v id).isSome = true) us id := by
  induction us generalizing v with
  | nil => rfl
  | cons u us ih =>
    rw [run, run, ← applyView_known]
    exact ih (applyView v u)

theorem displayOf_merged (old info : SceneItemInfo) :
    displayOf (merged old info) = copyPresentFields (displayOf old) (displayOf info) := by
  unfold displayOf merged updateDisplayDefaults
  cases info.displayInfo <;> rfl

def FormatKnown (display : DisplayInfo) : Prop :=
  ∀ format, display.geometryFormat = some format → (primitiveOf format).isSome

theorem formatKnown_of_valid {info : SceneItemInfo} (h : validFormat info = true) :
    FormatKnown (displayOf info) := by
  intro format hf
  unfold displayOf at hf
  unfold validFormat displayFormat at h
  cases hd : info.displayInfo with
  | none => simp [hd] at hf
  | some display =>
    rw [hd] at hf h
    rw [Option.getD_some] at hf
    rw [Option.bind_some, hf] at h
    cases format <;> first | rfl | cases h

theorem overlay_copy {given : DisplayInfo} (h : FormatKnown given) (stored : DisplayInfo)
    (shown : DisplayState) :
    overlayDisplay (copyPresentFields stored given) shown =
      overlayDisplay given (overlayDisplay stored shown) := by
  simp only [overlayDisplay, copyPresentFields, DisplayState.mk.injEq]
  refine ⟨?_, ?_, ?_, ?_, ?_⟩
  · cases given.transformation <;> rfl
  · cases given.coloring <;> rfl
  · cases given.uniformColor <;> rfl
  · cases given.shading <;> rfl
  · cases hf : given.geometryFormat with
    | none => rfl
    | some format =>
      obtain ⟨primitive, hprim⟩ := Option.isSome_iff_exists.mp (h format hf)
      simp [hprim]

theorem overlay_idem (given : DisplayInfo) (shown : DisplayState) :
    overlayDisplay given (overlayDisplay given shown) = overlayDisplay given shown := by
  simp only [overlayDisplay, DisplayState.mk.injEq]
  refine ⟨?_, ?_, ?_, ?_, ?_⟩
  · cases given.transformation <;> rfl
  · cases given.coloring <;> rfl
  · cases given.uniformColor <;> rfl
  · cases given.shading <;> rfl
  · cases given.geometryFormat.bind primitiveOf <;> rfl

/-- A complete display with a known format leaves nothing of what was shown. -/
theorem overlay_complete {given : DisplayInfo} (hc : Complete given) (hf : FormatKnown given)
    (shown shown' : DisplayState) : overlayDisplay given shown = overlayDisplay given shown' := by
  obtain ⟨-, h2, h3, h4, h5, h6⟩ := hc
  obtain ⟨format, h2⟩ := Option.isSome_iff_exists.mp h2
  obtain ⟨transformation, h3⟩ := Option.isSome_iff_exists.mp h3
  obtain ⟨uniformColor, h4⟩ := Option.isSome_iff_exists.mp h4
  obtain ⟨coloring, h5⟩ := Option.isSome_iff_exists.mp h5
  obtain ⟨shading, h6⟩ := Option.isSome_iff_exists.mp h6
  obtain ⟨primitive, hp⟩ := Option.isSome_iff_exists.mp (hf format h2)
  simp [overlayDisplay, h2, h3, h4, h5, h6, hp]

theorem itemsView_absent {items : SceneItems} {id : String} (h : items.lookup id = none) :
    itemsView items id = emptyView id := by rw [itemsView, h]

theorem emptyView_getD (id : String) : (emptyView id).getD freshDisplay = freshDisplay := by
  unfold emptyView
  split <;> rfl

theorem itemsView_insert (items : SceneItems) (key : String) (info : SceneItemInfo) :
    itemsView (items.insert key info) = Function.update (itemsView items) key
      (some (overlayDisplay (displayOf info) freshDisplay)) := by
  ext id : 1
  unfold itemsView
  rw [lookup_insert_ite, Function.update_apply]
  by_cases hid : id = key <;> simp [hid]

def Registers (f : Option DisplayState → Option DisplayState) : Prop :=
  (∃ c, ∀ x, f x = c) ∨
    ∃ display, FormatKnown display ∧ ∀ x, f x = x.map (overlayDisplay display)

theorem registers_id : Registers fun x => x := by
  refine Or.inr ⟨{}, fun format h => by simp at h, fun x => ?_⟩
  cases x <;> rfl

theorem registers_comp {f g : Option DisplayState → Option DisplayState} (hf : Registers f)
    (hg : Registers g) : Registers (g ∘ f) := by
  rcases hg with ⟨c, hg⟩ | ⟨given, hk, hg⟩
  · exact Or.inl ⟨c, fun x => hg (f x)⟩
  · rcases hf with ⟨c, hf⟩ | ⟨stored, hk', hf⟩
    · exact Or.inl ⟨c.map (overlayDisplay given), fun x => by rw [Function.comp, hf, hg]⟩
    · refine Or.inr ⟨copyPresentFields stored given, fun format h => ?_, fun x => ?_⟩
      · cases hn : given.geometryFormat with
        | none => exact hk' format (by simpa [copyPresentFields, hn] using h)
        | some format' =>
          obtain rfl : format' = format := by simpa [copyPresentFields, hn] using h
          exact hk format' hn
      · rw [Function.comp, hf, hg, Option.map_map]
        exact congrArg (Option.map · x) (funext fun y => (overlay_copy hk stored y).symm)

theorem registers_idem {f : Option DisplayState → Option DisplayState} (hf : Registers f)
    (x : Option DisplayState) : f (f x) = f x := by
  rcases hf with ⟨c, hf⟩ | ⟨display, -, hf⟩
  · rw [hf, hf]
  · rw [hf, hf, Option.map_map]
    exact congrArg (Option.map · x) (funext fun y => overlay_idem display y)

def Pointwise (F : View → View) : Prop :=
  ∃ f : String → Option DisplayState → Option DisplayState,
    (∀ id, Registers (f id)) ∧ ∀ v id, F v id = f id (v id)

def Settled : SceneUpdate → Prop
  | .addItem info => Complete (displayOf info) ∧ FormatKnown (displayOf info)
  | .updateItem info => FormatKnown (displayOf info)
  | .removeItem _ | .resetAllItems _ | .updateNotSet => True

theorem pointwise_applyView {u : SceneUpdate} (h : Settled u) :
    Pointwise (fun v => applyView v u) := by
  cases u with
  | addItem info =>
    refine ⟨fun id x => if id = info.idValue then
      some (overlayDisplay (displayOf info) freshDisplay) else x, fun id => ?_, fun v id => ?_⟩
    · by_cases hid : id = info.idValue
      · exact Or.inl ⟨_, fun x => if_pos hid⟩
      · simpa [hid] using registers_id
    · show applyView v (.addItem info) id = _
      rw [applyView, Function.update_apply]
      by_cases hid : id = info.idValue
      · simp only [hid, if_true]
        exact congrArg some (overlay_complete h.1 h.2 _ _)
      · simp only [hid, if_false]
  | updateItem info =>
    refine ⟨fun id x => if id = info.idValue then x.map (overlayDisplay (displayOf info)) else x,
      fun id => ?_, fun v id => ?_⟩
    · by_cases hid : id = info.idValue
      · exact Or.inr ⟨displayOf info, h, fun x => if_pos hid⟩
      · simpa [hid] using registers_id
    · show applyView v (.updateItem info) id = _
      rw [applyView, Function.update_apply]
      by_cases hid : id = info.idValue <;> simp [hid]
  | removeItem info => exact ⟨fun _ x => x, fun _ => registers_id, fun _ _ => rfl⟩
  | resetAllItems items =>
    exact ⟨fun id _ => itemsView items id, fun id => Or.inl ⟨_, fun _ => rfl⟩, fun _ _ => rfl⟩
  | updateNotSet => exact ⟨fun _ x => x, fun _ => registers_id, fun _ _ => rfl⟩

theorem absorbing_settled {us : List SceneUpdate} (h : ∀ u ∈ us, Settled u) :
    Absorbing applyView us := by
  refine absorbing_of_closed applyView (M := Pointwise) ?_ ?_ ?_ fun u hu =>
    pointwise_applyView (h u hu)
  · exact ⟨fun _ x => x, fun _ => registers_id, fun _ _ => rfl⟩
  · rintro F G ⟨f, hf, hF⟩ ⟨g, hg, hG⟩
    exact ⟨fun id => g id ∘ f id, fun id => registers_comp (hf id) (hg id),
      fun v id => by rw [Function.comp, hG, hF]; rfl⟩
  · rintro F ⟨f, hf, hF⟩ v
    ext id : 1
    rw [hF, hF, registers_idem (hf id)]

end GVS.Views
