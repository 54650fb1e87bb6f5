import Gvs.Links

/-!
# Keeping the root in its place

A reset takes the root object out of the children of the scene, and asserts
that it is one of them. Only an update of the root itself can hang it under an
item, and only under one that does not hang below the root. Updates that name
no parent for the root leave it where it is.
-/

set_option autoImplicit false

namespace GVS.Anchors
open GVS.Proto GVS.Vis GVS.SceneBooks GVS.Wiring GVS.Display GVS.Resetting GVS.Links ParentForest

def Anchored (b : Books) : Prop :=
  ∃ h, b.packages "" = some h ∧ b.root = some h.object ∧ b.up h.object = none

theorem rootOnTop_of_anchored {s : OpenGLScene} (h : Anchored (books s)) : RootOnTop s := by
  obtain ⟨g, -, hr, hu⟩ := h
  intro r hroot
  obtain rfl : g.object = r := Option.some.inj (hr.symm.trans hroot)
  rwa [up_books] at hu

theorem anchored_freshRoot (s : OpenGLScene) : Anchored (books (Vis.freshRoot s)) := by
  rw [Vis.freshRoot, books_emplace]
  refine ⟨⟨s.next + 1, s.next, s.next + 2⟩, ?_, rfl, ?_⟩
  · simp [Books.emplace, books]
  · simp [Books.emplace, Books.up, books]

theorem anchored_construct : Anchored (books construct) := anchored_freshRoot {}

theorem rootOnTop_construct : RootOnTop construct := rootOnTop_of_anchored anchored_construct

theorem anchored_emplace {b : Books} (hb : Wired b) (h : Anchored b) (key : String) :
    Anchored (b.emplace key) := by
  obtain ⟨g, h0, hr, hu⟩ := h
  refine ⟨g, ?_, hr, by rw [up_emplace hb, hu]⟩
  rw [packages_emplace, if_neg, h0]
  rintro ⟨rfl, hfree⟩
  simp [h0] at hfree

theorem anchored_emplaceAll {s : OpenGLScene} (hs : Wired (books s)) (h : Anchored (books s))
    (entries : List (String × SceneItemInfo)) : Anchored (books (emplaceAll s entries)) := by
  have hkeep : ∀ (b : Books) (key : String), Wired b ∧ Anchored b →
      Wired (b.emplace key) ∧ Anchored (b.emplace key) :=
    fun b key hb => ⟨wired_emplace hb.1 key, anchored_emplace hb.1 hb.2 key⟩
  exact (emplaceAll_keeps (P := fun b => Wired b ∧ Anchored b) hkeep ⟨hs, h⟩ entries).2

theorem anchored_setParent {b : Books} (hb : Wired b) (h : Anchored b) {id : String}
    {own : Handles} (hid : b.packages id = some own) {p : ℕ}
    (hroot : id = "" → Below b.up p own.object) : Anchored (b.setParent own.object p) := by
  obtain ⟨g, h0, hr, hu⟩ := h
  have hparts := sameParts_setParent b own.object p
  refine ⟨g, by rw [hparts.packages, h0], by rw [hparts.root, hr], ?_⟩
  rcases up_setParent hb (hb.object_live id own hid) with ⟨-, he⟩ | ⟨hn, he⟩
  · rw [he, hu]
  · have hne : g.object ≠ own.object := fun ho =>
      hn (hroot (hb.object_inj "" id g own h0 hid ho).symm)
    rw [he, attach_of_ne _ _ _ hne, hu]

def KeepsRoot (info : SceneItemInfo) : Prop := info.idValue = "" → info.parentValue = ""

theorem anchored_updateItem {s s' : OpenGLScene} (hs : Wired (books s)) (h : Anchored (books s))
    {info : SceneItemInfo} (hk : KeepsRoot info) (hd : Vis.updateItem s info = .done s') :
    Anchored (books s') := by
  obtain ⟨own, above, hown, habove, hb⟩ := updateItem_moved hs hd
  rw [hb]
  refine anchored_setParent hs h hown fun hid => ?_
  rw [hk hid, ← hid, hown] at habove
  cases habove
  exact below_refl _ _

theorem anchored_addItem {s s' : OpenGLScene} (hs : Wired (books s)) (h : Anchored (books s))
    {info : SceneItemInfo} (hk : KeepsRoot info) (hd : Vis.addItem s info = .done s') :
    Anchored (books s') := by
  unfold Vis.addItem at hd
  split at hd
  · refine anchored_updateItem (wired_call_emplace hs _) ?_ hk hd
    rw [books_emplace]
    exact anchored_emplace hs h _
  · cases hd

theorem anchored_drive (entries : List (String × SceneItemInfo)) {s s' : OpenGLScene}
    (hs : Wired (books s)) (h : Anchored (books s)) (hk : ∀ e ∈ entries, KeepsRoot e.2)
    (hd : Outcome.drive (fun s item => Vis.updateItem s item.2) s entries = .done s') :
    Anchored (books s') := by
  induction entries generalizing s with
  | nil =>
    cases hd
    exact h
  | cons entry entries ih =>
    obtain ⟨s₁, h₁, hrest⟩ := Outcome.andThen_eq_done.mp hd
    exact ih (wired_of_updateItem hs h₁) (anchored_updateItem hs h (hk entry (by simp)) h₁)
      (fun e he => hk e (List.mem_cons_of_mem _ he)) hrest

theorem anchored_reset (order : MapOrder) {s s' : OpenGLScene} (hs : Wired (books s))
    {items : SceneItems} (hk : ∀ id info, items.lookup id = some info → KeepsRoot info)
    (hd : reset order s items = .done s') : Anchored (books s') := by
  rw [reset_onTop order (rootOnTop_of_reset hd)] at hd
  have hroot := wired_freshRoot_scene hs
  have hsecond := order.second_iterates items
  exact anchored_drive _ (wired_emplaceAll hroot _)
    (anchored_emplaceAll hroot (anchored_freshRoot _) _)
    (fun e he => hk e.1 e.2 ((hsecond.mem_iff e.1 e.2).mp he)) hd

section Updates

def Anchoring : SceneUpdate → Prop
  | .addItem info | .updateItem info => KeepsRoot info
  | .resetAllItems items => ∀ id info, items.lookup id = some info → KeepsRoot info
  | .removeItem _ | .updateNotSet => True

theorem anchored_applyUpdate (order : MapOrder) {s s' : OpenGLScene} (hs : Wired (books s))
    (h : Anchored (books s)) {u : SceneUpdate} (hu : Anchoring u)
    (hd : applyUpdate order s u = .done s') : Anchored (books s') := by
  cases u with
  | addItem info => exact anchored_addItem hs h hu hd
  | updateItem info => exact anchored_updateItem hs h hu hd
  | removeItem info =>
    cases hd
    exact h
  | resetAllItems items => exact anchored_reset order hs hu hd
  | updateNotSet =>
    cases hd
    exact h

theorem anchored_update (order : MapOrder) (us : List SceneUpdate) {s s' : OpenGLScene}
    (hs : Wired (books s)) (h : Anchored (books s)) (hus : ∀ u ∈ us, Anchoring u)
    (hd : Vis.update order s us = .done s') : Anchored (books s') := by
  induction us generalizing s with
  | nil =>
    cases hd
    exact h
  | cons u us ih =>
    obtain ⟨s₁, h₁, hrest⟩ := Outcome.andThen_eq_done.mp hd
    have hw := wired_applyUpdate order hs u
    rw [h₁] at hw
    exact ih hw (anchored_applyUpdate order hs h (hus u (by simp)) h₁)
      (fun u' hu' => hus u' (List.mem_cons_of_mem _ hu')) hrest

end Updates

section Gathering

/-- Every package hangs below the root, so that the root cannot be moved. -/
structure Gathered (b : Books) : Prop where
  anchored : Anchored b
  below : ∀ r, b.root = some r → ∀ id h, b.packages id = some h → Below b.up h.object r

theorem gathered_freshRoot (s : OpenGLScene) : Gathered (books (Vis.freshRoot s)) where
  anchored := anchored_freshRoot s
  below r hr id h hid := by
    rw [Vis.freshRoot, books_emplace] at hr hid
    rw [packages_emplace] at hid
    split at hid
    · cases hid
      cases hr
      exact below_refl _ _
    · cases hid

theorem gathered_setParent {b : Books} (hb : Wired b) (h : Anchored b) {id : String}
    {own : Handles} (hid : b.packages id = some own) {p : ℕ}
    (hp : ∀ r, b.root = some r → Below b.up p r)
    (hother : ∀ r, b.root = some r → ∀ k g, k ≠ id → b.packages k = some g →
      Below b.up g.object r) : Gathered (b.setParent own.object p) := by
  have hparts := sameParts_setParent b own.object p
  constructor
  · refine anchored_setParent hb h hid ?_
    rintro rfl
    obtain ⟨g, h0, hr, -⟩ := h
    rw [hid] at h0
    cases h0
    exact hp _ hr
  intro r hr k g hk
  rw [hparts.root] at hr
  rw [hparts.packages] at hk
  rcases up_setParent hb (hb.object_live id own hid) with ⟨hrefused, he⟩ | ⟨hn, he⟩
  · rw [he]
    by_cases hkey : k = id
    · subst hkey
      obtain rfl : own = g := Option.some.inj (hid.symm.trans hk)
      -- the new parent lies below the package, and below the root
      obtain ⟨root, -, hroot, htop⟩ := h
      obtain rfl : root.object = r := Option.some.inj (hroot.symm.trans hr)
      rcases below_total hrefused (hp _ hr) with hbelow | habove
      · exact hbelow
      · rw [below_of_top htop habove]
        exact below_refl _ _
    · exact hother r hr k g hkey hk
  · rw [he]
    by_cases hkey : k = id
    · subst hkey
      obtain rfl : own = g := Option.some.inj (hid.symm.trans hk)
      exact below_step (attach_self _ _ _) (below_attach hn (hp r hr) (hp r hr))
    · exact below_attach hn (hp r hr) (hother r hr k g hkey hk)

theorem gathered_updateItem {s s' : OpenGLScene} (hs : Wired (books s)) (h : Gathered (books s))
    {info : SceneItemInfo} (hd : Vis.updateItem s info = .done s') : Gathered (books s') := by
  obtain ⟨own, above, hown, habove, hb⟩ := updateItem_moved hs hd
  rw [hb]
  exact gathered_setParent hs h.anchored hown (fun r hr => h.below r hr _ above habove)
    fun r hr k g _ hk => h.below r hr k g hk

theorem gathered_addItem {s s' : OpenGLScene} (hs : Wired (books s)) (h : Gathered (books s))
    {info : SceneItemInfo} (hp : (s.objects info.parentValue).isSome)
    (hd : Vis.addItem s info = .done s') : Gathered (books s') := by
  rw [← books_known] at hp
  unfold Vis.addItem at hd
  split at hd
  · obtain ⟨own, above, hown, habove, hb⟩ := updateItem_moved (wired_call_emplace hs _) hd
    rw [books_emplace] at hown habove hb
    have hup := up_emplace hs info.idValue
    have hparent : (books s).packages info.parentValue = some above := by
      rw [packages_emplace, if_neg] at habove
      · exact habove
      · rintro ⟨he, hfree⟩
        simp [he, hfree] at hp
    rw [hb]
    refine gathered_setParent (wired_emplace hs _) (anchored_emplace hs h.anchored _) hown ?_ ?_
    · intro r hr
      rw [hup]
      exact h.below r hr _ above hparent
    · intro r hr k g hk hg
      rw [packages_emplace, if_neg fun he => hk he.1] at hg
      rw [hup]
      exact h.below r hr k g hg
  · cases hd

end Gathering

end GVS.Anchors
