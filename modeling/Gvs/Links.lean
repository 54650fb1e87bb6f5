import Gvs.Resetting

/-!
# Parent links

Which package hangs under which. An update whose new parent does not lie
below its item moves the item and nothing else. A list of updates that
declares no cycle is therefore never refused a move, and ends with exactly
the declared links, in whatever order it is processed.
-/

set_option autoImplicit false

namespace GVS.Links
open GVS.Proto GVS.Vis GVS.SceneBooks GVS.Wiring GVS.Display GVS.Resetting ParentForest
open Relation

def Hangs (b : Books) (id parent : String) : Prop :=
  ∃ h above, b.packages id = some h ∧ b.packages parent = some above ∧
    b.up h.object = some above.object

theorem hangsUnder_iff (s : OpenGLScene) (id parent : String) :
    HangsUnder s id parent ↔ Hangs (books s) id parent := by
  unfold HangsUnder Hangs
  rw [up_books]
  constructor
  · rintro ⟨package, above, hp, ha, hu⟩
    exact ⟨handles package, handles above, by simp [books, hp], by simp [books, ha], hu⟩
  · rintro ⟨h, g, hp, ha, hu⟩
    simp only [books, Option.map_eq_some_iff] at hp ha
    obtain ⟨package, hp, rfl⟩ := hp
    obtain ⟨above, ha, rfl⟩ := ha
    exact ⟨package, above, hp, ha, hu⟩

theorem hangs_unique {b : Books} (hb : Wired b) {id parent parent' : String}
    (h : Hangs b id parent) (h' : Hangs b id parent') : parent = parent' := by
  obtain ⟨a, g, ha, hg, hu⟩ := h
  obtain ⟨a', g', ha', hg', hu'⟩ := h'
  obtain rfl : a = a' := Option.some.inj (ha.symm.trans ha')
  exact hb.object_inj parent parent' g g' hg hg' (Option.some.inj (hu.symm.trans hu'))

theorem books_known (s : OpenGLScene) (id : String) :
    ((books s).packages id).isSome = (s.objects id).isSome := by simp [books]

structure SameParts (b b' : Books) : Prop where
  packages : b'.packages = b.packages
  drawables : b'.drawables = b.drawables
  root : b'.root = b.root
  live : ∀ o, (b'.nodes o).isSome = (b.nodes o).isSome

theorem SameParts.refl (b : Books) : SameParts b b := ⟨rfl, rfl, rfl, fun _ => rfl⟩

theorem SameParts.trans {b b' b'' : Books} (h : SameParts b b') (h' : SameParts b' b'') :
    SameParts b b'' :=
  ⟨h'.packages.trans h.packages, h'.drawables.trans h.drawables, h'.root.trans h.root,
    fun o => (h'.live o).trans (h.live o)⟩

theorem updateItem_known {b : Books} {id parent : String} {h above : Handles}
    (hid : b.packages id = some h) (hp : b.packages parent = some above) :
    b.updateItem id parent true = b.setParent h.object above.object := by
  simp [Books.updateItem, hid, hp]

/-- An update that returns moves its object, and changes nothing else on the
books. -/
theorem updateItem_moved {s s' : OpenGLScene} (hs : Wired (books s)) {info : SceneItemInfo}
    (hd : Vis.updateItem s info = .done s') :
    ∃ own above, (books s).packages info.idValue = some own ∧
      (books s).packages info.parentValue = some above ∧
      books s' = (books s).setParent own.object above.object := by
  obtain ⟨hknown, hparent, hv, -⟩ := (updateItem_returns hs info).mp (hd ▸ rfl)
  rw [← books_known] at hknown hparent
  obtain ⟨own, hown⟩ := Option.isSome_iff_exists.mp hknown
  obtain ⟨above, habove⟩ := Option.isSome_iff_exists.mp hparent
  have hb := books_updateItem s info
  rw [hd, hv, updateItem_known hown habove, Outcome.state_done] at hb
  exact ⟨own, above, hown, habove, hb⟩

theorem addItem_moved {s s' : OpenGLScene} (hs : Wired (books s)) {info : SceneItemInfo}
    (hd : Vis.addItem s info = .done s') : books s' =
      ((books s).emplace info.idValue).updateItem info.idValue info.parentValue true := by
  unfold Vis.addItem at hd
  split at hd
  · have hw := wired_call_emplace hs info.idValue
    obtain ⟨-, -, hv, -⟩ := (updateItem_returns hw info).mp (hd ▸ rfl)
    have hb := books_updateItem (Vis.emplace s info.idValue) info
    rwa [hd, hv, books_emplace, Outcome.state_done] at hb
  · cases hd

theorem sameParts_setParent (b : Books) (o p : ℕ) : SameParts b (b.setParent o p) := by
  obtain ⟨h1, h2, h3, -⟩ := setParent_fields b o p
  exact ⟨h1, h2, h3, nodes_setParent_live b o p⟩

theorem setParent_moves {b : Books} (hb : Wired b) {o p : ℕ} (ho : (b.nodes o).isSome)
    (hn : ¬ Below b.up p o) : (b.setParent o p).up = attach b.up o p := by
  rcases up_setParent hb ho with ⟨h, -⟩ | ⟨-, h⟩
  · exact absurd h hn
  · exact h

theorem live_of_below {b : Books} (hb : Wired b) {a c : ℕ} (ha : (b.nodes a).isSome)
    (h : Below b.up a c) : (b.nodes c).isSome := by
  induction h using ReflTransGen.head_induction_on with
  | refl => exact ha
  | head hac _ ih => exact ih (hb.up_live _ _ hac)

theorem not_below_fresh {b : Books} (hb : Wired b) {a : ℕ} (ha : (b.nodes a).isSome) :
    ¬ Below b.up a b.next := by
  intro h
  have hlive := live_of_below hb ha h
  rw [hb.fresh_dead (le_refl _)] at hlive
  cases hlive

theorem addItem_moves {b : Books} (hb : Wired b) {id parent : String} {above : Handles}
    (hid : b.packages id = none) (hp : b.packages parent = some above) :
    (b.emplace id).packages id = some ⟨b.next + 1, b.next, b.next + 2⟩ ∧
      SameParts (b.emplace id) ((b.emplace id).updateItem id parent true) ∧
      ((b.emplace id).updateItem id parent true).up = attach b.up b.next above.object := by
  have hne : parent ≠ id := fun he => by simp [he, hid] at hp
  have hnew : (b.emplace id).packages id = some ⟨b.next + 1, b.next, b.next + 2⟩ := by
    simp [packages_emplace, hid]
  have hp' : (b.emplace id).packages parent = some above := by simp [packages_emplace, hne, hp]
  have hn : ¬ Below (b.emplace id).up above.object b.next := by
    rw [up_emplace hb]
    exact not_below_fresh hb (hb.object_live parent above hp)
  have hfresh : ((b.emplace id).nodes b.next).isSome := by simp [Books.emplace]
  rw [updateItem_known hnew hp', setParent_moves (wired_emplace hb id) hfresh hn, up_emplace hb]
  exact ⟨hnew, sameParts_setParent _ _ _, rfl⟩

def Follows (b : Books) (R : String → String → Prop) : Prop :=
  ∀ id h p, b.packages id = some h → b.up h.object = some p →
    ∃ parent above, b.packages parent = some above ∧ above.object = p ∧ R id parent

theorem below_packages {b : Books} {R : String → String → Prop} (hf : Follows b R) {o : ℕ}
    {id : String} {h : Handles} (hid : b.packages id = some h) (hb : Below b.up h.object o) :
    ∃ top g, b.packages top = some g ∧ g.object = o ∧ ReflTransGen R id top := by
  generalize ha : h.object = a at hb
  induction hb using ReflTransGen.head_induction_on generalizing id h with
  | refl => exact ⟨id, h, hid, ha, ReflTransGen.refl⟩
  | @head a c hac _ ih =>
    obtain ⟨parent, above, hp, hc, hR⟩ := hf id h c hid (ha ▸ hac)
    obtain ⟨top, g, ht, hg, hRs⟩ := ih hp hc
    exact ⟨top, g, ht, hg, ReflTransGen.head hR hRs⟩

theorem not_below_parent {b : Books} (hb : Wired b) {R : String → String → Prop}
    (hR : ∀ a, ¬ TransGen R a a) (hf : Follows b R) {id parent : String} {h above : Handles}
    (hid : b.packages id = some h) (hp : b.packages parent = some above) (hr : R id parent) :
    ¬ Below b.up above.object h.object := by
  intro hbelow
  obtain ⟨top, g, ht, hg, hRs⟩ := below_packages hf hp hbelow
  obtain rfl := hb.object_inj top id g h ht hid hg
  exact hR top (TransGen.head' hr hRs)

theorem follows_attach {b b' : Books} {R : String → String → Prop} (hb : Wired b)
    (hf : Follows b R) {id parent : String} {h above : Handles} (hid : b.packages id = some h)
    (hp : b.packages parent = some above) (hr : R id parent) (hpk : b'.packages = b.packages)
    (hu : b'.up = attach b.up h.object above.object) : Follows b' R := by
  intro x g q hx hq
  rw [hpk] at hx ⊢
  rw [hu] at hq
  by_cases he : g.object = h.object
  · obtain rfl := hb.object_inj x id g h hx hid he
    rw [he, attach_self] at hq
    exact ⟨parent, above, hp, Option.some.inj hq, hr⟩
  · rw [attach_of_ne _ _ _ he] at hq
    exact hf x g q hx hq

def relink (b : Books) : List SceneItemInfo → Books
  | [] => b
  | info::infos => relink (b.updateItem info.idValue info.parentValue true) infos

structure Relinked (b b' : Books) (infos : List SceneItemInfo) : Prop where
  wired : Wired b'
  parts : SameParts b b'
  declared : ∀ info ∈ infos, Hangs b' info.idValue info.parentValue
  other : ∀ id h, b.packages id = some h → id ∉ infos.map (·.idValue) →
    b'.up h.object = b.up h.object

theorem relink_spec {R : String → String → Prop} (hR : ∀ a, ¬ TransGen R a a)
    (infos : List SceneItemInfo) {b : Books} (hb : Wired b) (hf : Follows b R)
    (hn : (infos.map (·.idValue)).Nodup)
    (hi : ∀ info ∈ infos, (b.packages info.idValue).isSome ∧
      (b.packages info.parentValue).isSome ∧ R info.idValue info.parentValue) :
    Relinked b (relink b infos) infos := by
  induction infos generalizing b with
  | nil => exact ⟨hb, SameParts.refl b, by simp, fun _ _ _ _ => rfl⟩
  | cons info infos ih =>
    obtain ⟨hid, hp, hr⟩ := hi info (by simp)
    obtain ⟨h, hid⟩ := Option.isSome_iff_exists.mp hid
    obtain ⟨above, hp⟩ := Option.isSome_iff_exists.mp hp
    rw [List.map_cons, List.nodup_cons] at hn
    have hmove := setParent_moves hb (hb.object_live _ h hid)
      (not_below_parent hb hR hf hid hp hr)
    have hparts := sameParts_setParent b h.object above.object
    have hw := wired_setParent hb (hb.object_live _ h hid) (hb.object_live _ above hp)
    have hf' := follows_attach hb hf hid hp hr hparts.packages hmove
    have hrest := ih hw hf' hn.2 fun other ho => by
      rw [hparts.packages]
      exact hi other (by simp [ho])
    rw [relink, updateItem_known hid hp]
    refine ⟨hrest.wired, hparts.trans hrest.parts, ?_, ?_⟩
    · intro other ho
      rcases List.mem_cons.mp ho with rfl | ho
      · have hu := hrest.other _ h (by rw [hparts.packages, hid]) hn.1
        rw [hmove, attach_self] at hu
        exact ⟨h, above, by rw [hrest.parts.packages, hparts.packages, hid],
          by rw [hrest.parts.packages, hparts.packages, hp], hu⟩
      · exact hrest.declared other ho
    · intro x g hx hne
      rw [List.map_cons, List.mem_cons, not_or] at hne
      have hobj : g.object ≠ h.object := fun he => hne.1 (hb.object_inj x _ g h hx hid he)
      rw [hrest.other x g (by rw [hparts.packages, hx]) hne.2, hmove, attach_of_ne _ _ _ hobj]

def Aborts (o : Outcome Failure OpenGLScene) : Prop :=
  ∃ expression t, o = .raised (.assertion expression) t

theorem updateDisplayInfo_aborts (s : OpenGLScene) (d : ℕ) (display : DisplayInfo) :
    (updateDisplayInfo s d display).Returns ∨ Aborts (updateDisplayInfo s d display) := by
  unfold updateDisplayInfo
  cases s.drawables d with
  | none => exact Or.inl rfl
  | some drawable =>
    simp only
    split
    · exact Or.inl rfl
    · exact Or.inr ⟨_, _, rfl⟩

theorem updateItem_aborts {s : OpenGLScene} {info : SceneItemInfo}
    (hid : (s.objects info.idValue).isSome) (hp : (s.objects info.parentValue).isSome)
    (hv : validFormat info = true) :
    (Vis.updateItem s info).Returns ∨ Aborts (Vis.updateItem s info) := by
  have hupdate := updateItem_updated s info
  generalize Vis.updateItem s info = o at hupdate ⊢
  cases hupdate with
  | unknown hnone => simp [hnone] at hid
  | invalid _ hprimitive => simp [updatePrimitive_error hprimitive] at hv
  | orphan _ _ hparent => simp [hparent] at hp
  | bare => exact Or.inl rfl
  | displayed _ _ _ _ ho =>
    rw [← ho]
    exact updateDisplayInfo_aborts _ _ _

theorem isSome_of_packages {s s' : OpenGLScene}
    (h : (books s').packages = (books s).packages) (id : String) :
    (s'.objects id).isSome = (s.objects id).isSome := by
  rw [← books_known, ← books_known, h]

def Placeable (s : OpenGLScene) (infos : List SceneItemInfo) : Prop :=
  ∀ info ∈ infos, (s.objects info.idValue).isSome ∧ (s.objects info.parentValue).isSome ∧
    validFormat info = true

theorem drive_links (entries : List (String × SceneItemInfo)) {s : OpenGLScene}
    (hp : Placeable s (entries.map Prod.snd)) :
    (∃ s', Outcome.drive (fun s item => Vis.updateItem s item.2) s entries = .done s' ∧
        books s' = relink (books s) (entries.map Prod.snd)) ∨
      Aborts (Outcome.drive (fun s item => Vis.updateItem s item.2) s entries) := by
  induction entries generalizing s with
  | nil => exact Or.inl ⟨s, rfl, rfl⟩
  | cons entry entries ih =>
    obtain ⟨hid, hpar, hv⟩ := hp entry.2 (by simp)
    rcases updateItem_aborts hid hpar hv with hret | ⟨expression, t, ha⟩
    · obtain ⟨s₁, h₁⟩ := (Outcome.returns_iff _).mp hret
      have hb : books s₁ = (books s).updateItem entry.2.idValue entry.2.parentValue true := by
        rw [← hv, ← books_updateItem, h₁, Outcome.state_done]
      obtain ⟨h, hid⟩ := Option.isSome_iff_exists.mp (books_known s _ ▸ hid)
      obtain ⟨above, hpar⟩ := Option.isSome_iff_exists.mp (books_known s _ ▸ hpar)
      have hpk : (books s₁).packages = (books s).packages := by
        rw [hb, updateItem_known hid hpar, (sameParts_setParent _ _ _).packages]
      have hrest : Placeable s₁ (entries.map Prod.snd) := by
        intro info hm
        rw [isSome_of_packages hpk, isSome_of_packages hpk]
        exact hp info (by simp at hm ⊢; exact Or.inr hm)
      simp only [Outcome.drive, h₁, Outcome.done_andThen, List.map_cons, relink, ← hb]
      exact ih hrest
    · exact Or.inr ⟨expression, t, by simp [Outcome.drive, ha]⟩

def Loose (b : Books) : Prop := ∀ id h, b.packages id = some h → b.up h.object = none

theorem loose_emplace {b : Books} (hb : Wired b) (hl : Loose b) (key : String) :
    Loose (b.emplace key) := by
  intro id h hid
  rw [up_emplace hb]
  rw [packages_emplace] at hid
  split at hid
  · cases hid
    exact up_of_dead (hb.fresh_dead (le_refl _))
  · exact hl id h hid

theorem loose_emplaceAll (entries : List (String × SceneItemInfo)) {s : OpenGLScene}
    (hs : Wired (books s)) (hl : Loose (books s)) : Loose (books (emplaceAll s entries)) := by
  have hkeep : ∀ (b : Books) (key : String), Wired b ∧ Loose b →
      Wired (b.emplace key) ∧ Loose (b.emplace key) := by
    intro b key hb
    exact ⟨wired_emplace hb.1 key, loose_emplace hb.1 hb.2 key⟩
  exact (emplaceAll_keeps (P := fun b => Wired b ∧ Loose b) hkeep ⟨hs, hl⟩ entries).2

theorem loose_freshRoot {s : OpenGLScene} (hs : Wired (books s)) :
    Loose (books (Vis.freshRoot (erased s))) := by
  rw [books_freshRoot]
  exact loose_emplace (wired_emptied hs) (fun id h hid => by simp [emptied] at hid) ""

theorem Loose.follows {b : Books} (hl : Loose b) (R : String → String → Prop) : Follows b R := by
  intro id h p hid hp
  rw [hl id h hid] at hp
  cases hp

def Declares (items : SceneItems) (id parent : String) : Prop :=
  ∃ key info, items.lookup key = some info ∧ info.idValue = id ∧ info.parentValue = parent

/-- A map whose items declare a tree under the root: the keys are the ids of
the items and not empty, parents are keys or absent, and there is no cycle. -/
structure DeclaresTree (items : SceneItems) : Prop where
  nonempty : "" ∉ items
  covered : ∀ key ∈ items, ∃ key' info, items.lookup key' = some info ∧ info.idValue = key
  parents : ∀ key info, items.lookup key = some info →
    info.parentValue = "" ∨ info.parentValue ∈ items
  acyclic : ∀ id, ¬ TransGen (Declares items) id id

theorem ids_perm {items : SceneItems} (h : DeclaresTree items)
    {entries : List (String × SceneItemInfo)} (hi : Iterates items entries) :
    (entries.map Prod.fst).Perm ((entries.map Prod.snd).map (·.idValue)) := by
  have hsub : entries.map Prod.fst ⊆ (entries.map Prod.snd).map (·.idValue) := by
    intro key hk
    obtain ⟨key', info, hl, hid⟩ := h.covered key ((mem_keys_iff hi key).mp hk)
    exact List.mem_map.mpr
      ⟨info, List.mem_map.mpr ⟨(key', info), (hi.mem_iff _ _).mpr hl, rfl⟩, hid⟩
  exact (List.subperm_of_subset hi.keysNodup hsub).perm_of_length_le (by simp)

/-- A reset to a map that declares a tree links every item as declared, in
whatever order the map is iterated. -/
theorem reset_links (order : MapOrder) {s : OpenGLScene} (hs : Wired (books s))
    {items : SceneItems} (ht : DeclaresTree items)
    (hv : ∀ key info, items.lookup key = some info → validFormat info = true) :
    (∃ s', reset order s items = .done s' ∧
        Relinked (books (emplaceAll (Vis.freshRoot (erased s)) (order.first items))) (books s')
          ((order.second items).map Prod.snd)) ∨
      Aborts (reset order s items) := by
  by_cases htop : RootOnTop s
  swap
  · exact Or.inr ⟨_, _, reset_hung order htop items⟩
  rw [reset_onTop order htop]
  have hsecond := order.second_iterates items
  have hperm := ids_perm ht hsecond
  have hmem : ∀ info ∈ (order.second items).map Prod.snd, ∃ key, items.lookup key = some info := by
    intro info hm
    obtain ⟨⟨key, info⟩, he, rfl⟩ := List.mem_map.mp hm
    exact ⟨key, (hsecond.mem_iff key info).mp he⟩
  have hid : ∀ info ∈ (order.second items).map Prod.snd, info.idValue ∈ items := by
    intro info hm
    exact (mem_keys_iff hsecond _).mp (hperm.mem_iff.mpr (List.mem_map_of_mem hm))
  have hknown := opened_known order hs items
  have hplace : Placeable (emplaceAll (Vis.freshRoot (erased s)) (order.first items))
      ((order.second items).map Prod.snd) := by
    intro info hm
    obtain ⟨key, hl⟩ := hmem info hm
    exact ⟨(hknown _).mpr (Or.inr (hid info hm)), (hknown _).mpr (ht.parents key info hl),
      hv key info hl⟩
  have hw := wired_emplaceAll (wired_freshRoot_scene hs) (order.first items)
  have hloose := loose_emplaceAll (order.first items) (wired_freshRoot_scene hs) (loose_freshRoot hs)
  have hspec := relink_spec ht.acyclic ((order.second items).map Prod.snd) hw
    (hloose.follows _) (hperm.nodup_iff.mp hsecond.keysNodup) (fun info hm => by
      obtain ⟨h1, h2, -⟩ := hplace info hm
      obtain ⟨key, hl⟩ := hmem info hm
      rw [books_known, books_known]
      exact ⟨h1, h2, key, info, hl, rfl, rfl⟩)
  rcases drive_links (order.second items) hplace with ⟨s', hd, hb⟩ | ha
  · exact Or.inl ⟨s', hd, hb ▸ hspec⟩
  · exact Or.inr ha

end GVS.Links
