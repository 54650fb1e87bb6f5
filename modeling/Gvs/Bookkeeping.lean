import Gvs.GuardedRuns
import Gvs.Links

/-!
# Client scene bookkeeping

Every drawable and every object belongs to a package and hangs below the root
as long as no call leaves one behind: an item is added once and under a known
parent, an update does not name an unknown parent, and a reset is given a
tree. The other calls leave objects or drawables that no package owns.
-/

set_option autoImplicit false

namespace GVS.Bookkeeping
open GVS.Proto GVS.ItemDefaults GVS.Vis GVS.SceneBooks GVS.Wiring GVS.Display GVS.Resetting GVS.Links
open ParentForest GuardedRuns

structure Bookkept (s : OpenGLScene) : Prop where
  owned : ∀ d drawable, s.drawables d = some drawable →
    ∃! id, ∃ package, s.objects id = some package ∧ package.drawable = d ∧
      package.object = drawable.object ∧ package.address = drawable.mesh
  registered : ∀ id package, s.objects id = some package →
    ∃ drawable, s.drawables package.drawable = some drawable ∧
      drawable.object = package.object ∧ drawable.mesh = package.address
  live : ∀ id package, s.objects id = some package → (s.graph package.object).isSome
  rooted : ∃ r, s.rootObject = some r ∧ ∀ o, (s.graph o).isSome → Below (up s) o r

inductive Call where
  | reset (order : MapOrder) (items : SceneItems)
  | addItem (info : SceneItemInfo)
  | updateItem (info : SceneItemInfo)

def call (s : OpenGLScene) : Call → Outcome Failure OpenGLScene
  | .reset order items => Vis.reset order s items
  | .addItem info => Vis.addItem s info
  | .updateItem info => Vis.updateItem s info

/-- The scene a caller is left with: exceptions can be caught, a failed
assertion ends the process. -/
def survivor : Outcome Failure OpenGLScene → Option OpenGLScene
  | .done s => some s
  | .raised (.assertion _) _ => none
  | .raised _ s => some s

def act (process : Option OpenGLScene) (c : Call) : Option OpenGLScene :=
  process.bind fun s => survivor (call s c)

/-- Bookkeeping is in order, and the next reset removes every object and every
drawable before it adds new ones. -/
def InOrder (process : Option OpenGLScene) : Prop :=
  ∀ s, process = some s → Bookkept s ∧
    ∃ t, Vis.eraseRoot s = .done t ∧ (∀ o, t.graph o = none) ∧ ∀ d, t.drawables d = none

def Tidy (process : Option OpenGLScene) (c : Call) : Prop :=
  ∀ s, process = some s →
    match c with
    | .reset _ items => DeclaresTree items ∧
        ∀ key info, items.lookup key = some info → validFormat info = true
    | .addItem info => info.geometryInfo.isSome → s.objects info.idValue = none ∧
        validFormat info = true ∧ (s.objects info.parentValue).isSome
    | .updateItem info => (s.objects info.idValue).isSome → validFormat info = true →
        (s.objects info.parentValue).isSome

structure Filed (b : Books) : Prop where
  owned : ∀ d a, b.drawables d = some a → ∃ id h, b.packages id = some h ∧ h.drawable = d
  placed : ∀ o, (b.nodes o).isSome → ∃ id h, b.packages id = some h ∧ h.object = o

def Rooted (b : Books) : Prop :=
  ∃ h, b.packages "" = some h ∧ b.root = some h.object ∧
    ∀ o, (b.nodes o).isSome → Below b.up o h.object

structure Kept (b : Books) : Prop where
  wired : Wired b
  filed : Filed b
  rooted : Rooted b

theorem bookkept_of_kept {s : OpenGLScene} (h : Kept (books s)) : Bookkept s where
  owned d drawable hd := by
    have ha : (books s).drawables d = some ⟨drawable.object, drawable.mesh⟩ := by
      simp [books, hd]
    obtain ⟨id, g, hid, rfl⟩ := h.filed.owned d _ ha
    have hparts := h.wired.attached id g hid
    rw [ha, Option.some.injEq, Attachment.mk.injEq] at hparts
    obtain ⟨package, hp, rfl⟩ := Option.map_eq_some_iff.mp hid
    refine ⟨id, ⟨package, hp, rfl, hparts.1.symm, hparts.2.symm⟩, ?_⟩
    rintro id' ⟨package', hp', hd', -⟩
    have hb : (books s).packages id' = some (handles package') := by simp [books, hp']
    exact h.wired.drawable_inj hb hid hd'
  registered id package hp := by
    have ha := h.wired.attached id (handles package) (by simp [books, hp])
    obtain ⟨drawable, hd, he⟩ := Option.map_eq_some_iff.mp ha
    rw [Attachment.mk.injEq] at he
    exact ⟨drawable, hd, he.1, he.2⟩
  live id package hp := by
    have ho := h.wired.object_live id (handles package) (by simp [books, hp])
    simpa [books, handles] using ho
  rooted := by
    obtain ⟨g, -, hr, hb⟩ := h.rooted
    refine ⟨g.object, hr, fun o ho => ?_⟩
    rw [← up_books]
    exact hb o (by simpa [books] using ho)

theorem emptied_of_kept {b : Books} (h : Kept b) :
    (∀ o, (emptied b).nodes o = none) ∧ ∀ d, (emptied b).drawables d = none := by
  obtain ⟨g, -, hr, hb⟩ := h.rooted
  have hn : ∀ o, (emptied b).nodes o = (b.eraseObject g.object).nodes o := by
    simp [emptied, Books.eraseRoot, hr]
  have hd : ∀ d, (emptied b).drawables d = (b.eraseObject g.object).drawables d := by
    simp [emptied, Books.eraseRoot, hr]
  constructor
  · intro o
    rw [hn, ← Option.not_isSome_iff_eq_none, eraseObject_nodes h.wired]
    exact fun ho => ho.2 (hb o ho.1)
  · intro d
    rw [hd, Option.eq_none_iff_forall_ne_some]
    intro a ha
    obtain ⟨ha, hna⟩ := (eraseObject_drawables h.wired g.object d a).mp ha
    exact hna (hb a.object (h.wired.drawn_live d a ha))

theorem rootOnTop_of_kept {s : OpenGLScene} (h : Kept (books s)) : RootOnTop s := by
  intro r hr
  obtain ⟨g, -, hroot, hbelow⟩ := h.rooted
  obtain rfl : g.object = r := Option.some.inj (hroot.symm.trans hr)
  rw [← up_books, Option.eq_none_iff_forall_ne_some]
  intro p hp
  exact h.wired.acyclic _ _ hp (hbelow p (h.wired.up_live _ p hp))

theorem inOrder_of_kept {s : OpenGLScene} (h : Kept (books s)) : InOrder (some s) := by
  intro s' hs
  cases hs
  obtain ⟨hn, hd⟩ := emptied_of_kept h
  rw [← books_cleared] at hn hd
  refine ⟨bookkept_of_kept h, erased s, eraseRoot_done.mpr ⟨rootOnTop_of_kept h, rfl⟩,
    fun o => ?_, fun d => ?_⟩
  · simpa [books] using hn o
  · simpa [books] using hd d

theorem filed_emplace {b : Books} (h : Filed b) {key : String} (hk : b.packages key = none) :
    Filed (b.emplace key) := by
  have hnew : (b.emplace key).packages key = some ⟨b.next + 1, b.next, b.next + 2⟩ := by
    simp [packages_emplace, hk]
  have hold : ∀ id g, b.packages id = some g → (b.emplace key).packages id = some g := by
    intro id g hid
    have hne : id ≠ key := fun he => by simp [he, hk] at hid
    simp [packages_emplace, hne, hid]
  constructor
  · intro d a hd
    by_cases he : d = b.next + 2
    · exact ⟨key, _, hnew, he.symm⟩
    · obtain ⟨id, g, hid, hg⟩ := h.owned d a (by simpa [Books.emplace, he] using hd)
      exact ⟨id, g, hold id g hid, hg⟩
  · intro o ho
    by_cases he : o = b.next
    · exact ⟨key, _, hnew, he.symm⟩
    · obtain ⟨id, g, hid, hg⟩ := h.placed o (by simpa [Books.emplace, he] using ho)
      exact ⟨id, g, hold id g hid, hg⟩

theorem filed_sameParts {b b' : Books} (h : Filed b) (hp : SameParts b b') : Filed b' where
  owned d a hd := by
    rw [hp.packages]
    exact h.owned d a (by rw [← hp.drawables, hd])
  placed o ho := by
    rw [hp.packages]
    exact h.placed o (by rw [← hp.live, ho])

/-- The items of a tree, each linked as declared, hang below the root. -/
theorem rooted_of_links {b : Books} (hw : Wired b) (hf : Filed b) {h : Handles}
    (h0 : b.packages "" = some h) (hr : b.root = some h.object)
    (hl : ∀ id, (b.packages id).isSome → id = "" ∨ ∃ parent, Hangs b id parent) : Rooted b := by
  refine ⟨h, h0, hr, fun o ho => ?_⟩
  have hfin : {o | (b.nodes o).isSome = true}.Finite :=
    (Set.finite_lt_nat b.next).subset fun o ho => hw.node_lt o ho
  refine below_of_finite hw.acyclic hfin (fun a ha => ?_) ho
  obtain ⟨id, g, hid, rfl⟩ := hf.placed a ha
  rcases hl id (by simp [hid]) with rfl | ⟨parent, g', above, hg', ha, hu⟩
  · rw [h0] at hid
    cases hid
    exact Or.inl rfl
  · rw [hid] at hg'
    cases hg'
    exact Or.inr ⟨above.object, hu, hw.object_live parent above ha⟩

theorem kept_setParent {b : Books} (hb : Kept b) {id parent : String} {h above : Handles}
    (hid : b.packages id = some h) (hp : b.packages parent = some above) :
    Kept (b.setParent h.object above.object) := by
  have ho := hb.wired.object_live id h hid
  have ha := hb.wired.object_live parent above hp
  have hparts := sameParts_setParent b h.object above.object
  refine ⟨wired_setParent hb.wired ho ha, filed_sameParts hb.filed hparts, ?_⟩
  obtain ⟨g, h0, hr, hbelow⟩ := hb.rooted
  refine ⟨g, by rw [hparts.packages, h0], by rw [hparts.root, hr], fun o hlive => ?_⟩
  rw [hparts.live] at hlive
  rcases up_setParent hb.wired (p := above.object) ho with ⟨-, he⟩ | ⟨hn, hu⟩
  · rw [he]
    exact hbelow o hlive
  · rw [hu]
    exact below_attach hn (hbelow _ ha) (hbelow o hlive)

theorem kept_updateItem {b : Books} (hb : Kept b) {id parent : String} {valid : Bool}
    (h : (b.packages id).isSome → valid = true → (b.packages parent).isSome) :
    Kept (b.updateItem id parent valid) := by
  cases hid : b.packages id with
  | none => simpa [Books.updateItem, hid] using hb
  | some g =>
    cases valid with
    | false => simpa [Books.updateItem, hid] using hb
    | true =>
      obtain ⟨above, hp⟩ := Option.isSome_iff_exists.mp (h (by simp [hid]) rfl)
      rw [updateItem_known hid hp]
      exact kept_setParent hb hid hp

theorem kept_addItem {b : Books} (hb : Kept b) {id parent : String}
    (hid : b.packages id = none) (hp : (b.packages parent).isSome) :
    Kept ((b.emplace id).updateItem id parent true) := by
  obtain ⟨above, hp⟩ := Option.isSome_iff_exists.mp hp
  obtain ⟨-, hparts, hu⟩ := addItem_moves hb.wired hid hp
  have habove := hb.wired.object_live parent above hp
  have hn := not_below_fresh hb.wired habove
  obtain ⟨g, h0, hr, hbelow⟩ := hb.rooted
  have hne0 : "" ≠ id := fun he => by simp [← he, h0] at hid
  refine ⟨wired_updateItem (wired_emplace hb.wired id) id parent true,
    filed_sameParts (filed_emplace hb.filed hid) hparts, g,
    by simp [hparts.packages, packages_emplace, hne0, h0], by rw [hparts.root]; exact hr,
    fun o hlive => ?_⟩
  rw [hparts.live] at hlive
  rw [hu]
  by_cases ho : o = b.next
  · rw [ho]
    exact below_step (attach_self _ _ _) (below_attach hn (hbelow _ habove) (hbelow _ habove))
  · exact below_attach hn (hbelow _ habove)
      (hbelow o (by simpa [Books.emplace, ho] using hlive))

structure Opened (b : Books) : Prop where
  filed : Filed b
  root : ∃ h, b.packages "" = some h ∧ b.root = some h.object

theorem opened_emplace {b : Books} (hb : Opened b) {key : String} (hk : b.packages key = none) :
    Opened (b.emplace key) := by
  obtain ⟨h, h0, hr⟩ := hb.root
  have hne : "" ≠ key := fun he => by simp [← he, h0] at hk
  exact ⟨filed_emplace hb.filed hk, h, by simp [packages_emplace, hne, h0], hr⟩

theorem opened_emplaceAll (entries : List (String × SceneItemInfo)) {s : OpenGLScene}
    (hb : Opened (books s)) (hn : (entries.map Prod.fst).Nodup)
    (hk : ∀ key ∈ entries.map Prod.fst, (books s).packages key = none) :
    Opened (books (emplaceAll s entries)) := by
  induction entries generalizing s with
  | nil => exact hb
  | cons entry entries ih =>
    rw [List.map_cons, List.nodup_cons] at hn
    have hfree := hk entry.1 (by simp)
    refine ih ?_ hn.2 fun key hm => ?_
    · rw [books_emplace]
      exact opened_emplace hb hfree
    · have hne : key ≠ entry.1 := fun he => hn.1 (he ▸ hm)
      rw [books_emplace, packages_emplace, if_neg (fun h => hne h.1)]
      exact hk key (List.mem_cons_of_mem _ hm)

theorem opened_freshRoot {s : OpenGLScene}
    (hn : ∀ o, (emptied (books s)).nodes o = none)
    (hd : ∀ d, (emptied (books s)).drawables d = none) : Opened (books (Vis.freshRoot (erased s))) := by
  have hfiled : Filed (emptied (books s)) :=
    ⟨fun d a h => by simp [hd] at h, fun o h => by simp [hn] at h⟩
  have hfree : (emptied (books s)).packages "" = none := rfl
  have hroot : (emptied (books s)).root = some (emptied (books s)).next := by
    unfold emptied Books.eraseRoot
    cases (books s).root <;> rfl
  rw [books_freshRoot]
  show Opened (Books.emplace (emptied (books s)) "")
  generalize emptied (books s) = b at *
  have hnew : (b.emplace "").packages "" = some ⟨b.next + 1, b.next, b.next + 2⟩ := by
    rw [packages_emplace, if_pos ⟨rfl, hfree⟩]
  exact ⟨filed_emplace hfiled hfree, _, hnew, hroot⟩

theorem packages_freshRoot (s : OpenGLScene) {key : String} (h : key ≠ "") :
    (books (Vis.freshRoot (erased s))).packages key = none := by
  rw [books_freshRoot]
  show (Books.emplace (emptied (books s)) "").packages key = none
  rw [packages_emplace, if_neg (fun he => h he.1)]
  rfl

theorem kept_construct : Kept (books construct) := by
  have hopen : Opened (books construct) :=
    opened_freshRoot (s := {}) (fun o => rfl) (fun d => rfl)
  obtain ⟨h, h0, hr⟩ := hopen.root
  refine ⟨wired_construct, hopen.filed,
    rooted_of_links wired_construct hopen.filed h0 hr fun id hid => Or.inl ?_⟩
  by_contra hne
  change ((books (Vis.freshRoot (erased {}))).packages id).isSome = true at hid
  rw [packages_freshRoot {} hne] at hid
  cases hid

theorem kept_reset (order : MapOrder) {s s' : OpenGLScene} (hs : Kept (books s))
    {items : SceneItems} (ht : DeclaresTree items)
    (hl : Relinked (books (emplaceAll (Vis.freshRoot (erased s)) (order.first items))) (books s')
      ((order.second items).map Prod.snd)) : Kept (books s') := by
  obtain ⟨hn, hd⟩ := emptied_of_kept hs
  have hfirst := order.first_iterates items
  have hopen := opened_emplaceAll (order.first items) (opened_freshRoot hn hd) hfirst.keysNodup
    fun key hk => packages_freshRoot s fun he =>
      ht.nonempty (he ▸ (mem_keys_iff hfirst key).mp hk)
  obtain ⟨h, h0, hr⟩ := hopen.root
  have hfiled := filed_sameParts hopen.filed hl.parts
  refine ⟨hl.wired, hfiled, rooted_of_links hl.wired hfiled (by rw [hl.parts.packages, h0])
    (by rw [hl.parts.root, hr]) fun id hid => ?_⟩
  rw [hl.parts.packages, books_known, opened_known order hs.wired] at hid
  apply hid.imp_right
  intro hid
  have hsecond := order.second_iterates items
  have hmem := (ids_perm ht hsecond).mem_iff.mp ((mem_keys_iff hsecond id).mpr hid)
  obtain ⟨info, hm, rfl⟩ := List.mem_map.mp hmem
  exact ⟨info.parentValue, hl.declared info hm⟩

def Alive (process : Option OpenGLScene) : Prop := ∀ s, process = some s → Kept (books s)

theorem survivor_state {o : Outcome Failure OpenGLScene} {s : OpenGLScene}
    (h : survivor o = some s) : o.state = s := by
  cases o with
  | done t => exact Option.some.inj h
  | raised failure t =>
    cases failure with
    | assertion expression => cases h
    | outOfRange => exact Option.some.inj h
    | invalidArgument what => exact Option.some.inj h

theorem alive_act (process : Option OpenGLScene) (c : Call) (h : Alive process)
    (hg : Tidy process c) : Alive (act process c) := by
  intro s' hs'
  obtain ⟨s, rfl, hcall⟩ := Option.bind_eq_some_iff.mp hs'
  have hk := h s rfl
  have hg := hg s rfl
  have hstate := survivor_state hcall
  cases c with
  | reset order items =>
    rcases reset_links order hk.wired hg.1 hg.2 with ⟨t, ht, hl⟩ | ⟨expression, t, ha⟩
    · rw [call, ht] at hcall
      cases hcall
      exact kept_reset order hk hg.1 hl
    · rw [call, ha] at hcall
      cases hcall
  | addItem info =>
    rw [← hstate]
    show Kept (books (Vis.addItem s info).state)
    unfold Vis.addItem
    split
    · rename_i hgeo
      obtain ⟨hid, hv, hp⟩ := hg hgeo
      rw [books_updateItem, books_emplace, hv]
      exact kept_addItem hk (by simp [books, hid]) (by rwa [books_known])
    · exact hk
  | updateItem info =>
    rw [← hstate, call, books_updateItem]
    apply kept_updateItem hk
    intro hid hv
    rw [books_known] at hid ⊢
    exact hg hid hv

theorem inOrder_of_alive {process : Option OpenGLScene} (h : Alive process) :
    InOrder process := by
  intro s hs
  exact inOrder_of_kept (h s hs) s rfl

/-- In every run of calls that leave nothing behind, bookkeeping is in order
in every scene, after calls that return and calls that throw. -/
theorem tidy_calls_keep_order (calls : List Call) (h : Along act Tidy (some construct) calls) :
    Everywhere act InOrder (some construct) calls := by
  have halive : Alive (some construct) := by
    intro s hs
    cases hs
    exact kept_construct
  exact everywhere_mono act (fun _ => inOrder_of_alive)
    (everywhere_of_along act alive_act halive h)

/-- Adding an item under a known id registers a drawable that no package
owns: the map keeps the old package. -/
theorem known_add_leaks {s s' : OpenGLScene} (hs : Wired (books s)) {info : SceneItemInfo}
    (hid : (s.objects info.idValue).isSome) (hg : info.geometryInfo.isSome)
    (h : Vis.addItem s info = .done s') : ¬ Bookkept s' := by
  intro hk
  rw [Vis.addItem, if_pos hg] at h
  obtain ⟨own, above, -, -, hb⟩ := updateItem_moved (wired_call_emplace hs _) h
  rw [books_emplace] at hb
  rw [← books_known] at hid
  have hparts := sameParts_setParent ((books s).emplace info.idValue) own.object above.object
  have hnew : (books s').drawables (s.next + 2) = some ⟨s.next, s.next + 1⟩ := by
    rw [hb, hparts.drawables]
    simp [Books.emplace, books]
  obtain ⟨drawable, hd, -⟩ := Option.map_eq_some_iff.mp hnew
  obtain ⟨id, ⟨package, hp, hpd, -⟩, -⟩ := hk.owned _ drawable hd
  have hold : (books s).packages id = some (handles package) := by
    have hpk : (books s').packages id = some (handles package) := by simp [books, hp]
    rw [hb, hparts.packages, packages_emplace] at hpk
    have hne : (books s).packages info.idValue ≠ none := by
      intro hn
      simp [hn] at hid
    simpa [hne] using hpk
  have hlt := hs.drawable_lt _ _ (hs.attached id _ hold)
  change package.drawable < s.next at hlt
  omega

def shapedItem (id parent : String) : SceneItemInfo where
  id := some ⟨id⟩
  geometryInfo := some { positions := some [one, one, one] }
  parent := some ⟨parent⟩

def pair : SceneItems :=
  (Finmap.insert "a" (shapedItem "a" "") ∅).insert "b" (shapedItem "b" "a")

theorem pair_lookup {key : String} {info : SceneItemInfo} (h : pair.lookup key = some info) :
    key = "b" ∧ info = shapedItem "b" "a" ∨ key = "a" ∧ info = shapedItem "a" "" := by
  rw [pair, lookup_insert_ite, lookup_insert_ite] at h
  split at h
  · exact Or.inl ⟨by assumption, by simpa using h.symm⟩
  · split at h
    · exact Or.inr ⟨by assumption, by simpa using h.symm⟩
    · simp at h

theorem pair_declares {id parent : String} (h : Declares pair id parent) :
    id = "b" ∧ parent = "a" ∨ id = "a" ∧ parent = "" := by
  obtain ⟨key, info, hl, rfl, rfl⟩ := h
  rcases pair_lookup hl with ⟨-, rfl⟩ | ⟨-, rfl⟩
  · exact Or.inl ⟨rfl, rfl⟩
  · exact Or.inr ⟨rfl, rfl⟩

theorem pair_tree : DeclaresTree pair where
  nonempty := by decide
  covered key hk := by
    obtain ⟨info, hl⟩ := (mem_iff_lookup pair key).mp hk
    rcases pair_lookup hl with ⟨rfl, rfl⟩ | ⟨rfl, rfl⟩
    · exact ⟨"b", _, hl, rfl⟩
    · exact ⟨"a", _, hl, rfl⟩
  parents key info hl := by
    rcases pair_lookup hl with ⟨-, rfl⟩ | ⟨-, rfl⟩
    · exact Or.inr (by decide)
    · exact Or.inl rfl
  acyclic := irrefl_of_rank (fun id => if id = "b" then 2 else if id = "a" then 1 else 0)
    fun id parent h => by
      rcases pair_declares h with ⟨rfl, rfl⟩ | ⟨rfl, rfl⟩ <;> decide

noncomputable def tidyCalls : List Call :=
  [.addItem (shapedItem "a" ""), .addItem (shapedItem "b" "a"), .updateItem (shapedItem "b" ""),
    .reset entryOrder pair]

theorem tidyCalls_tidy : Along act Tidy (some construct) tidyCalls := by
  refine ⟨?_, ?_, ?_, ?_, trivial⟩
  · rintro s ⟨⟩ -
    exact ⟨rfl, rfl, rfl⟩
  · rintro s ⟨⟩ -
    exact ⟨rfl, rfl, rfl⟩
  · rintro s ⟨⟩ - -
    rfl
  · rintro s -
    refine ⟨pair_tree, fun key info hl => ?_⟩
    rcases pair_lookup hl with ⟨-, rfl⟩ | ⟨-, rfl⟩ <;> rfl

theorem tidyCalls_keep_order : Everywhere act InOrder (some construct) tidyCalls :=
  tidy_calls_keep_order tidyCalls tidyCalls_tidy

theorem second_add_leaks : ¬ InOrder (run act (some construct)
    [.addItem (shapedItem "item" ""), .addItem (shapedItem "item" "")]) := by
  obtain ⟨s, hs⟩ : ∃ s, Vis.addItem construct (shapedItem "item" "") = .done s := ⟨_, rfl⟩
  obtain ⟨t, ht⟩ : ∃ t, Vis.addItem s (shapedItem "item" "") = .done t := by
    cases hs
    exact ⟨_, rfl⟩
  have hw : Wired (books s) := by
    have hw := wired_call_addItem wired_construct (shapedItem "item" "")
    rwa [hs] at hw
  have hrun : run act (some construct)
      [.addItem (shapedItem "item" ""), .addItem (shapedItem "item" "")] = some t := by
    simp only [run, act, Option.bind_some, call, hs, ht, survivor]
  have hknown : (s.objects (shapedItem "item" "").idValue).isSome := by
    cases hs
    rfl
  rw [hrun]
  exact fun h => known_add_leaks hw hknown rfl ht (h t rfl).1

end GVS.Bookkeeping
