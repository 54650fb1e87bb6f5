import Gvs.SceneBooks

/-!
# The scene stays wired

In every state the viewer can be brought into, by calls that return or raise,
the packages have live and unshared objects and drawables and the graph is a
forest. Duplicate and missing ids only ever leave objects and drawables
behind; they never make a pointer dangle.
-/

set_option autoImplicit false

namespace GVS.Wiring
open GVS.Proto GVS.Vis GVS.SceneBooks ParentForest

structure Wired (b : Books) : Prop where
  node_lt : ∀ o, (b.nodes o).isSome → o < b.next
  drawable_lt : ∀ d a, b.drawables d = some a → d < b.next
  up_live : ∀ o p, b.up o = some p → (b.nodes p).isSome
  acyclic : Acyclic b.up
  object_live : ∀ id h, b.packages id = some h → (b.nodes h.object).isSome
  attached : ∀ id h, b.packages id = some h → b.drawables h.drawable = some ⟨h.object, h.address⟩
  object_inj : ∀ id id' h h', b.packages id = some h → b.packages id' = some h' →
    h.object = h'.object → id = id'
  drawn_live : ∀ d a, b.drawables d = some a → (b.nodes a.object).isSome

theorem live_of_up {b : Books} {o p : ℕ} (h : b.up o = some p) : (b.nodes o).isSome := by
  cases hn : b.nodes o with
  | none => simp [Books.up, hn] at h
  | some q => rfl

theorem up_of_dead {b : Books} {o : ℕ} (h : b.nodes o = none) : b.up o = none := by
  simp [Books.up, h]

namespace Wired

theorem climbs_iff {b : Books} (hb : Wired b) (a c : ℕ) :
    climbs b.up b.next a c = true ↔ Below b.up a c :=
  ParentForest.climbs_iff hb.acyclic (Finset.range b.next)
    (fun _ _ h => Finset.mem_range.mpr (hb.node_lt _ (live_of_up h))) b.next (by simp) a c

theorem fresh_dead {b : Books} (hb : Wired b) {n : ℕ} (hn : b.next ≤ n) : b.nodes n = none := by
  cases h : b.nodes n with
  | none => rfl
  | some q =>
    have hlt := hb.node_lt n (by simp [h])
    omega

theorem drawable_inj {b : Books} (hb : Wired b) {id id' : String} {h h' : Handles}
    (hi : b.packages id = some h) (hi' : b.packages id' = some h')
    (hd : h.drawable = h'.drawable) : id = id' := by
  have ha := hb.attached id h hi
  rw [hd, hb.attached id' h' hi'] at ha
  exact hb.object_inj id id' h h' hi hi' (by injection ha with ha; injection ha with ho; exact ho.symm)

end Wired

theorem wired_empty : Wired (books {}) where
  node_lt o h := by simp [books] at h
  drawable_lt d a h := by simp [books] at h
  up_live o p h := by simp [Books.up, books] at h
  acyclic a b h := by simp [Books.up, books] at h
  object_live id h hp := by simp [books] at hp
  attached id h hp := by simp [books] at hp
  object_inj id id' h h' hp := by simp [books] at hp
  drawn_live d a h := by simp [books] at h

theorem up_emplace {b : Books} (hb : Wired b) (key : String) : (b.emplace key).up = b.up := by
  ext o : 1
  by_cases ho : o = b.next
  · subst ho
    rw [up_of_dead (hb.fresh_dead (le_refl _))]
    simp [Books.up, Books.emplace]
  · simp [Books.up, Books.emplace, ho]

theorem nodes_emplace_live {b : Books} (key : String) {o : ℕ} (h : (b.nodes o).isSome) :
    ((b.emplace key).nodes o).isSome := by
  by_cases ho : o = b.next
  · simp [Books.emplace, ho]
  · simpa [Books.emplace, ho] using h

theorem packages_emplace (b : Books) (key id : String) :
    (b.emplace key).packages id =
      if id = key ∧ b.packages key = none then some ⟨b.next + 1, b.next, b.next + 2⟩
      else b.packages id := by
  cases hk : b.packages key with
  | none => by_cases hid : id = key <;> simp [Books.emplace, hk, hid]
  | some h => simp [Books.emplace, hk]

theorem wired_emplace {b : Books} (hb : Wired b) (key : String) : Wired (b.emplace key) where
  node_lt o h := by
    show o < b.next + 3
    by_cases ho : o = b.next
    · omega
    · have hlt := hb.node_lt o (by simpa [Books.emplace, ho] using h)
      omega
  drawable_lt d a h := by
    show d < b.next + 3
    by_cases hd : d = b.next + 2
    · omega
    · have hlt := hb.drawable_lt d a (by simpa [Books.emplace, hd] using h)
      omega
  up_live o p h := by
    rw [up_emplace hb] at h
    exact nodes_emplace_live key (hb.up_live o p h)
  acyclic := by
    rw [up_emplace hb]
    exact hb.acyclic
  object_live id h hp := by
    rw [packages_emplace] at hp
    split at hp
    · cases hp
      simp [Books.emplace]
    · exact nodes_emplace_live key (hb.object_live id h hp)
  attached id h hp := by
    rw [packages_emplace] at hp
    split at hp
    · cases hp
      simp [Books.emplace]
    · have ha := hb.attached id h hp
      have hlt := hb.drawable_lt _ _ ha
      have hne : h.drawable ≠ b.next + 2 := by omega
      simpa [Books.emplace, hne] using ha
  object_inj id id' h h' hp hp' ho := by
    rw [packages_emplace] at hp hp'
    split at hp <;> split at hp'
    · rename_i hk hk'
      rw [hk.1, hk'.1]
    · cases hp
      have hlt := hb.node_lt _ (hb.object_live id' h' hp')
      simp only at ho
      omega
    · cases hp'
      have hlt := hb.node_lt _ (hb.object_live id h hp)
      simp only at ho
      omega
    · exact hb.object_inj id id' h h' hp hp' ho
  drawn_live d a h := by
    by_cases hd : d = b.next + 2
    · subst hd
      obtain rfl : (⟨b.next, b.next + 1⟩ : Attachment) = a := by simpa [Books.emplace] using h
      simp [Books.emplace]
    · exact nodes_emplace_live key (hb.drawn_live d a (by simpa [Books.emplace, hd] using h))

theorem wired_eraseKey {b : Books} (hb : Wired b) (id : String) : Wired (b.eraseKey id) := by
  have hp : ∀ k h, (b.eraseKey id).packages k = some h → b.packages k = some h := by
    intro k h hk
    by_cases he : k = id
    · simp [Books.eraseKey, he] at hk
    · simpa [Books.eraseKey, he] using hk
  exact {
    node_lt := hb.node_lt
    drawable_lt := hb.drawable_lt
    up_live := hb.up_live
    acyclic := hb.acyclic
    object_live := fun k h hk => hb.object_live k h (hp k h hk)
    attached := fun k h hk => hb.attached k h (hp k h hk)
    object_inj := fun k k' h h' hk hk' => hb.object_inj k k' h h' (hp k h hk) (hp k' h' hk')
    drawn_live := hb.drawn_live }

theorem nodes_setParent_live (b : Books) (o p k : ℕ) :
    ((b.setParent o p).nodes k).isSome = (b.nodes k).isSome := by
  unfold Books.setParent
  split
  · rfl
  · by_cases hk : k = o
    · subst hk
      simp
    · simp [hk]

/-- Magnum moves an object unless the new parent is at or below it. -/
theorem up_setParent {b : Books} (hb : Wired b) {o p : ℕ} (ho : (b.nodes o).isSome) :
    (Below b.up p o ∧ b.setParent o p = b) ∨
      (¬ Below b.up p o ∧ (b.setParent o p).up = attach b.up o p) := by
  by_cases hc : climbs b.up b.next p o = true
  · exact Or.inl ⟨(hb.climbs_iff p o).mp hc, by simp [Books.setParent, hc]⟩
  · refine Or.inr ⟨fun h => hc ((hb.climbs_iff p o).mpr h), funext fun k => ?_⟩
    obtain ⟨q, hq⟩ := Option.isSome_iff_exists.mp ho
    by_cases hk : k = o
    · subst hk
      simp [Books.up, Books.setParent, hc, attach_self, hq]
    · rw [attach_of_ne b.up o p hk]
      simp [Books.up, Books.setParent, hc, hk]

theorem setParent_fields (b : Books) (o p : ℕ) :
    (b.setParent o p).packages = b.packages ∧ (b.setParent o p).drawables = b.drawables ∧
      (b.setParent o p).root = b.root ∧ (b.setParent o p).next = b.next := by
  unfold Books.setParent
  split <;> exact ⟨rfl, rfl, rfl, rfl⟩

theorem wired_setParent {b : Books} (hb : Wired b) {o p : ℕ} (ho : (b.nodes o).isSome)
    (hp : (b.nodes p).isSome) : Wired (b.setParent o p) := by
  rcases up_setParent hb ho with ⟨-, he⟩ | ⟨hn, hu⟩
  · rw [he]
    exact hb
  · obtain ⟨h1, h2, -, h4⟩ := setParent_fields b o p
    exact {
      node_lt := fun k hk => by
        rw [nodes_setParent_live] at hk
        rw [h4]
        exact hb.node_lt k hk
      drawable_lt := fun d a hd => by
        rw [h2] at hd
        rw [h4]
        exact hb.drawable_lt d a hd
      up_live := fun k q hk => by
        rw [nodes_setParent_live]
        rw [hu] at hk
        by_cases he : k = o
        · rw [he, attach_self] at hk
          cases hk
          exact hp
        · rw [attach_of_ne b.up o p he] at hk
          exact hb.up_live k q hk
      acyclic := by
        rw [hu]
        exact acyclic_attach hb.acyclic hn
      object_live := fun id h hk => by
        rw [h1] at hk
        rw [nodes_setParent_live]
        exact hb.object_live id h hk
      attached := fun id h hk => by
        rw [h1] at hk
        rw [h2]
        exact hb.attached id h hk
      object_inj := by
        rw [h1]
        exact hb.object_inj
      drawn_live := fun d a hd => by
        rw [h2] at hd
        rw [nodes_setParent_live]
        exact hb.drawn_live d a hd }

theorem wired_updateItem {b : Books} (hb : Wired b) (id parent : String) (valid : Bool) :
    Wired (b.updateItem id parent valid) := by
  unfold Books.updateItem
  cases hi : b.packages id with
  | none => exact hb
  | some h =>
    cases valid with
    | false => exact hb
    | true =>
      cases hp : b.packages parent with
      | none => simpa [hp] using wired_eraseKey hb id
      | some above =>
        simpa [hp] using wired_setParent hb (hb.object_live id h hi)
          (hb.object_live parent above hp)

theorem eraseObject_nodes {b : Books} (hb : Wired b) (r o : ℕ) :
    ((b.eraseObject r).nodes o).isSome ↔ (b.nodes o).isSome ∧ ¬ Below b.up o r := by
  rw [← hb.climbs_iff o r]
  by_cases hc : climbs b.up b.next o r = true <;> simp [Books.eraseObject, hc]

theorem eraseObject_up {b : Books} (hb : Wired b) (r o p : ℕ)
    (h : (b.eraseObject r).up o = some p) : b.up o = some p ∧ ¬ Below b.up o r := by
  have hl := (eraseObject_nodes hb r o).mp (live_of_up h)
  have hc : ¬ climbs b.up b.next o r = true := fun hc => hl.2 ((hb.climbs_iff o r).mp hc)
  simp only [Books.up, Books.eraseObject, hc] at h
  exact ⟨h, hl.2⟩

theorem eraseObject_drawables {b : Books} (hb : Wired b) (r d : ℕ) (a : Attachment) :
    (b.eraseObject r).drawables d = some a ↔ b.drawables d = some a ∧ ¬ Below b.up a.object r := by
  rw [← hb.climbs_iff a.object r]
  simp only [Books.eraseObject, Option.filter_eq_some_iff]
  simp

theorem wired_emptied {b : Books} (hb : Wired b) : Wired (emptied b) := by
  unfold emptied Books.eraseRoot
  cases hr : b.root with
  | none =>
    exact {
      node_lt := hb.node_lt
      drawable_lt := hb.drawable_lt
      up_live := hb.up_live
      acyclic := hb.acyclic
      object_live := fun id h hp => by simp at hp
      attached := fun id h hp => by simp at hp
      object_inj := fun id id' h h' hp => by simp at hp
      drawn_live := hb.drawn_live }
  | some r =>
    exact {
      node_lt := fun o h => hb.node_lt o ((eraseObject_nodes hb r o).mp h).1
      drawable_lt := fun d a h => hb.drawable_lt d a ((eraseObject_drawables hb r d a).mp h).1
      up_live := fun o p h => by
        obtain ⟨hu, hn⟩ := eraseObject_up hb r o p h
        exact (eraseObject_nodes hb r p).mpr
          ⟨hb.up_live o p hu, fun hp => hn (below_step hu hp)⟩
      acyclic := acyclic_mono (fun o p h => (eraseObject_up hb r o p h).1) hb.acyclic
      object_live := fun id h hp => by simp at hp
      attached := fun id h hp => by simp at hp
      object_inj := fun id id' h h' hp => by simp at hp
      drawn_live := fun d a h => by
        obtain ⟨hd, hn⟩ := (eraseObject_drawables hb r d a).mp h
        exact (eraseObject_nodes hb r a.object).mpr ⟨hb.drawn_live d a hd, hn⟩ }

theorem wired_freshRoot {b : Books} (hb : Wired b) : Wired b.freshRoot :=
  wired_emplace (wired_emptied hb) ""

theorem wired_construct : Wired (books construct) := by
  show Wired (books (Vis.freshRoot (erased {})))
  rw [books_freshRoot]
  exact wired_freshRoot wired_empty

theorem wired_call_emplace {s : OpenGLScene} (hs : Wired (books s)) (key : String) :
    Wired (books (Vis.emplace s key)) := by
  rw [books_emplace]
  exact wired_emplace hs key

theorem emplaceAll_keeps {P : Books → Prop} (h : ∀ b key, P b → P (b.emplace key))
    {s : OpenGLScene} (hs : P (books s)) (entries : List (String × SceneItemInfo)) :
    P (books (emplaceAll s entries)) := by
  induction entries generalizing s with
  | nil => exact hs
  | cons entry entries ih =>
    apply ih
    rw [books_emplace]
    exact h (books s) entry.1 hs

theorem wired_emplaceAll {s : OpenGLScene} (hs : Wired (books s))
    (entries : List (String × SceneItemInfo)) : Wired (books (emplaceAll s entries)) :=
  emplaceAll_keeps (P := Wired) (fun _ key hb => wired_emplace hb key) hs entries

theorem wired_call_updateItem {s : OpenGLScene} (hs : Wired (books s)) (info : SceneItemInfo) :
    Wired (books (Vis.updateItem s info).state) := by
  rw [books_updateItem]
  exact wired_updateItem hs _ _ _

theorem wired_of_updateItem {s s' : OpenGLScene} (hs : Wired (books s)) {info : SceneItemInfo}
    (h : Vis.updateItem s info = .done s') : Wired (books s') := by
  have hw := wired_call_updateItem hs info
  rwa [h] at hw

theorem wired_call_addItem {s : OpenGLScene} (hs : Wired (books s)) (info : SceneItemInfo) :
    Wired (books (addItem s info).state) := by
  unfold addItem
  split
  · exact wired_call_updateItem (wired_call_emplace hs _) info
  · exact hs

theorem wired_call_reset (order : MapOrder) {s : OpenGLScene} (hs : Wired (books s))
    (items : SceneItems) : Wired (books (reset order s items).state) := by
  by_cases htop : RootOnTop s
  · have hroot : Wired (books (Vis.freshRoot (erased s))) := by
      rw [books_freshRoot]
      exact wired_freshRoot hs
    rw [reset_onTop order htop]
    exact Outcome.drive_state (P := fun s => Wired (books s)) _
      (fun s item h => wired_call_updateItem h item.2) (wired_emplaceAll hroot _) _
  · rw [reset_hung order htop]
    exact hs

theorem wired_applyUpdate (order : MapOrder) {s : OpenGLScene} (hs : Wired (books s))
    (u : SceneUpdate) : Wired (books (applyUpdate order s u).state) := by
  cases u with
  | addItem info => exact wired_call_addItem hs info
  | updateItem info => exact wired_call_updateItem hs info
  | removeItem info => exact hs
  | resetAllItems items => exact wired_call_reset order hs items
  | updateNotSet => exact hs

/-- No pointer dangles after any updates, whether the last of them returned
or raised. -/
theorem wired_update (order : MapOrder) {s : OpenGLScene} (hs : Wired (books s))
    (us : List SceneUpdate) : Wired (books (update order s us).state) :=
  Outcome.drive_state (P := fun s => Wired (books s)) (applyUpdate order)
    (fun _ u h => wired_applyUpdate order h u) hs us

end GVS.Wiring
