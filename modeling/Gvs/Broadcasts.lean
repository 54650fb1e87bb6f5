import Gvs.RequestTable

/-!
# Well-formedness of the broadcast stream

The stream is read backwards from its end: an id is added since the last
reset when an `add_item` for it is followed by no reset. The server keeps the
ids added since the last reset equal to the keys of the stored scene, which
decides at every write whether an add or an update is due.
-/

set_option autoImplicit false

namespace GVS.Broadcasts
open GVS.Proto GVS.ItemDefaults GVS.Server GVS.RequestTable GuardedRuns

def NoReset (updates : List SceneUpdate) : Prop :=
  ∀ items, SceneUpdate.resetAllItems items ∉ updates

def AddedSinceReset (updates : List SceneUpdate) (id : String) : Prop :=
  ∃ before info after, updates = before ++ .addItem info :: after ∧
    info.idValue = id ∧ NoReset after

structure WellFormed (updates : List SceneUpdate) : Prop where
  addedOnce : ∀ before info after, updates = before ++ .addItem info :: after →
    ¬ AddedSinceReset before info.idValue
  updatedAfterAdd : ∀ before info after, updates = before ++ .updateItem info :: after →
    AddedSinceReset before info.idValue
  set : SceneUpdate.updateNotSet ∉ updates

theorem noReset_nil : NoReset [] := fun _ h => by cases h

theorem added_concat_of_noReset {updates : List SceneUpdate} {id : String} {u : SceneUpdate}
    (hu : ∀ items, u ≠ .resetAllItems items) (h : AddedSinceReset updates id) :
    AddedSinceReset (updates ++ [u]) id := by
  obtain ⟨before, info, after, rfl, hid, hn⟩ := h
  refine ⟨before, info, after ++ [u], by simp, hid, fun items hm => ?_⟩
  rcases List.mem_append.mp hm with hm | hm
  · exact hn items hm
  · exact hu items (List.mem_singleton.mp hm).symm

/-- An add that is not the last write was already there before it. -/
theorem added_of_concat {updates : List SceneUpdate} {id : String} {u : SceneUpdate}
    (h : AddedSinceReset (updates ++ [u]) id) :
    (∃ info, u = .addItem info ∧ info.idValue = id) ∨
      (AddedSinceReset updates id ∧ ∀ items, u ≠ .resetAllItems items) := by
  obtain ⟨before, info, after, he, hid, hn⟩ := h
  rcases List.eq_nil_or_concat after with rfl | ⟨after, last, rfl⟩
  · obtain ⟨-, hu⟩ := List.append_inj' he rfl
    exact Or.inl ⟨info, by simpa using hu, hid⟩
  · rw [List.concat_eq_append, ← List.cons_append, ← List.append_assoc] at he
    obtain ⟨hb, hu⟩ := List.append_inj' he rfl
    obtain rfl : u = last := by simpa using hu
    refine Or.inr ⟨⟨before, info, after, hb, hid, fun items hm => ?_⟩, fun items hu => ?_⟩
    · exact hn items (by simp [hm])
    · exact hn items (by simp [hu])

theorem added_addItem (updates : List SceneUpdate) (info : SceneItemInfo) (id : String) :
    AddedSinceReset (updates ++ [.addItem info]) id ↔
      id = info.idValue ∨ AddedSinceReset updates id := by
  constructor
  · intro h
    rcases added_of_concat h with ⟨info', he, hid⟩ | ⟨h, -⟩
    · cases he
      exact Or.inl hid.symm
    · exact Or.inr h
  · rintro (rfl | h)
    · exact ⟨updates, info, [], rfl, rfl, noReset_nil⟩
    · exact added_concat_of_noReset (fun _ => by simp) h

theorem added_updateItem (updates : List SceneUpdate) (info : SceneItemInfo) (id : String) :
    AddedSinceReset (updates ++ [.updateItem info]) id ↔ AddedSinceReset updates id := by
  constructor
  · intro h
    rcases added_of_concat h with ⟨info', he, -⟩ | ⟨h, -⟩
    · cases he
    · exact h
  · exact added_concat_of_noReset (fun _ => by simp)

theorem added_reset (updates : List SceneUpdate) (items : SceneItems) (id : String) :
    ¬ AddedSinceReset (updates ++ [.resetAllItems items]) id := by
  intro h
  rcases added_of_concat h with ⟨info', he, -⟩ | ⟨-, h⟩
  · cases he
  · exact h items rfl

theorem added_nil (id : String) : ¬ AddedSinceReset [] id := by
  rintro ⟨before, info, after, h, -⟩
  simp at h

theorem wellFormed_nil : WellFormed [] where
  addedOnce before info after h := by simp at h
  updatedAfterAdd before info after h := by simp at h
  set := by simp

def Due (updates : List SceneUpdate) : SceneUpdate → Prop
  | .addItem info => ¬ AddedSinceReset updates info.idValue
  | .updateItem info => AddedSinceReset updates info.idValue
  | .removeItem _ | .resetAllItems _ => True
  | .updateNotSet => False

theorem wellFormed_concat {updates : List SceneUpdate} {u : SceneUpdate}
    (h : WellFormed updates) (hu : Due updates u) : WellFormed (updates ++ [u]) where
  addedOnce before info after he := by
    rcases split_concat he with ⟨rfl, rfl⟩ | ⟨after', he⟩
    · exact hu
    · exact h.addedOnce before info after' he
  updatedAfterAdd before info after he := by
    rcases split_concat he with ⟨rfl, rfl⟩ | ⟨after', he⟩
    · exact hu
    · exact h.updatedAfterAdd before info after' he
  set hm := by
    rcases List.mem_append.mp hm with hm | hm
    · exact h.set hm
    · obtain rfl := List.mem_singleton.mp hm
      exact hu

def Tracked (s : SceneServer) : Prop :=
  WellFormed s.sceneStream ∧ ∀ id, id ∈ s.scene ↔ AddedSinceReset s.sceneStream id

theorem tracked_empty : Tracked {} :=
  ⟨wellFormed_nil, fun id => iff_of_false Finmap.notMem_empty (added_nil id)⟩

theorem tracked_step (s : SceneServer) (r : SceneUpdateRequest) (h : Tracked s) :
    Tracked (step s r) := by
  obtain ⟨hw, hk⟩ := h
  have hj := justified s.scene r
  rw [step_eq]
  cases hv : verdict s.scene r with
  | reject errorMsg => exact ⟨hw, hk⟩
  | create info =>
    rw [hv] at hj
    have hn : ¬ AddedSinceReset s.sceneStream info.idValue := by
      rw [← hk]
      exact Finmap.lookup_eq_none.mp hj.2.1
    refine ⟨wellFormed_concat hw hn, fun id => ?_⟩
    simp [perform, write, added_addItem, hk]
  | merge old info =>
    rw [hv] at hj
    have hm : info.idValue ∈ s.scene := mem_of_lookup hj.2.1
    refine ⟨wellFormed_concat hw ((hk _).mp hm), fun id => ?_⟩
    simp only [perform, write, added_updateItem, Finmap.mem_insert, ← hk]
    exact ⟨fun h => h.elim (fun he => he ▸ hm) (fun h => h), Or.inr⟩
  | announce old info =>
    rw [hv] at hj
    have hm : info.idValue ∈ s.scene := mem_of_lookup hj.2.1
    refine ⟨wellFormed_concat hw ((hk _).mp hm), fun id => ?_⟩
    simp [perform, write, added_updateItem, hk]
  | clear =>
    refine ⟨wellFormed_concat hw trivial, fun id => ?_⟩
    exact iff_of_false Finmap.notMem_empty (added_reset _ _ id)

def addsItem (id : String) : SceneUpdate → Bool
  | .addItem info => info.idValue = id
  | .updateItem _ | .removeItem _ | .resetAllItems _ | .updateNotSet => false

def addCount (id : String) (s : SceneServer) : ℕ := s.sceneStream.countP (addsItem id)

def SetsGeometry (id : String) (r : SceneUpdateRequest) : Prop :=
  ∃ info, (r = .safeSetItem info ∨ r = .replaceItem info) ∧
    info.idValue = id ∧ info.geometryInfo.isSome

theorem addCount_step (s : SceneServer) (r : SceneUpdateRequest) (id : String)
    (hr : r ≠ .clearAll) :
    (id ∈ s.scene ∧ id ∈ (step s r).scene ∧ addCount id (step s r) = addCount id s) ∨
    (id ∉ s.scene ∧ id ∈ (step s r).scene ∧ addCount id (step s r) = addCount id s + 1) ∨
    (id ∉ s.scene ∧ id ∉ (step s r).scene ∧ addCount id (step s r) = addCount id s) := by
  have hj := justified s.scene r
  rw [step_eq]
  cases hv : verdict s.scene r with
  | reject errorMsg => by_cases h : id ∈ s.scene <;> simp [perform, h]
  | create info =>
    rw [hv] at hj
    have hn : info.idValue ∉ s.scene := Finmap.lookup_eq_none.mp hj.2.1
    by_cases he : info.idValue = id
    · subst he
      exact Or.inr (Or.inl ⟨hn, by simp [perform, write],
        by simp [perform, write, addCount, addsItem]⟩)
    · have he' : id ≠ info.idValue := fun h => he h.symm
      by_cases h : id ∈ s.scene <;> simp [perform, write, addCount, addsItem, h, he, he']
  | merge old info =>
    rw [hv] at hj
    have hm : info.idValue ∈ s.scene := mem_of_lookup hj.2.1
    by_cases h : id ∈ s.scene
    · exact Or.inl ⟨h, by simp [perform, write, h], by simp [perform, write, addCount, addsItem]⟩
    · have he : id ≠ info.idValue := fun he => h (he ▸ hm)
      exact Or.inr (Or.inr ⟨h, by simp [perform, write, h, he],
        by simp [perform, write, addCount, addsItem]⟩)
  | announce old info =>
    by_cases h : id ∈ s.scene <;> simp [perform, write, addCount, addsItem, h]
  | clear =>
    rw [hv] at hj
    exact absurd hj hr

theorem setsGeometry_stored (s : SceneServer) (r : SceneUpdateRequest) (id : String)
    (h : SetsGeometry id r) : id ∈ (step s r).scene := by
  obtain ⟨info, hr, rfl, hg⟩ := h
  obtain ⟨g, hg⟩ := Option.isSome_iff_exists.mp hg
  rw [step_eq]
  cases hl : s.scene.lookup info.idValue with
  | none => rcases hr with rfl | rfl <;> simp [verdict, hl, hg, perform, write]
  | some old =>
    have hm := mem_of_lookup hl
    rcases hr with rfl | rfl <;> simp [verdict, hl, hg, perform, write, hm]

theorem stored_not_added_again (s : SceneServer) (rs : List SceneUpdateRequest) (id : String)
    (hs : id ∈ s.scene) (hr : .clearAll ∉ rs) : addCount id (run step s rs) = addCount id s := by
  induction rs generalizing s with
  | nil => rfl
  | cons r rs ih =>
    have hne : r ≠ .clearAll := fun h => hr (by simp [h])
    have hrest : SceneUpdateRequest.clearAll ∉ rs := fun h => hr (by simp [h])
    rcases addCount_step s r id hne with ⟨-, hm, hc⟩ | ⟨hn, -⟩ | ⟨hn, -⟩
    · rw [run, ih _ hm hrest, hc]
    · exact absurd hs hn
    · exact absurd hs hn

/-- Of the requests racing for one fresh id exactly one creates it. -/
theorem race_creates_once (s : SceneServer) (rs : List SceneUpdateRequest) (id : String)
    (hs : id ∉ s.scene) (hr : .clearAll ∉ rs) (h : ∃ r ∈ rs, SetsGeometry id r) :
    addCount id (run step s rs) = addCount id s + 1 := by
  induction rs generalizing s with
  | nil => simp at h
  | cons r rs ih =>
    have hne : r ≠ .clearAll := fun h => hr (by simp [h])
    have hrest : SceneUpdateRequest.clearAll ∉ rs := fun h => hr (by simp [h])
    rcases addCount_step s r id hne with ⟨hm, -⟩ | ⟨-, hm, hc⟩ | ⟨-, hn, hc⟩
    · exact absurd hm hs
    · rw [run, stored_not_added_again _ rs id hm hrest, hc]
    · have hlater : ∃ r ∈ rs, SetsGeometry id r := by
        obtain ⟨r', hr', hg⟩ := h
        rcases List.mem_cons.mp hr' with rfl | hr'
        · exact absurd (setsGeometry_stored s r' id hg) hn
        · exact ⟨r', hr', hg⟩
      rw [run, ih _ hn hrest hlater, hc]

/-- Requests of any number of clients, tagged with the client that sent them
and handled in any order. -/
theorem broadcasts_well_formed {κ : Type*} (rs : List (κ × SceneUpdateRequest)) :
    WellFormed (run step {} (rs.map Prod.snd)).sceneStream ∧
    (∀ id, id ∈ (run step {} (rs.map Prod.snd)).scene ↔
      AddedSinceReset (run step {} (rs.map Prod.snd)).sceneStream id) ∧
    (∀ (racing : List (κ × SceneUpdateRequest)) (id : String),
      id ∉ (run step {} (rs.map Prod.snd)).scene →
      .clearAll ∉ racing.map Prod.snd → (∃ r ∈ racing, SetsGeometry id r.2) →
      addCount id (run step {} ((rs ++ racing).map Prod.snd)) =
        addCount id (run step {} (rs.map Prod.snd)) + 1) := by
  have ht : Tracked (run step {} (rs.map Prod.snd)) :=
    run_invariant step tracked_step tracked_empty _
  refine ⟨ht.1, ht.2, fun racing id hn hc hr => ?_⟩
  rw [List.map_append, run_append]
  obtain ⟨r, hr, hg⟩ := hr
  exact race_creates_once _ _ id hn hc ⟨r.2, List.mem_map_of_mem hr, hg⟩

end GVS.Broadcasts
