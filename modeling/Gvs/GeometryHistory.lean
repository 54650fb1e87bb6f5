import Gvs.StoredItems

/-!
# The history of stored geometry

An item lives from the request that creates it to the next clear. During its
life its geometry is the one it was created with until a replace with geometry
for its id, and then the one that was sent last. Nothing else ends a life or
changes geometry.
-/

set_option autoImplicit false

namespace GVS.GeometryHistory
open GVS.Proto GVS.ItemDefaults GVS.Server GVS.RequestTable GuardedRuns

def replacement (id : String) : SceneUpdateRequest → Option GeometryInfo3D
  | .replaceItem info => if info.idValue = id then info.geometryInfo else none
  | .safeSetItem _ | .appendToItem _ | .updateItem _ | .removeItem _ => none
  | .clearAll | .updateNotSet => none

def lastReplacement (id : String) (rs : List SceneUpdateRequest) : Option GeometryInfo3D :=
  (rs.filterMap (replacement id)).getLast?

/-- The run splits where the item was created for the last time: it is stored
from there on, and nothing is cleared. -/
structure Life (id : String) (before : List SceneUpdateRequest) (given : SceneItemInfo)
    (creating : SceneUpdateRequest) (after : List SceneUpdateRequest) : Prop where
  sent : requestInfo creating = some given
  named : given.idValue = id
  absent : id ∉ (run step {} before).scene
  created : id ∈ (step (run step {} before) creating).scene
  kept : .clearAll ∉ after

theorem lastReplacement_cons (id : String) (r : SceneUpdateRequest)
    (rs : List SceneUpdateRequest) :
    lastReplacement id (r :: rs) = (lastReplacement id rs).or (replacement id r) := by
  unfold lastReplacement
  cases hr : replacement id r with
  | none => simp [hr]
  | some geometry => simp [hr, List.getLast?_cons]

theorem merged_geometryInfo (old info : SceneItemInfo) :
    (merged old info).geometryInfo = info.geometryInfo.or old.geometryInfo := by simp [merged]

theorem replacement_other {id : String} {r : SceneUpdateRequest} {info : SceneItemInfo}
    (hr : requestInfo r = some info) (hid : info.idValue ≠ id) : replacement id r = none := by
  cases r with
  | replaceItem given =>
    cases hr
    exact if_neg hid
  | safeSetItem given => rfl
  | appendToItem given => rfl
  | updateItem given => rfl
  | removeItem given => rfl
  | clearAll => rfl
  | updateNotSet => rfl

theorem merge_sends {scene : SceneItems} {r : SceneUpdateRequest} {old info : SceneItemInfo}
    (h : verdict scene r = .merge old info) : replacement info.idValue r = info.geometryInfo := by
  cases r with
  | replaceItem given =>
    cases hl : scene.lookup given.idValue with
    | some stored =>
      rw [verdict, hl] at h
      cases h
      exact if_pos rfl
    | none => cases hg : given.geometryInfo <;> simp [verdict, hl, hg] at h
  | safeSetItem given =>
    cases hl : scene.lookup given.idValue <;> cases hg : given.geometryInfo <;>
      simp only [verdict, hl, hg, reduceCtorEq] at h
    cases h
    exact hg.symm
  | appendToItem given =>
    cases hl : scene.lookup given.idValue <;> cases hg : given.geometryInfo <;>
      simp [verdict, hl, hg] at h
  | updateItem given => cases h
  | removeItem given => cases h
  | clearAll => cases h
  | updateNotSet => cases h

theorem rejected_sends_none {scene : SceneItems} {r : SceneUpdateRequest} {errorMsg : String}
    (h : verdict scene r = .reject errorMsg) {id : String} (hid : id ∈ scene) :
    replacement id r = none := by
  cases r with
  | replaceItem given =>
    apply if_neg
    rintro rfl
    obtain ⟨old, hl⟩ := (mem_iff_lookup scene _).mp hid
    simp [verdict, hl] at h
  | safeSetItem given => rfl
  | appendToItem given => rfl
  | updateItem given => rfl
  | removeItem given => rfl
  | clearAll => rfl
  | updateNotSet => rfl

/-- One request other than a clear keeps a stored item, and its geometry
unless it replaces it. -/
theorem geometry_step {s : SceneServer} {r : SceneUpdateRequest} {id : String}
    {old : SceneItemInfo} (hl : s.scene.lookup id = some old) (hr : r ≠ .clearAll) :
    ∃ new, (step s r).scene.lookup id = some new ∧
      new.geometryInfo = (replacement id r).or old.geometryInfo := by
  have hj := justified s.scene r
  have hkept : replacement id r = none →
      old.geometryInfo = (replacement id r).or old.geometryInfo := by
    intro hn
    rw [hn, Option.none_or]
  rw [step_eq]
  cases hv : verdict s.scene r with
  | reject errorMsg => exact ⟨old, hl, hkept (rejected_sends_none hv (mem_of_lookup hl))⟩
  | create info =>
    rw [hv] at hj
    have hid : info.idValue ≠ id := by
      rintro rfl
      cases hj.2.1.symm.trans hl
    exact ⟨old, by simp [perform, write, Ne.symm hid, hl], hkept (replacement_other hj.1 hid)⟩
  | merge stored info =>
    rw [hv] at hj
    by_cases hid : info.idValue = id
    · subst hid
      obtain rfl : stored = old := Option.some.inj (hj.2.1.symm.trans hl)
      exact ⟨merged stored info, by simp [perform, write],
        by rw [merged_geometryInfo, merge_sends hv]⟩
    · exact ⟨old, by simp [perform, write, Ne.symm hid, hl], hkept (replacement_other hj.1 hid)⟩
  | announce stored info =>
    rw [hv] at hj
    exact ⟨old, hl, hkept (by rw [hj.1]; rfl)⟩
  | clear =>
    rw [hv] at hj
    exact absurd hj hr

/-- A life goes on through every list of requests without a clear. -/
theorem geometry_run {rs : List SceneUpdateRequest} (hr : .clearAll ∉ rs) {s : SceneServer}
    {id : String} {old : SceneItemInfo} (hl : s.scene.lookup id = some old) :
    ∃ new, (run step s rs).scene.lookup id = some new ∧
      new.geometryInfo = (lastReplacement id rs).or old.geometryInfo := by
  induction rs generalizing s old with
  | nil => exact ⟨old, hl, rfl⟩
  | cons r rs ih =>
    obtain ⟨mid, hmid, hgeometry⟩ := geometry_step hl (r := r) fun h => hr (by simp [h])
    obtain ⟨new, hnew, hlast⟩ := ih (fun h => hr (by simp [h])) hmid
    exact ⟨new, hnew, by rw [hlast, hgeometry, lastReplacement_cons, Option.or_assoc]⟩

theorem created_geometry {s : SceneServer} {r : SceneUpdateRequest} {given : SceneItemInfo}
    {id : String} (hr : requestInfo r = some given) (hid : given.idValue = id)
    (habsent : id ∉ s.scene) (hcreated : id ∈ (step s r).scene) :
    ∃ new, (step s r).scene.lookup id = some new ∧ new.geometryInfo = given.geometryInfo := by
  have hj := justified s.scene r
  rw [step_eq] at hcreated ⊢
  subst hid
  cases hv : verdict s.scene r with
  | reject errorMsg => exact absurd (by rwa [hv] at hcreated) habsent
  | create info =>
    rw [hv] at hj
    obtain rfl : given = info := Option.some.inj (hr.symm.trans hj.1)
    exact ⟨setDisplayDefaults given, by simp [perform, write], rfl⟩
  | merge old info =>
    rw [hv] at hj
    obtain rfl : given = info := Option.some.inj (hr.symm.trans hj.1)
    exact absurd (mem_of_lookup hj.2.1) habsent
  | announce old info => exact absurd (by rwa [hv] at hcreated) habsent
  | clear =>
    rw [hv] at hj
    obtain rfl : r = .clearAll := hj
    cases hr

theorem appears {s : SceneServer} {r : SceneUpdateRequest} {id : String}
    (habsent : id ∉ s.scene) (hcreated : id ∈ (step s r).scene) :
    ∃ given, requestInfo r = some given ∧ given.idValue = id := by
  have hj := justified s.scene r
  rw [step_eq] at hcreated
  have hother : ∀ info new : SceneItemInfo, id ∈ s.scene.insert info.idValue new →
      info.idValue = id := by
    intro info new hm
    exact ((Finmap.mem_insert.mp hm).resolve_right habsent).symm
  cases hv : verdict s.scene r with
  | reject errorMsg => exact absurd (by rwa [hv] at hcreated) habsent
  | create info =>
    rw [hv] at hj hcreated
    exact ⟨info, hj.1, hother info _ hcreated⟩
  | merge old info =>
    rw [hv] at hj hcreated
    exact ⟨info, hj.1, hother info _ hcreated⟩
  | announce old info => exact absurd (by rwa [hv] at hcreated) habsent
  | clear =>
    rw [hv] at hcreated
    exact absurd hcreated Finmap.notMem_empty

/-- The last request of the run either created the item, or it is a part of
the life that a request before it began. -/
theorem stored_has_life (rs : List SceneUpdateRequest) (id : String)
    (h : id ∈ (run step {} rs).scene) :
    ∃ before given creating after,
      rs = before ++ creating :: after ∧ Life id before given creating after := by
  induction rs using List.reverseRecOn with
  | nil => exact absurd h Finmap.notMem_empty
  | append_singleton rs r ih =>
    have hrun : run step {} (rs ++ [r]) = step (run step {} rs) r := run_append step _ rs [r]
    rw [hrun] at h
    by_cases hstored : id ∈ (run step {} rs).scene
    · obtain ⟨before, given, creating, after, rfl, hlife⟩ := ih hstored
      refine ⟨before, given, creating, after ++ [r], by simp, { hlife with kept := ?_ }⟩
      intro hm
      rcases List.mem_append.mp hm with hm | hm
      · exact hlife.kept hm
      · obtain rfl := List.mem_singleton.mp hm
        exact absurd h Finmap.notMem_empty
    · obtain ⟨given, hgiven, hid⟩ := appears hstored h
      exact ⟨rs, given, r, [], rfl, hgiven, hid, hstored, h, by simp⟩

/-- Every stored item has a life, the stored geometry is the last one sent in
it, and a single request changes geometry only as a replace for its id and
ends a life only as a clear. -/
theorem geometry_protected :
    (∀ (rs : List SceneUpdateRequest) (id : String) (stored : SceneItemInfo),
      (run step {} rs).scene.lookup id = some stored →
        (∃ before given creating after,
          rs = before ++ creating :: after ∧ Life id before given creating after) ∧
        ∀ before given creating after,
          rs = before ++ creating :: after → Life id before given creating after →
            stored.geometryInfo = (lastReplacement id after).or given.geometryInfo) ∧
    ∀ (s : SceneServer) (r : SceneUpdateRequest) (id : String) (old : SceneItemInfo),
      s.scene.lookup id = some old → r ≠ .clearAll →
        ∃ new, (step s r).scene.lookup id = some new ∧
          new.geometryInfo = (replacement id r).or old.geometryInfo := by
  refine ⟨fun rs id stored hl => ⟨stored_has_life rs id (mem_of_lookup hl), ?_⟩,
    fun s r id old hl hr => geometry_step hl hr⟩
  rintro before given creating after rfl hlife
  obtain ⟨first, hfirst, hgiven⟩ :=
    created_geometry hlife.sent hlife.named hlife.absent hlife.created
  obtain ⟨new, hnew, hlast⟩ := geometry_run hlife.kept hfirst
  rw [run_append, run, hnew] at hl
  cases hl
  rw [hlast, hgiven]

def shaped (id : String) (positions : List Single) : SceneItemInfo where
  id := some ⟨id⟩
  geometryInfo := some { positions := some positions }

def reshaping : List SceneUpdateRequest :=
  [.safeSetItem (shaped "item" [one]), .safeSetItem (shaped "item" []),
    .replaceItem (shaped "item" [one, one]), .replaceItem (shaped "other" []),
    .replaceItem (shaped "item" [one, one, one])]

theorem last_replace_stored :
    (run step {} reshaping).scene.lookup "item" =
        some (setDisplayDefaults (shaped "item" [one, one, one])) ∧
      (setDisplayDefaults (shaped "item" [one, one, one])).geometryInfo =
        (lastReplacement "item" (reshaping.drop 1)).or (shaped "item" [one]).geometryInfo := by
  have hl : (run step {} reshaping).scene.lookup "item" =
      some (setDisplayDefaults (shaped "item" [one, one, one])) := by decide
  refine ⟨hl, (geometry_protected.1 reshaping "item" _ hl).2 [] (shaped "item" [one])
    (.safeSetItem (shaped "item" [one])) (reshaping.drop 1) rfl ⟨rfl, rfl, ?_, ?_, ?_⟩⟩
  · decide
  · decide
  · decide

end GVS.GeometryHistory
