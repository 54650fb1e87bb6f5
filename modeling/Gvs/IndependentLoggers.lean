import Gvs.Interleavings
import Gvs.StoredItems

/-!
# Independent loggers

A request of a logger reads and writes the entry of its own id only. Requests
for different ids therefore commute, creations included. Updates of one stored
item that carry no geometry and set different display fields commute as well.
-/

set_option autoImplicit false

namespace GVS.IndependentLoggers
open GVS.Proto GVS.ItemDefaults GVS.Server GVS.RequestTable GuardedRuns Interleavings

def FromLogger : SceneUpdateRequest → Prop
  | .safeSetItem _ | .replaceItem _ | .appendToItem _ => True
  | .updateItem _ | .removeItem _ | .clearAll | .updateNotSet => False

def DisplayOnly : SceneUpdateRequest → Prop
  | .safeSetItem info | .replaceItem info => info.geometryInfo = none
  | .appendToItem _ | .updateItem _ | .removeItem _ | .clearAll | .updateNotSet => False

inductive DisplayField where
  | readableId
  | geometryFormat
  | transformation
  | uniformColor
  | coloring
  | shading
  deriving DecidableEq, Repr

def setsField (display : DisplayInfo) : DisplayField → Bool
  | .readableId => display.readableId.isSome
  | .geometryFormat => display.geometryFormat.isSome
  | .transformation => display.transformation.isSome
  | .uniformColor => display.uniformColor.isSome
  | .coloring => display.coloring.isSome
  | .shading => display.shading.isSome

def DisjointFields (a b : SceneItemInfo) : Prop :=
  ∀ field, ¬ (setsField (a.displayInfo.getD {}) field = true ∧
    setsField (b.displayInfo.getD {}) field = true)

/-- An id that both loggers use is stored, and both only update its display
fields, each different ones. -/
def Independent (scene : SceneItems) (xs ys : List SceneUpdateRequest) : Prop :=
  ∀ a ∈ xs, ∀ b ∈ ys, ∀ info info', requestInfo a = some info → requestInfo b = some info' →
    info.idValue = info'.idValue →
      info.idValue ∈ scene ∧ DisplayOnly a ∧ DisplayOnly b ∧ DisjointFields info info'

def reactScene (scene : SceneItems) (r : SceneUpdateRequest) : SceneItems × Errors :=
  ((requestUpdateScene { scene } r).1.scene, (requestUpdateScene { scene } r).2)

theorem reactScene_shows (s : SceneServer) (r : SceneUpdateRequest) :
    reactScene s.scene r = ((requestUpdateScene s r).1.scene, (requestUpdateScene s r).2) := by
  rw [reactScene, requestUpdateScene_eq, requestUpdateScene_eq]
  cases verdict s.scene r <;> rfl

def entryOf : Verdict → Option (String × SceneItemInfo)
  | .create info => some (info.idValue, setDisplayDefaults info)
  | .merge old info => some (info.idValue, merged old info)
  | .reject _ | .announce _ _ | .clear => none

def errorsOf : Verdict → Errors
  | .reject errorMsg => { errorMsg }
  | .create _ | .merge _ _ | .announce _ _ | .clear => {}

def put (scene : SceneItems) : Option (String × SceneItemInfo) → SceneItems
  | none => scene
  | some entry => scene.insert entry.1 entry.2

theorem fromLogger_info {r : SceneUpdateRequest} (h : FromLogger r) :
    ∃ info, requestInfo r = some info := by
  cases r with
  | safeSetItem info => exact ⟨info, rfl⟩
  | replaceItem info => exact ⟨info, rfl⟩
  | appendToItem info => exact ⟨info, rfl⟩
  | updateItem info => exact h.elim
  | removeItem info => exact h.elim
  | clearAll => exact h.elim
  | updateNotSet => exact h.elim

theorem reactScene_eq (scene : SceneItems) {r : SceneUpdateRequest} (h : FromLogger r) :
    reactScene scene r = (put scene (entryOf (verdict scene r)), errorsOf (verdict scene r)) := by
  have hj := justified scene r
  rw [reactScene, requestUpdateScene_eq]
  cases hv : verdict scene r with
  | reject errorMsg => rfl
  | create info => rfl
  | merge old info => rfl
  | announce old info => rfl
  | clear =>
    rw [hv] at hj
    obtain rfl : r = .clearAll := hj
    exact h.elim

theorem verdict_congr {scene scene' : SceneItems} {r : SceneUpdateRequest} {info : SceneItemInfo}
    (hr : requestInfo r = some info)
    (hl : scene'.lookup info.idValue = scene.lookup info.idValue) :
    verdict scene' r = verdict scene r := by
  cases r with
  | safeSetItem given =>
    cases hr
    simp only [verdict, hl]
  | replaceItem given =>
    cases hr
    simp only [verdict, hl]
  | appendToItem given =>
    cases hr
    simp only [verdict, hl]
  | updateItem given => rfl
  | removeItem given => rfl
  | clearAll => cases hr
  | updateNotSet => cases hr

theorem entryOf_key {scene : SceneItems} {r : SceneUpdateRequest} {info : SceneItemInfo}
    (hr : requestInfo r = some info) {entry : String × SceneItemInfo}
    (he : entryOf (verdict scene r) = some entry) : entry.1 = info.idValue := by
  have hj := justified scene r
  cases hv : verdict scene r with
  | reject errorMsg => simp [hv, entryOf] at he
  | create given =>
    rw [hv] at hj he
    obtain rfl : given = info := Option.some.inj (hj.1.symm.trans hr)
    cases he
    rfl
  | merge old given =>
    rw [hv] at hj he
    obtain rfl : given = info := Option.some.inj (hj.1.symm.trans hr)
    cases he
    rfl
  | announce old given => simp [hv, entryOf] at he
  | clear => simp [hv, entryOf] at he

theorem lookup_put {scene : SceneItems} {r : SceneUpdateRequest} {info : SceneItemInfo}
    (hr : requestInfo r = some info) {id : String} (hid : id ≠ info.idValue) :
    (put scene (entryOf (verdict scene r))).lookup id = scene.lookup id := by
  cases he : entryOf (verdict scene r) with
  | none => rfl
  | some entry =>
    rw [put, Finmap.lookup_insert_of_ne]
    rw [entryOf_key hr he]
    exact hid

theorem put_comm (scene : SceneItems) {e e' : Option (String × SceneItemInfo)}
    (h : ∀ entry entry', e = some entry → e' = some entry' → entry.1 ≠ entry'.1) :
    put (put scene e) e' = put (put scene e') e := by
  cases e with
  | none => rfl
  | some entry =>
    cases e' with
    | none => rfl
    | some entry' => exact Finmap.insert_insert_of_ne scene (h entry entry' rfl rfl)

theorem swap_apart {scene : SceneItems} {a b : SceneUpdateRequest} (ha : FromLogger a)
    (hb : FromLogger b) {info info' : SceneItemInfo} (hi : requestInfo a = some info)
    (hi' : requestInfo b = some info') (hid : info.idValue ≠ info'.idValue) :
    Swap reactScene scene a b := by
  have hva : verdict (put scene (entryOf (verdict scene b))) a = verdict scene a :=
    verdict_congr hi (lookup_put hi' hid)
  have hvb : verdict (put scene (entryOf (verdict scene a))) b = verdict scene b :=
    verdict_congr hi' (lookup_put hi (Ne.symm hid))
  refine ⟨?_, ?_, ?_⟩
  · simp only [next, reactScene_eq _ ha, reactScene_eq _ hb, hva, hvb]
    apply put_comm
    intro entry entry' he he'
    rwa [entryOf_key hi he, entryOf_key hi' he']
  · simp only [next, reactScene_eq _ ha, reactScene_eq _ hb, hva]
  · simp only [next, reactScene_eq _ ha, reactScene_eq _ hb, hvb]

theorem verdict_displayOnly {scene : SceneItems} {r : SceneUpdateRequest} (h : DisplayOnly r)
    {info old : SceneItemInfo} (hr : requestInfo r = some info)
    (hl : scene.lookup info.idValue = some old) :
    verdict scene r = .merge old info ∧ info.geometryInfo = none := by
  cases r with
  | safeSetItem given =>
    cases hr
    have hg : info.geometryInfo = none := h
    exact ⟨by simp [verdict, hl, hg], hg⟩
  | replaceItem given =>
    cases hr
    exact ⟨by simp [verdict, hl], h⟩
  | appendToItem given => exact h.elim
  | updateItem given => exact h.elim
  | removeItem given => exact h.elim
  | clearAll => exact h.elim
  | updateNotSet => exact h.elim

theorem or_comm_of_disjoint {β : Type*} {x y z : Option β}
    (h : ¬ (x.isSome = true ∧ y.isSome = true)) : y.or (x.or z) = x.or (y.or z) := by
  cases x with
  | none => rfl
  | some v =>
    cases y with
    | none => rfl
    | some w => exact absurd ⟨rfl, rfl⟩ h

theorem copyPresentFields_comm {a b : DisplayInfo} (old : DisplayInfo)
    (h : ∀ field, ¬ (setsField a field = true ∧ setsField b field = true)) :
    copyPresentFields (copyPresentFields old a) b =
      copyPresentFields (copyPresentFields old b) a := by
  simp only [copyPresentFields, DisplayInfo.mk.injEq]
  exact ⟨or_comm_of_disjoint (h .readableId), or_comm_of_disjoint (h .geometryFormat),
    or_comm_of_disjoint (h .transformation), or_comm_of_disjoint (h .uniformColor),
    or_comm_of_disjoint (h .coloring), or_comm_of_disjoint (h .shading)⟩

theorem merged_comm (old : SceneItemInfo) {a b : SceneItemInfo} (ha : a.geometryInfo = none)
    (hb : b.geometryInfo = none) (h : DisjointFields a b) :
    merged (merged old a) b = merged (merged old b) a := by
  cases hda : a.displayInfo with
  | none => simp [merged, updateDisplayDefaults, ha, hb, hda]
  | some display =>
    cases hdb : b.displayInfo with
    | none => simp [merged, updateDisplayDefaults, ha, hb, hda, hdb]
    | some display' =>
      have hfields : ∀ field, ¬ (setsField display field = true ∧
          setsField display' field = true) := by simpa [DisjointFields, hda, hdb] using h
      simp [merged, updateDisplayDefaults, ha, hb, hda, hdb, copyPresentFields_comm _ hfields]

theorem swap_together {scene : SceneItems} {a b : SceneUpdateRequest} (ha : FromLogger a)
    (hb : FromLogger b) {info info' : SceneItemInfo} (hi : requestInfo a = some info)
    (hi' : requestInfo b = some info') (hid : info.idValue = info'.idValue)
    (hm : info.idValue ∈ scene) (hda : DisplayOnly a) (hdb : DisplayOnly b)
    (hd : DisjointFields info info') : Swap reactScene scene a b := by
  obtain ⟨old, hl⟩ := (mem_iff_lookup scene _).mp hm
  have hl' : scene.lookup info'.idValue = some old := by rw [← hid, hl]
  obtain ⟨hva, hga⟩ := verdict_displayOnly hda hi hl
  obtain ⟨hvb, hgb⟩ := verdict_displayOnly hdb hi' hl'
  have hla : (scene.insert info.idValue (merged old info)).lookup info'.idValue =
      some (merged old info) := by
    rw [← hid]
    exact Finmap.lookup_insert _
  have hlb : (scene.insert info'.idValue (merged old info')).lookup info.idValue =
      some (merged old info') := by
    rw [hid]
    exact Finmap.lookup_insert _
  obtain ⟨hvb', -⟩ := verdict_displayOnly hdb hi' hla
  obtain ⟨hva', -⟩ := verdict_displayOnly hda hi hlb
  have hsa : reactScene scene a = (scene.insert info.idValue (merged old info), {}) := by
    rw [reactScene_eq _ ha, hva]
    rfl
  have hsb : reactScene scene b = (scene.insert info'.idValue (merged old info'), {}) := by
    rw [reactScene_eq _ hb, hvb]
    rfl
  refine ⟨?_, ?_, ?_⟩
  · simp only [next, hsa, hsb]
    rw [reactScene_eq _ ha, reactScene_eq _ hb, hva', hvb']
    simp only [entryOf, put, hid, Finmap.insert_insert, merged_comm old hga hgb hd]
  · simp only [next, hsb, hsa]
    rw [reactScene_eq _ ha, hva']
    rfl
  · simp only [next, hsb, hsa]
    rw [reactScene_eq _ hb, hvb']
    rfl

theorem key_kept {scene : SceneItems} {r : SceneUpdateRequest} (h : FromLogger r) {id : String}
    (hm : id ∈ scene) : id ∈ next reactScene scene r := by
  rw [next, reactScene_eq scene h]
  cases entryOf (verdict scene r) with
  | none => exact hm
  | some entry => exact Finmap.mem_insert.mpr (Or.inr hm)

/-- However the requests of two independent loggers interleave, the scene ends
the same and every request is answered the same. -/
theorem loggers_independent (s : SceneServer) (xs ys : List SceneUpdateRequest)
    (hlog : ∀ r ∈ xs ++ ys, FromLogger r) (hind : Independent s.scene xs ys)
    (turns turns' : List (SceneUpdateRequest ⊕ SceneUpdateRequest))
    (h : Interleaves xs ys turns) (h' : Interleaves xs ys turns') :
    (run step s (turns.map input)).scene = (run step s (turns'.map input)).scene ∧
      leftAnswers requestUpdateScene s turns = leftAnswers requestUpdateScene s turns' ∧
      rightAnswers requestUpdateScene s turns = rightAnswers requestUpdateScene s turns' := by
  have hswap : ∀ scene, ∀ a ∈ xs, ∀ b ∈ ys, Independent scene xs ys →
      Swap reactScene scene a b := by
    intro scene a ha b hb hi
    have hla := hlog a (List.mem_append_left ys ha)
    have hlb := hlog b (List.mem_append_right xs hb)
    obtain ⟨info, hinfo⟩ := fromLogger_info hla
    obtain ⟨info', hinfo'⟩ := fromLogger_info hlb
    by_cases hid : info.idValue = info'.idValue
    · obtain ⟨hm, hda, hdb, hd⟩ := hi a ha b hb info info' hinfo hinfo' hid
      exact swap_together hla hlb hinfo hinfo' hid hm hda hdb hd
    · exact swap_apart hla hlb hinfo hinfo' hid
  have hkeep : ∀ scene, ∀ r ∈ xs ++ ys, Independent scene xs ys →
      Independent (next reactScene scene r) xs ys := by
    intro scene r hr hi a ha b hb info info' hinfo hinfo' hid
    obtain ⟨hm, hrest⟩ := hi a ha b hb info info' hinfo hinfo' hid
    exact ⟨key_kept (hlog r hr) hm, hrest⟩
  obtain ⟨hrun, hleft, hright⟩ := interleavings_agree reactScene hkeep hswap hind h h'
  obtain ⟨hseen, hseenl, hseenr⟩ := seen_runs reactScene_shows turns s
  obtain ⟨hseen', hseenl', hseenr'⟩ := seen_runs reactScene_shows turns' s
  rw [hseen, hseen'] at hrun
  rw [hseenl, hseenl'] at hleft
  rw [hseenr, hseenr'] at hright
  exact ⟨hrun, hleft, hright⟩

def drawn (id : String) (display : DisplayInfo) : SceneItemInfo where
  id := some ⟨id⟩
  geometryInfo := some { positions := some [one, one, one] }
  displayInfo := some display

def restyled (display : DisplayInfo) : SceneItemInfo where
  id := some ⟨"shared"⟩
  displayInfo := some display

def colorist : List SceneUpdateRequest :=
  [.safeSetItem (restyled { coloring := some .white }), .safeSetItem (drawn "left" {})]

def shader : List SceneUpdateRequest :=
  [.appendToItem (drawn "right" {}), .replaceItem (restyled { shading := some .uniformColor })]

def studio : SceneServer := step {} (.safeSetItem (drawn "shared" {}))

theorem studio_independent : Independent studio.scene colorist shader := by
  intro a ha b hb info info' hi hi' hid
  simp only [colorist, shader, List.mem_cons, List.not_mem_nil, or_false] at ha hb
  rcases ha with rfl | rfl <;> rcases hb with rfl | rfl <;> cases hi <;> cases hi'
  · exact absurd hid (by decide)
  · exact ⟨by decide, rfl, rfl, fun field => by cases field <;> decide⟩
  · exact absurd hid (by decide)
  · exact absurd hid (by decide)

theorem studio_orders_agree :
    (run step studio (([.inl colorist[0], .inl colorist[1], .inr shader[0], .inr shader[1]] :
        List (SceneUpdateRequest ⊕ SceneUpdateRequest)).map input)).scene =
      (run step studio (([.inr shader[0], .inl colorist[0], .inr shader[1], .inl colorist[1]] :
        List (SceneUpdateRequest ⊕ SceneUpdateRequest)).map input)).scene :=
  (loggers_independent studio colorist shader (by
    intro r hr
    simp only [colorist, shader, List.cons_append, List.nil_append, List.mem_cons,
      List.not_mem_nil, or_false] at hr
    rcases hr with rfl | rfl | rfl | rfl <;> trivial) studio_independent _ _
    ⟨rfl, rfl⟩ ⟨rfl, rfl⟩).1

end GVS.IndependentLoggers
