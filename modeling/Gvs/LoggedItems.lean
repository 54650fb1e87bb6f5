import Gvs.LogParams
import Gvs.RequestTable

/-!
# Logged items

What the parameters of one send say about an item, field by field, and the
item that the tables of the README describe for them: a field has the value
of the parameter that writes it, or its documented default. Parameters that
write different fields build the same item in any order.
-/

set_option autoImplicit false

namespace GVS.LoggedItems
open GVS.Proto GVS.ItemDefaults GVS.Server GVS.RequestTable GVS.LogParams

inductive Slot where
  | positions
  | normals
  | texCoords
  | vertexColors
  | indices
  | geometryFormat
  | coloring
  | parent
  | shading
  | transformation
  | uniformColor
  deriving DecidableEq, Repr

instance : Fintype Slot :=
  ⟨{.positions, .normals, .texCoords, .vertexColors, .indices, .geometryFormat, .coloring,
    .parent, .shading, .transformation, .uniformColor}, fun slot => by cases slot <;> decide⟩

@[reducible] def Slot.Value : Slot → Type
  | .positions | .normals | .texCoords | .vertexColors => List Single
  | .indices => List UInt32
  | .geometryFormat => GeometryFormat
  | .coloring => Coloring
  | .parent => String
  | .shading => ShadingParam
  | .transformation => Matrix
  | .uniformColor => Vec3

def value : (slot : Slot) → LogParam → Option slot.Value
  | .positions, .positions3d data => some data
  | .normals, .normals3d data => some data
  | .texCoords, .texCoords3d data => some data
  | .vertexColors, .vertexColors3d data => some data
  | .indices, .indices _ data => some data
  | .geometryFormat, .indices format _ => some format
  | .geometryFormat, .geometryFormat data => some data
  | .coloring, .coloring data => some data
  | .parent, .parent data => some data
  | .shading, .shading data => some data
  | .transformation, .transformation data => some data
  | .uniformColor, .uniformColor data => some data
  | _, _ => none

def Apart (p q : LogParam) : Prop := ∀ slot, ¬ ((value slot p).isSome ∧ (value slot q).isSome)

def given (slot : Slot) (params : List LogParam) : Option slot.Value :=
  params.findSome? (value slot)

theorem given_cons (slot : Slot) (p : LogParam) (params : List LogParam) :
    given slot (p :: params) = (value slot p).or (given slot params) := by
  unfold given
  cases h : value slot p <;> simp [h]

theorem given_eq_some_iff {params : List LogParam} (h : params.Pairwise Apart) (slot : Slot)
    (v : slot.Value) : given slot params = some v ↔ ∃ p ∈ params, value slot p = some v := by
  induction params with
  | nil => simp [given]
  | cons p params ih =>
    obtain ⟨hp, hparams⟩ := List.pairwise_cons.mp h
    have ih := ih hparams
    unfold given at ih ⊢
    cases hv : value slot p with
    | none => simp [hv, ih]
    | some w =>
      have hrest : ∀ q ∈ params, value slot q ≠ some v := fun q hq hv' =>
        hp q hq slot ⟨by rw [hv]; rfl, by rw [hv']; rfl⟩
      simp only [List.findSome?_cons, hv, List.mem_cons, exists_eq_or_imp, iff_self_or]
      rintro ⟨q, hq, hv'⟩
      exact absurd hv' (hrest q hq)

def checked : LogParam → Slot
  | .positions3d _ => .positions
  | .normals3d _ => .normals
  | .texCoords3d _ => .texCoords
  | .vertexColors3d _ => .vertexColors
  | .indices _ _ => .indices
  | .geometryFormat _ => .geometryFormat
  | .coloring _ => .coloring
  | .parent _ => .parent
  | .shading _ => .shading
  | .transformation _ => .transformation
  | .uniformColor _ => .uniformColor

def Slot.functorName : Slot → String
  | .positions => "positions_3d"
  | .normals => "normals_3d"
  | .texCoords => "tex_coords_3d"
  | .vertexColors => "vertex_colors_3d"
  | .indices => "indices"
  | .geometryFormat => "geometry_format"
  | .coloring => "coloring"
  | .parent => "parent"
  | .shading => "shading"
  | .transformation => "transformation"
  | .uniformColor => "uniform_color"

def isSet (info : SceneItemInfo) : Slot → Bool
  | .positions => (mutableGeometryInfo info).positions.isSome
  | .normals => (mutableGeometryInfo info).normals.isSome
  | .texCoords => (mutableGeometryInfo info).texCoords.isSome
  | .vertexColors => (mutableGeometryInfo info).vertexColors.isSome
  | .indices => (mutableGeometryInfo info).indices.isSome
  | .geometryFormat => (mutableDisplayInfo info).geometryFormat.isSome
  | .coloring => (mutableDisplayInfo info).coloring.isSome
  | .parent => info.parent.isSome
  | .shading => (mutableDisplayInfo info).shading.isSome
  | .transformation => (mutableDisplayInfo info).transformation.isSome
  | .uniformColor => (mutableDisplayInfo info).uniformColor.isSome

theorem value_checked (p : LogParam) : (value (checked p) p).isSome = true := by
  cases p <;> rfl

section Functors

/-- A functor rejects exactly the items that have its field. -/
theorem functor_set {p : LogParam} {info : SceneItemInfo} (h : isSet info (checked p) = true) :
    p.functor info = .error (checked p).functorName := by
  cases p with
  | indices format data =>
    simp only [checked, isSet] at h
    simp [LogParam.functor, indices, writeGeometry, h, Except.map, checked, Slot.functorName]
  | parent data =>
    simp only [checked, isSet] at h
    simp [LogParam.functor, parent, h, checked, Slot.functorName]
  | shading data =>
    simp only [checked, isSet] at h
    cases data <;>
      simp [LogParam.functor, shadingUniformColor, shadingLambertian, writeDisplay, h, checked,
        Slot.functorName]
  | _ => exact if_pos h

/-- A functor accepts all other items, and adds the fields that it has values
for. -/
theorem functor_unset {p : LogParam} {info : SceneItemInfo} (h : isSet info (checked p) = false) :
    ∃ written, p.functor info = .ok written ∧
      ∀ slot, isSet written slot = (isSet info slot || (value slot p).isSome) := by
  cases p with
  | indices format data =>
    simp only [checked, isSet] at h
    simp only [LogParam.functor, indices, writeGeometry, h, Bool.false_eq_true, if_false, Except.map,
      Except.ok.injEq, exists_eq_left']
    intro slot
    cases slot <;> simp [isSet, value, mutableGeometryInfo, mutableDisplayInfo]
  | parent data =>
    simp only [checked, isSet] at h
    simp only [LogParam.functor, parent, h, Bool.false_eq_true, if_false, Except.ok.injEq,
      exists_eq_left']
    intro slot
    cases slot <;> simp [isSet, value, mutableGeometryInfo, mutableDisplayInfo]
  | shading data =>
    cases data with
    | uniformColor =>
      refine ⟨_, if_neg (Bool.eq_false_iff.mp h), fun slot => ?_⟩
      cases slot <;> simp [isSet, value, mutableGeometryInfo, mutableDisplayInfo]
    | lambertian arguments =>
      refine ⟨_, if_neg (Bool.eq_false_iff.mp h), fun slot => ?_⟩
      cases slot <;> simp [isSet, value, mutableGeometryInfo, mutableDisplayInfo]
  | _ =>
    -- each of the others writes the field that it checks and no other
    refine ⟨_, if_neg (Bool.eq_false_iff.mp h), fun slot => ?_⟩
    cases slot <;> simp [isSet, value, mutableGeometryInfo, mutableDisplayInfo]

/-- A functor that rejects has made no message. -/
theorem touched_of_set {p : LogParam} {info : SceneItemInfo}
    (h : isSet info (checked p) = true) : p.touched info = info := by
  obtain ⟨id, geometry, display, parent⟩ := info
  cases p with
  | parent data => rfl
  | positions3d | normals3d | texCoords3d | vertexColors3d | indices =>
    cases geometry with
    | none => cases h
    | some geometry => rfl
  | geometryFormat | coloring | shading | transformation | uniformColor =>
    cases display with
    | none => cases h
    | some display => rfl

theorem functor_touched (p : LogParam) (info : SceneItemInfo) :
    p.functor (p.touched info) = p.functor info := by
  cases p with
  | shading data => cases data <;> rfl
  | _ => rfl

/-- The messages that a functor makes on the way do not show: `operator<<` on
the live item is `operator<<` on a copy. -/
theorem shiftLeft_eq_push (stream : GeometryItemStream) (p : LogParam) :
    shiftLeft stream p = push stream p.functor := by
  rw [shiftLeft, push, LogParam.called, functor_touched]
  by_cases h : isSet stream.info (checked p) = true
  · have hname : (checked p).functorName.isEmpty = false := by cases p <;> rfl
    rw [functor_set h, touched_of_set h]
    simp [hname]
  · rw [Bool.not_eq_true] at h
    obtain ⟨written, hwritten, -⟩ := functor_unset h
    rw [hwritten]
    simp

end Functors

section Drafts

def isGeometry : LogParam → Bool
  | .positions3d _ | .normals3d _ | .texCoords3d _ | .vertexColors3d _ | .indices _ _ => true
  | _ => false

def isDisplay : LogParam → Bool
  | .indices _ _ | .geometryFormat _ | .coloring _ | .shading _ | .transformation _
  | .uniformColor _ => true
  | _ => false

def givenGeometry (params : List LogParam) : GeometryInfo3D where
  positions := given .positions params
  normals := given .normals params
  texCoords := given .texCoords params
  vertexColors := given .vertexColors params
  indices := given .indices params

def encodedShading : ShadingParam → Shading
  | .uniformColor => .valueNotSet
  | .lambertian arguments => .lambertian
      { lightDirection := some (lambertianShading arguments).lightDirection
        lightColor := some (lambertianShading arguments).lightColor
        ambientColor := some (lambertianShading arguments).ambientColor }

def givenDisplay (params : List LogParam) : DisplayInfo where
  geometryFormat := given .geometryFormat params
  transformation := (given .transformation params).map fun data => ⟨data.entries⟩
  uniformColor := given .uniformColor params
  coloring := given .coloring params
  shading := (given .shading params).map encodedShading

/-- The item of a stream after its parameters, the newest of them first. -/
def draft (params : List LogParam) : SceneItemInfo where
  geometryInfo := if params.any isGeometry then some (givenGeometry params) else none
  displayInfo := if params.any isDisplay then some (givenDisplay params) else none
  parent := (given .parent params).map ID.mk

theorem given_none {slot : Slot} {params : List LogParam} (kind : LogParam → Bool)
    (h : params.any kind = false) (hkind : ∀ p, (value slot p).isSome → kind p = true) :
    given slot params = none := by
  rw [given, List.findSome?_eq_none_iff]
  intro p hp
  rw [← Option.not_isSome_iff_eq_none]
  intro hsome
  rw [List.any_eq_false] at h
  exact h p hp (hkind p hsome)

theorem mutableGeometryInfo_draft (params : List LogParam) :
    mutableGeometryInfo (draft params) = givenGeometry params := by
  cases h : params.any isGeometry with
  | true => simp [mutableGeometryInfo, draft, h]
  | false =>
    have hnone : ∀ slot, slot ∈ [Slot.positions, .normals, .texCoords, .vertexColors, .indices] →
        given slot params = none := by
      intro slot hslot
      apply given_none isGeometry h
      intro p hsome
      revert slot
      cases p <;> simp [value, isGeometry]
    simp [mutableGeometryInfo, draft, h, givenGeometry, hnone]

theorem mutableDisplayInfo_draft (params : List LogParam) :
    mutableDisplayInfo (draft params) = givenDisplay params := by
  cases h : params.any isDisplay with
  | true => simp [mutableDisplayInfo, draft, h]
  | false =>
    have hnone : ∀ slot, slot ∈ [Slot.geometryFormat, .transformation, .uniformColor, .coloring,
        .shading] → given slot params = none := by
      intro slot hslot
      apply given_none isDisplay h
      intro p hsome
      revert slot
      cases p <;> simp [value, isDisplay]
    simp [mutableDisplayInfo, draft, h, givenDisplay, hnone]

theorem isSet_draft (params : List LogParam) (slot : Slot) :
    isSet (draft params) slot = (given slot params).isSome := by
  cases slot with
  | parent => simp [isSet, draft]
  | _ =>
    simp only [isSet, mutableGeometryInfo_draft, mutableDisplayInfo_draft, givenGeometry,
      givenDisplay, Option.isSome_map]

/-- One more parameter touches the part of the draft that its field is in. -/
theorem draft_cons (p : LogParam) (params : List LogParam) :
    draft (p :: params) =
      { draft params with
        geometryInfo := if isGeometry p then some (givenGeometry (p :: params))
          else (draft params).geometryInfo
        displayInfo := if isDisplay p then some (givenDisplay (p :: params))
          else (draft params).displayInfo
        parent := (given .parent (p :: params)).map ID.mk } := by
  have hgeometry : isGeometry p = false → givenGeometry (p :: params) = givenGeometry params := by
    intro h
    cases p <;> simp [isGeometry] at h <;> simp [givenGeometry, given_cons, value]
  have hdisplay : isDisplay p = false → givenDisplay (p :: params) = givenDisplay params := by
    intro h
    cases p <;> simp [isDisplay] at h <;> simp [givenDisplay, given_cons, value]
  simp only [draft, List.any_cons]
  by_cases hg : isGeometry p = true <;> by_cases hd : isDisplay p = true <;>
    simp [hg, hd, hgeometry, hdisplay]

theorem geometry_step {params : List LogParam} {p : LogParam} {name : String}
    {has : GeometryInfo3D → Bool} {set : GeometryInfo3D → GeometryInfo3D}
    (hkind : isGeometry p = true ∧ isDisplay p = false ∧ value .parent p = none)
    (hhas : has (givenGeometry params) = false)
    (hset : set (givenGeometry params) = givenGeometry (p :: params)) :
    writeGeometry name has set (draft params) = .ok (draft (p :: params)) := by
  simp only [writeGeometry, mutableGeometryInfo_draft, hhas, Bool.false_eq_true, if_false]
  rw [hset, draft_cons]
  simp [hkind, given_cons, draft]

theorem display_step {params : List LogParam} {p : LogParam} {name : String}
    {has : DisplayInfo → Bool} {set : DisplayInfo → DisplayInfo}
    (hkind : isGeometry p = false ∧ isDisplay p = true ∧ value .parent p = none)
    (hhas : has (givenDisplay params) = false)
    (hset : set (givenDisplay params) = givenDisplay (p :: params)) :
    writeDisplay name has set (draft params) = .ok (draft (p :: params)) := by
  simp only [writeDisplay, mutableDisplayInfo_draft, hhas, Bool.false_eq_true, if_false]
  rw [hset, draft_cons]
  simp [hkind, given_cons, draft]

/-- A functor that finds its field free adds its value to the draft. -/
theorem functor_draft {params : List LogParam} {p : LogParam}
    (h : given (checked p) params = none) : p.functor (draft params) = .ok (draft (p :: params)) := by
  cases p with
  | positions3d data | normals3d data | texCoords3d data | vertexColors3d data =>
    simp only [checked] at h
    simp only [LogParam.functor, LogParams.positions3d, LogParams.normals3d,
      LogParams.texCoords3d, LogParams.vertexColors3d]
    apply geometry_step ⟨rfl, rfl, rfl⟩
    · simp [givenGeometry, h]
    · simp [givenGeometry, given_cons, value]
  | indices format data =>
    -- the one functor that writes two fields and checks only the first
    simp only [checked] at h
    have hd := mutableDisplayInfo_draft params
    have hhas : (givenGeometry params).indices.isSome = false := by simp [givenGeometry, h]
    simp only [LogParam.functor, indices, writeGeometry, mutableGeometryInfo_draft, hhas,
      Bool.false_eq_true, if_false, Except.map]
    rw [draft_cons]
    simp only [mutableDisplayInfo] at hd ⊢
    rw [hd]
    simp [isGeometry, isDisplay, givenGeometry, givenDisplay, given_cons, value, draft]
  | parent data =>
    simp only [checked] at h
    rw [draft_cons]
    simp [LogParam.functor, parent, draft, isGeometry, isDisplay, given_cons, value, h]
  | shading data =>
    simp only [checked] at h
    cases data with
    | uniformColor | lambertian arguments =>
      simp only [LogParam.functor, shadingUniformColor, shadingLambertian]
      apply display_step ⟨rfl, rfl, rfl⟩
      · simp [givenDisplay, h]
      · simp [givenDisplay, given_cons, value, encodedShading]
  | geometryFormat data | coloring data | transformation data | uniformColor data =>
    simp only [checked] at h
    simp only [LogParam.functor, LogParams.geometryFormat, LogParams.coloring,
      LogParams.transformation, LogParams.uniformColor]
    apply display_step ⟨rfl, rfl, rfl⟩
    · simp [givenDisplay, h]
    · simp [givenDisplay, given_cons, value]

theorem functor_spec (p : LogParam) (params : List LogParam) :
    p.functor (draft params) =
      if (given (checked p) params).isSome then .error (checked p).functorName
      else .ok (draft (p :: params)) := by
  rw [← isSet_draft]
  by_cases h : isSet (draft params) (checked p) = true
  · rw [if_pos h, functor_set h]
  · rw [if_neg h]
    apply functor_draft
    rw [isSet_draft] at h
    exact Option.not_isSome_iff_eq_none.mp h

def Lets (p q : LogParam) : Prop := value (checked q) p = none

/-- A stream takes parameters when none finds its field in the item or
written by one before it. -/
theorem pushAll_returns_iff (params : List LogParam) (stream : GeometryItemStream) :
    (pushAll stream params).Returns ↔
      (∀ p ∈ params, isSet stream.info (checked p) = false) ∧ params.Pairwise Lets := by
  induction params generalizing stream with
  | nil => simp [pushAll, Outcome.drive]
  | cons p params ih =>
    rw [pushAll, Outcome.drive, Outcome.returns_andThen, List.forall_mem_cons,
      List.pairwise_cons]
    by_cases h : isSet stream.info (checked p) = true
    · simp [push, functor_set h, h]
    · rw [Bool.not_eq_true] at h
      obtain ⟨written, hwritten, hslots⟩ := functor_unset h
      have hpush : push stream p.functor = .done { stream with info := written } := by
        rw [push, hwritten]
      have hrest := ih { stream with info := written }
      rw [pushAll] at hrest
      simp only [hpush, Outcome.done.injEq, exists_eq_left', hrest, hslots, Bool.or_eq_false_iff,
        Option.isSome_eq_false_iff, Option.isNone_iff_eq_none, h, true_and, Lets]
      constructor
      · rintro ⟨hfree, hpairs⟩
        exact ⟨fun q hq => (hfree q hq).1, fun q hq => (hfree q hq).2, hpairs⟩
      · rintro ⟨hfree, hlets, hpairs⟩
        exact ⟨fun q hq => ⟨hfree q hq, hlets q hq⟩, hpairs⟩

theorem pushAll_content {done params : List LogParam} {stream stream' : GeometryItemStream}
    (hinfo : stream.info = draft done) (h : pushAll stream params = .done stream') :
    stream' = { stream with info := draft (params.reverse ++ done) } := by
  induction params generalizing stream done with
  | nil =>
    cases h
    simp [← hinfo]
  | cons p params ih =>
    obtain ⟨next, hpush, hrest⟩ := Outcome.andThen_eq_done.mp h
    have hpush : push stream p.functor = .done next := hpush
    by_cases hgiven : (given (checked p) done).isSome = true
    · simp [push, hinfo, functor_spec, hgiven] at hpush
    · simp only [push, hinfo, functor_spec, hgiven, Bool.false_eq_true, if_false,
        Outcome.done.injEq] at hpush
      subst hpush
      simpa using ih rfl hrest

theorem lets_of_apart {p q : LogParam} (h : Apart p q) : Lets p q := by
  apply Option.not_isSome_iff_eq_none.mp
  intro hwritten
  exact h (checked q) ⟨hwritten, value_checked q⟩

theorem apart_symm {p q : LogParam} (h : Apart p q) : Apart q p :=
  fun slot hslot => h slot hslot.symm

theorem draft_perm {params params' : List LogParam} (h : params.Pairwise Apart)
    (hperm : params.Perm params') : draft params = draft params' := by
  have h' : params'.Pairwise Apart := (hperm.pairwise_iff apart_symm).mp h
  have hgiven : ∀ slot, given slot params = given slot params' := by
    intro slot
    ext v
    simp only [given_eq_some_iff h, given_eq_some_iff h', hperm.mem_iff]
  simp only [draft, givenGeometry, givenDisplay, hgiven, hperm.any_eq]

end Drafts

section Documented

def documentedFormat : GeometryFormat := .points

def documentedColoring : Coloring := .uniformColor

def documentedTransformation : Mat4 :=
  ⟨[one, 0, 0, 0,
    0, one, 0, 0,
    0, 0, one, 0,
    0, 0, 0, one]⟩

/-- `{0.9f, 0.8f, 0.7f}`. -/
def documentedColor : Vec3 := ⟨0x3F666666, 0x3F4CCCCD, 0x3F333333⟩

/-- The defaults of the table of Lambertian parameters:
`{-1.f, -2.f, -3.f}`, `{0.85f, 0.85f, 0.85f}` and `{0.1f, 0.1f, 0.1f}`. -/
def documentedLambertian (arguments : Arguments) : LogParams.LambertianShading where
  lightDirection := arguments.values[0]?.getD ⟨0xBF800000, 0xC0000000, 0xC0400000⟩
  lightColor := arguments.values[1]?.getD ⟨0x3F59999A, 0x3F59999A, 0x3F59999A⟩
  ambientColor := arguments.values[2]?.getD ⟨0x3DCCCCCD, 0x3DCCCCCD, 0x3DCCCCCD⟩

def documentedShading : ShadingParam → Shading
  | .uniformColor => .uniformColor
  | .lambertian arguments => .lambertian
      { lightDirection := some (documentedLambertian arguments).lightDirection
        lightColor := some (documentedLambertian arguments).lightColor
        ambientColor := some (documentedLambertian arguments).ambientColor }

/-- The item that the README describes: a parent left out reads as `""`, and
no shading is the first of the current options. -/
def documentedItem (id : String) (params : List LogParam) : SceneItemInfo where
  id := some ⟨id⟩
  geometryInfo := some (givenGeometry params)
  displayInfo := some
    { readableId := some id
      geometryFormat := some ((given .geometryFormat params).getD documentedFormat)
      transformation := some (((given .transformation params).map fun data =>
        ⟨data.entries⟩).getD documentedTransformation)
      uniformColor := some ((given .uniformColor params).getD documentedColor)
      coloring := some ((given .coloring params).getD documentedColoring)
      shading := some (((given .shading params).map documentedShading).getD .uniformColor) }
  parent := (given .parent params).map ID.mk

def SpelledOut : LogParam → Prop
  | .shading .uniformColor => False
  | .shading (.lambertian arguments) => arguments.values.length = 3
  | _ => True

theorem documentedLambertian_eq_iff (arguments : Arguments) :
    lambertianShading arguments = documentedLambertian arguments ↔
      arguments.values.length = 3 := by
  obtain ⟨values, hvalues⟩ := arguments
  match values, hvalues with
  | [], _ => simp [lambertianShading, documentedLambertian]
  | [direction], _ => simp [lambertianShading, documentedLambertian, one]
  | [direction, color], _ => simp [lambertianShading, documentedLambertian]
  | [direction, color, ambient], _ => simp [lambertianShading, documentedLambertian]
  | _::_::_::_::_, h =>
    simp only [List.length_cons] at h
    omega

theorem shading_eq_iff (shading : ShadingParam) :
    setShadingDefaults (some (encodedShading shading)) = documentedShading shading ↔
      SpelledOut (.shading shading) := by
  cases shading with
  | uniformColor => simp [setShadingDefaults, encodedShading, documentedShading, SpelledOut]
  | lambertian arguments =>
    rw [SpelledOut, ← documentedLambertian_eq_iff]
    cases h : lambertianShading arguments
    cases h' : documentedLambertian arguments
    simp [setShadingDefaults, encodedShading, documentedShading, setLambertianDefaults, h, h']

theorem spelledOut_iff {params : List LogParam} (h : params.Pairwise Apart) :
    (∀ p ∈ params, SpelledOut p) ↔
      ∀ shading, given .shading params = some shading → SpelledOut (.shading shading) := by
  constructor
  · intro hall shading hgiven
    obtain ⟨p, hp, hvalue⟩ := (given_eq_some_iff h .shading shading).mp hgiven
    have hspelled := hall p hp
    cases p <;> cases hvalue
    exact hspelled
  · intro hshading p hp
    cases p with
    | shading data => exact hshading data ((given_eq_some_iff h .shading data).mpr ⟨_, hp, rfl⟩)
    | _ => trivial

theorem stored_eq_iff (id : String) {params : List LogParam} (h : params.Pairwise Apart)
    (hgeometry : ∃ p ∈ params, isGeometry p = true) :
    setDisplayDefaults { draft params with id := some ⟨id⟩ } = documentedItem id params ↔
      ∀ p ∈ params, SpelledOut p := by
  have hany : params.any isGeometry = true := List.any_eq_true.mpr hgeometry
  have hdisplay : (draft params).displayInfo.getD {} = givenDisplay params :=
    mutableDisplayInfo_draft params
  rw [spelledOut_iff h]
  simp only [setDisplayDefaults, documentedItem, hdisplay]
  simp only [draft, hany, if_true, completeDisplayInfo, givenDisplay, SceneItemInfo.idValue]
  cases hs : given .shading params with
  | none =>
    simp [setShadingDefaults, documentedFormat, documentedTransformation, documentedColor,
      documentedColoring, defaultGeomFormat, defaultTransformation, defaultColor, defaultColoring]
  | some shading =>
    simp [← shading_eq_iff, documentedFormat, documentedTransformation, documentedColor,
      documentedColoring, defaultGeomFormat, defaultTransformation, defaultColor, defaultColoring]

end Documented

section Sending

def freshStream (id : String) : GeometryItemStream := { id, stub := true }

theorem send_creates (s : SceneServer) (stream : GeometryItemStream) (hstub : stream.stub = true)
    (hid : stream.id ∉ s.scene) (hgeometry : stream.info.geometryInfo.isSome) {type : SendType}
    (htype : type ≠ .append) :
    let stored := setDisplayDefaults { stream.info with id := some ⟨stream.id⟩ }
    sendCurrentData s stream type =
      ({ s with
          scene := s.scene.insert stream.id stored
          sceneStream := s.sceneStream ++ [.addItem stored] },
        { stream with info := {}, errorMessage := "" }) := by
  have hlookup : s.scene.lookup stream.id = none := Finmap.lookup_eq_none.mpr hid
  obtain ⟨geometry, hg⟩ := Option.isSome_iff_exists.mp hgeometry
  cases type with
  | append => exact absurd rfl htype
  | safe =>
    simp [sendCurrentData, hstub, request, requestUpdateScene_eq, verdict, SceneItemInfo.idValue,
      hlookup, hg, perform, write]
  | replace =>
    simp [sendCurrentData, hstub, request, requestUpdateScene_eq, verdict, SceneItemInfo.idValue,
      hlookup, hg, perform, write]

/-- Parameters that write different fields, geometry among them, are stored
and broadcast as one item, which is the documented one exactly when the
shading is spelled out. -/
theorem parameters_reach_scene (s : SceneServer) {id : String} (hid : id ∉ s.scene)
    {params : List LogParam} (happart : params.Pairwise Apart)
    (hgeometry : ∃ p ∈ params, isGeometry p = true) {type : SendType} (htype : type ≠ .append) :
    ∃ stream stored, pushAll (freshStream id) params = .done stream ∧
      (sendCurrentData s stream type).1 =
        { s with
          scene := s.scene.insert id stored
          sceneStream := s.sceneStream ++ [.addItem stored] } ∧
      (sendCurrentData s stream type).2.success = true ∧
      (stored = documentedItem id params ↔ ∀ p ∈ params, SpelledOut p) := by
  have hlets : params.Pairwise Lets := happart.imp lets_of_apart
  have hfree : ∀ p ∈ params, isSet (freshStream id).info (checked p) = false :=
    fun p _ => isSet_draft [] (checked p)
  obtain ⟨stream, hstream⟩ :=
    (Outcome.returns_iff _).mp ((pushAll_returns_iff params (freshStream id)).mpr ⟨hfree, hlets⟩)
  have hpush : pushAll (freshStream id) params =
      .done { freshStream id with info := draft params } := by
    have hcontent := @pushAll_content [] params (freshStream id) stream rfl hstream
    rw [List.append_nil, ← draft_perm happart (List.reverse_perm params).symm] at hcontent
    rw [hstream, hcontent]
  have hany : params.any isGeometry = true := List.any_eq_true.mpr hgeometry
  have hsend := send_creates s { freshStream id with info := draft params } rfl hid
    (by simp [draft, hany]) htype
  refine ⟨_, _, hpush, ?_, ?_, stored_eq_iff id happart hgeometry⟩
  · exact congrArg Prod.fst hsend
  · exact congrArg (fun answer => answer.2.success) hsend

def shaded (shading : ShadingParam) : List LogParam :=
  [.indices .lineStrip [0, 1], .shading shading, .parent "frame",
    .positions3d [0, 0, 0, one, one, one]]

instance (p q : LogParam) : Decidable (Apart p q) :=
  inferInstanceAs (Decidable (∀ slot, ¬ ((value slot p).isSome ∧ (value slot q).isSome)))

def sunlight : Arguments := ⟨[⟨0, 0xBF800000, 0⟩, ⟨one, one, one⟩, ⟨0, 0, 0⟩], by decide⟩

theorem sunlit_reaches_scene :
    ∃ stream stored, pushAll (freshStream "item") (shaded (.lambertian sunlight)) = .done stream ∧
      (sendCurrentData {} stream .replace).1 =
        { ({} : SceneServer) with
          scene := Finmap.insert "item" stored ∅
          sceneStream := [] ++ [.addItem stored] } ∧
      (sendCurrentData {} stream .replace).2.success = true ∧
      (stored = documentedItem "item" (shaded (.lambertian sunlight)) ↔
        ∀ p ∈ shaded (.lambertian sunlight), SpelledOut p) :=
  parameters_reach_scene {} Finmap.notMem_empty (by decide) ⟨_, List.mem_cons_self, rfl⟩ (by decide)

/-- A uniform shading is stored with no case set, and a Lambertian one without
arguments with a light from `{-1.f, -1.f, -1.f}`. -/
theorem shadings_not_documented :
    (∃ stream stored, pushAll (freshStream "item") (shaded .uniformColor) = .done stream ∧
      (sendCurrentData {} stream .safe).1.scene.lookup "item" = some stored ∧
      stored.displayInfo.bind (·.shading) = some .valueNotSet ∧
      stored ≠ documentedItem "item" (shaded .uniformColor)) ∧
    ∃ stream stored, pushAll (freshStream "item") (shaded (.lambertian ⟨[], by decide⟩)) =
        .done stream ∧
      (sendCurrentData {} stream .safe).1.scene.lookup "item" = some stored ∧
      stored ≠ documentedItem "item" (shaded (.lambertian ⟨[], by decide⟩)) :=
  ⟨⟨_, _, rfl, rfl, rfl, by decide⟩, ⟨_, _, rfl, rfl, by decide⟩⟩

end Sending

end GVS.LoggedItems
