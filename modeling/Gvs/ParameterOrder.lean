import Gvs.LoggedItems

/-!
# The order of parameters

A functor rejects an item that has its field, so two parameters for one field
are rejected in any order. The exception is the format of `indices`, which is
written without a look: before `geometry_format` it makes the chain throw,
after it the first format is lost.
-/

set_option autoImplicit false

namespace GVS.ParameterOrder
open GVS.Proto GVS.LogParams GVS.LoggedItems

def shiftAll (stream : GeometryItemStream) (params : List LogParam) :
    Outcome String GeometryItemStream := Outcome.drive shiftLeft stream params

def emptied (stream : GeometryItemStream) : GeometryItemStream := { stream with info := {} }

def Throws (stream : GeometryItemStream) (params : List LogParam) : Prop :=
  ¬ (shiftAll (emptied stream) params).Returns

def OrderFree (stream : GeometryItemStream) (params : List LogParam) : Prop :=
  ∀ params', params.Perm params' →
    (Throws stream params ↔ Throws stream params') ∧
      (¬ Throws stream params → ¬ Throws stream params' →
        (shiftAll (emptied stream) params).state.info =
          (shiftAll (emptied stream) params').state.info)

def NothingLost (stream : GeometryItemStream) (params : List LogParam) : Prop :=
  ∀ params', params.Perm params' → ¬ params'.Pairwise Apart → Throws stream params'

/-- The list has a format of its own and one that comes with indices, and no
two of its functors look at the same field. -/
def FormatTwice (params : List LogParam) : Prop :=
  (params.map checked).Nodup ∧ (∃ format, .geometryFormat format ∈ params) ∧
    ∃ format data, .indices format data ∈ params

section Pairs

theorem value_isSome_iff (slot : Slot) (p : LogParam) :
    (value slot p).isSome = true ↔
      slot = checked p ∨ (slot = .geometryFormat ∧ checked p = .indices) := by
  cases p <;> cases slot <;> simp [value, checked]

/-- A parameter is in the way of one that looks at its own field, and indices
are in the way of a format. -/
theorem lets_iff (p q : LogParam) :
    Lets p q ↔ checked q ≠ checked p ∧ ¬ (checked q = .geometryFormat ∧ checked p = .indices) := by
  rw [Lets, ← Option.not_isSome_iff_eq_none, value_isSome_iff, not_or]

theorem apart_iff (p q : LogParam) : Apart p q ↔ Lets p q ∧ Lets q p := by
  constructor
  · intro h
    exact ⟨lets_of_apart h, lets_of_apart (apart_symm h)⟩
  · rintro ⟨hpq, hqp⟩ slot ⟨hp, hq⟩
    rw [lets_iff] at hpq hqp
    rw [value_isSome_iff] at hp hq
    rcases hp with rfl | ⟨rfl, hp⟩
    · rcases hq with hq | ⟨hformat, hq⟩
      · exact hqp.1 hq
      · exact hqp.2 ⟨hformat, hq⟩
    · rcases hq with hq | ⟨-, hq⟩
      · exact hpq.2 ⟨hq.symm, hp⟩
      · exact hqp.1 (hp.trans hq.symm)

end Pairs

section Orders

theorem shiftAll_eq_pushAll (stream : GeometryItemStream) (params : List LogParam) :
    shiftAll stream params = pushAll stream params := by
  have hstep : shiftLeft = fun stream p => push stream p.functor := by
    ext stream p : 2
    exact shiftLeft_eq_push stream p
  rw [shiftAll, pushAll, hstep]

theorem not_throws_iff (stream : GeometryItemStream) (params : List LogParam) :
    ¬ Throws stream params ↔ params.Pairwise Lets := by
  have hfree : ∀ p ∈ params, isSet (emptied stream).info (checked p) = false :=
    fun p _ => isSet_draft [] (checked p)
  rw [Throws, not_not, shiftAll_eq_pushAll, pushAll_returns_iff]
  exact and_iff_right hfree

theorem info_of_not_throws {stream : GeometryItemStream} {params : List LogParam}
    (h : ¬ Throws stream params) :
    (shiftAll (emptied stream) params).state.info = draft params.reverse := by
  obtain ⟨left, hleft⟩ := (Outcome.returns_iff _).mp (not_not.mp h)
  have hcontent := @pushAll_content [] params (emptied stream) left rfl
    ((shiftAll_eq_pushAll _ _).symm.trans hleft)
  rw [hleft, Outcome.state_done, hcontent, List.append_nil]

theorem distinct_of_lets {params : List LogParam} (h : params.Pairwise Lets) :
    (params.map checked).Nodup := by
  apply List.pairwise_map.mpr
  exact h.imp fun hlets => ((lets_iff _ _).mp hlets).1.symm

/-- Without a second format, parameters that look at different fields write
different fields. -/
theorem apart_of_distinct {params : List LogParam} (hn : (params.map checked).Nodup)
    (h : ¬ FormatTwice params) : params.Pairwise Apart := by
  have hformat : ∀ p ∈ params, ∀ q ∈ params,
      ¬ (checked p = .geometryFormat ∧ checked q = .indices) := by
    rintro p hp q hq ⟨hgeometry, hindices⟩
    cases p <;> simp [checked] at hgeometry
    cases q <;> simp [checked] at hindices
    exact h ⟨hn, ⟨_, hp⟩, ⟨_, _, hq⟩⟩
  refine (List.pairwise_map.mp hn).imp_of_mem fun {p q} hp hq hne => ?_
  rw [apart_iff, lets_iff, lets_iff]
  exact ⟨⟨hne.symm, hformat q hq p hp⟩, hne, hformat p hp q hq⟩

theorem orders_agree {params params' : List LogParam} (stream : GeometryItemStream)
    (hperm : params.Perm params') (h : params.Pairwise Apart) :
    ¬ Throws stream params ∧ ¬ Throws stream params' ∧
      (shiftAll (emptied stream) params).state.info =
        (shiftAll (emptied stream) params').state.info := by
  have h' : params'.Pairwise Apart := (hperm.pairwise_iff apart_symm).mp h
  have hthrows := (not_throws_iff stream params).mpr (h.imp lets_of_apart)
  have hthrows' := (not_throws_iff stream params').mpr (h'.imp lets_of_apart)
  refine ⟨hthrows, hthrows', ?_⟩
  rw [info_of_not_throws hthrows, info_of_not_throws hthrows',
    ← draft_perm h (List.reverse_perm params).symm, ← draft_perm h' (List.reverse_perm params').symm,
    draft_perm h hperm]

theorem orders_throw {params params' : List LogParam} (stream : GeometryItemStream)
    (hperm : params.Perm params') (h : ¬ (params.map checked).Nodup) : Throws stream params' := by
  intro hreturns
  apply h
  rw [(hperm.map checked).nodup_iff]
  exact distinct_of_lets ((not_throws_iff stream params').mp (not_not.mpr hreturns))

/-- With a second format, one order goes through and another throws. -/
theorem orders_differ {params : List LogParam} (stream : GeometryItemStream)
    (h : FormatTwice params) :
    ∃ passing failing, params.Perm passing ∧ params.Perm failing ∧ ¬ passing.Pairwise Apart ∧
      ¬ Throws stream passing ∧ Throws stream failing := by
  obtain ⟨hn, ⟨format, hformat⟩, ⟨format', data, hindices⟩⟩ := h
  have hfirst := List.perm_cons_erase hformat
  have hmem : .indices format' data ∈ params.erase (.geometryFormat format) :=
    (List.mem_erase_of_ne (by simp)).mpr hindices
  have hboth := hfirst.trans ((List.perm_cons_erase hmem).cons _)
  have hswap := hboth.trans (List.Perm.swap _ _ _)
  refine ⟨_, _, hboth, hswap, ?_, ?_, ?_⟩
  · intro hapart
    exact (List.pairwise_cons.mp hapart).1 _ List.mem_cons_self .geometryFormat ⟨rfl, rfl⟩
  · have hdistinct := (hboth.map checked).nodup_iff.mp hn
    rw [List.map_cons, List.nodup_cons] at hdistinct
    obtain ⟨hfresh, hrest⟩ := hdistinct
    rw [not_throws_iff, List.pairwise_cons]
    constructor
    · intro q hq
      rw [lets_iff]
      constructor
      · intro heq
        exact hfresh (List.mem_map.mpr ⟨q, hq, heq⟩)
      · rintro ⟨-, hindices⟩
        cases hindices
    · -- behind the format nothing looks at the format
      apply (List.pairwise_map.mp hrest).imp_of_mem
      intro p q hp hq hne
      rw [lets_iff]
      exact ⟨hne.symm, fun hlate => hfresh (List.mem_map.mpr ⟨q, hq, hlate.1⟩)⟩
  · intro hreturns
    have hlets := (not_throws_iff stream _).mp (not_not.mpr hreturns)
    have hfail := (List.pairwise_cons.mp hlets).1 _ List.mem_cons_self
    exact ((lets_iff _ _).mp hfail).2 ⟨rfl, rfl⟩

/-- The order of parameters shows in nothing, and no parameter is lost without
an exception, exactly when the list does not have a second format. -/
theorem parameter_order (stream : GeometryItemStream) (params : List LogParam) :
    (OrderFree stream params ↔ ¬ FormatTwice params) ∧
      (NothingLost stream params ↔ ¬ FormatTwice params) := by
  constructor
  · constructor
    · intro hfree htwice
      obtain ⟨passing, failing, hpass, hfail, -, hpassing, hfailing⟩ :=
        orders_differ stream htwice
      exact hpassing ((hfree passing hpass).1.mp ((hfree failing hfail).1.mpr hfailing))
    · intro h params' hperm
      by_cases hn : (params.map checked).Nodup
      · obtain ⟨hgoes, hgoes', hinfo⟩ := orders_agree stream hperm (apart_of_distinct hn h)
        exact ⟨iff_of_false hgoes hgoes', fun _ _ => hinfo⟩
      · have hthrows := orders_throw stream (List.Perm.refl params) hn
        exact ⟨iff_of_true hthrows (orders_throw stream hperm hn), fun hgoes => absurd hthrows hgoes⟩
  · constructor
    · intro hlost htwice
      obtain ⟨passing, -, hpass, -, hsame, hpassing, -⟩ := orders_differ stream htwice
      exact hpassing (hlost passing hpass hsame)
    · intro h params' hperm hsame
      by_cases hn : (params.map checked).Nodup
      · exact absurd ((hperm.pairwise_iff apart_symm).mp (apart_of_distinct hn h)) hsame
      · exact orders_throw stream hperm hn

def formatThenIndices : List LogParam := [.geometryFormat .triangles, .indices .lineStrip [0, 1]]

/-- The format of the indices replaces the one that was given, and in the
other order the chain throws. -/
theorem format_overwritten :
    ¬ Throws (freshStream "item") formatThenIndices ∧
      (shiftAll (emptied (freshStream "item")) formatThenIndices).state.info.displayInfo.bind
        (·.geometryFormat) = some .lineStrip ∧
      Throws (freshStream "item") formatThenIndices.reverse ∧
      ¬ OrderFree (freshStream "item") formatThenIndices ∧
      ¬ NothingLost (freshStream "item") formatThenIndices := by
  have hgoes : ¬ Throws (freshStream "item") formatThenIndices := not_not.mpr rfl
  have hthrows : Throws (freshStream "item") formatThenIndices.reverse :=
    Outcome.not_returns_raised _ _
  refine ⟨hgoes, rfl, hthrows, fun hfree => ?_, fun hlost => ?_⟩
  · exact hgoes ((hfree _ (List.reverse_perm _).symm).1.mpr hthrows)
  · apply hgoes
    apply hlost formatThenIndices (List.Perm.refl _)
    intro hapart
    exact (List.pairwise_cons.mp hapart).1 _ List.mem_cons_self .geometryFormat ⟨rfl, rfl⟩

end Orders

end GVS.ParameterOrder
