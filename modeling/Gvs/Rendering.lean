import Gvs.Shader
import Gvs.DrawStates
import Gvs.Bookkeeping
import Mathlib.Data.List.Nodup
import Mathlib.Data.List.Perm.Basic

/-!
# Frames

`OpenGLScene::render`: the camera draws the drawables of the group in the
order in which they were registered, all with the one shader. A frame is the
list of its draw calls; a call is what the two stages compute and the mesh
they compute it for. In a kept scene every drawable refers to the mesh of its
own package, so that a frame never follows a dangling reference, and a frame
is one call for each item.
-/

set_option autoImplicit false

namespace GVS.Rendering
open GVS.Proto GVS.ItemDefaults GVS.Vis GVS.SceneBooks GVS.Wiring GVS.Display GVS.DrawStates GVS.Bookkeeping
open GVS.Shader ParentForest GuardedRuns

structure DrawCall where
  vertex : Vertex → Varyings × (Vec3 × Single)
  fragment : Varyings → Vec3 × Single
  primitive : MeshPrimitive
  mesh : DrawState

inductive Descends (s : OpenGLScene) : ℕ → List Mat4 → Prop where
  | scene {o : ℕ} {object : Object3D} (ho : s.graph o = some object) (hp : object.parent = none) :
    Descends s o [object.transformation]
  | child {o p : ℕ} {object : Object3D} {ts : List Mat4} (ho : s.graph o = some object)
    (hp : object.parent = some p) (hts : Descends s p ts) :
    Descends s o (ts ++ [object.transformation])

variable {M N : Type*}

def drawCall (a : Arithmetic M N) (u : Uniforms M N) (package : ObjectMeshPackage) : DrawCall where
  vertex := vertexMain a u
  fragment := fragmentMain a u
  primitive := package.mesh.primitive
  mesh := drawState package

/-- The camera comes to a drawable. Its mesh is that of the package that made
it, while that package lives. -/
inductive Draws (a : Arithmetic M N) (camera : Camera M) (s : OpenGLScene) (u : Uniforms M N) :
    ℕ → Uniforms M N → DrawCall → Prop where
  | draw {d : ℕ} {drawable : OpaqueDrawable} {id : String} {package : ObjectMeshPackage}
    {ts : List Mat4} (hd : s.drawables d = some drawable) (hid : s.objects id = some package)
    (hown : package.drawable = d) (hmesh : package.address = drawable.mesh)
    (hts : Descends s drawable.object ts) :
    Draws a camera s u d (draw a camera drawable (a.relative camera.cameraMatrix ts) u)
      (drawCall a (draw a camera drawable (a.relative camera.cameraMatrix ts) u) package)

inductive DrawsAll (a : Arithmetic M N) (camera : Camera M) (s : OpenGLScene) :
    Uniforms M N → List ℕ → Uniforms M N → List DrawCall → Prop where
  | nil (u : Uniforms M N) : DrawsAll a camera s u [] u []
  | cons {u u' u'' : Uniforms M N} {d : ℕ} {ds : List ℕ} {call : DrawCall}
    {calls : List DrawCall} (h : Draws a camera s u d u' call)
    (hs : DrawsAll a camera s u' ds u'' calls) :
    DrawsAll a camera s u (d :: ds) u'' (call :: calls)

def registered (s : OpenGLScene) : List ℕ :=
  (List.range s.next).filter fun d => (s.drawables d).isSome

def Renders (a : Arithmetic M N) (camera : Camera M) (s : OpenGLScene) (u u' : Uniforms M N)
    (calls : List DrawCall) : Prop := DrawsAll a camera s u (registered s) u' calls

theorem mem_registered {s : OpenGLScene} (hs : Wired (books s)) (d : ℕ) :
    d ∈ registered s ↔ (s.drawables d).isSome := by
  simp only [registered, List.mem_filter, List.mem_range, and_iff_right_iff_imp]
  intro hd
  obtain ⟨drawable, hd⟩ := Option.isSome_iff_exists.mp hd
  exact hs.drawable_lt d ⟨drawable.object, drawable.mesh⟩ (by simp [books, hd])

theorem registered_nodup (s : OpenGLScene) : (registered s).Nodup :=
  List.nodup_range.filter _

theorem descends_unique {s : OpenGLScene} {o : ℕ} {ts ts' : List Mat4} (h : Descends s o ts)
    (h' : Descends s o ts') : ts = ts' := by
  induction h generalizing ts' with
  | scene ho hp =>
    cases h' with
    | scene ho' hp' =>
      rw [ho] at ho'
      cases ho'
      rfl
    | child ho' hp' hts' =>
      rw [ho] at ho'
      cases ho'
      rw [hp] at hp'
      cases hp'
  | child ho hp hts ih =>
    cases h' with
    | scene ho' hp' =>
      rw [ho] at ho'
      cases ho'
      rw [hp] at hp'
      cases hp'
    | child ho' hp' hts' =>
      rw [ho] at ho'
      cases ho'
      rw [hp] at hp'
      cases hp'
      rw [ih hts']

theorem descends_exists {s : OpenGLScene} (hs : Kept (books s)) {o : ℕ}
    (hlive : (s.graph o).isSome) : ∃ ts, Descends s o ts := by
  obtain ⟨r, -, hbelow⟩ := (bookkept_of_kept hs).rooted
  have hup : ∀ o p, up s o = some p → (s.graph p).isSome := by
    intro o p hop
    rw [← up_books] at hop
    simpa [books] using hs.wired.up_live o p hop
  have hacyclic := hs.wired.acyclic
  rw [up_books] at hacyclic
  have hb := hbelow o hlive
  induction hb using Relation.ReflTransGen.head_induction_on with
  | refl =>
    obtain ⟨object, ho⟩ := Option.isSome_iff_exists.mp hlive
    refine ⟨_, .scene ho ?_⟩
    cases hp : object.parent with
    | none => rfl
    | some p =>
      have hrp : up s r = some p := by simp [up, ho, hp]
      exact absurd (hbelow p (hup r p hrp)) (hacyclic r p hrp)
  | @head o p hop _ ih =>
    obtain ⟨object, ho⟩ := Option.isSome_iff_exists.mp hlive
    obtain ⟨ts, hts⟩ := ih (hup o p hop)
    exact ⟨_, .child ho (by simpa [up, ho] using hop) hts⟩

inductive Pictured (a : Arithmetic M N) (camera : Camera M) (s : OpenGLScene) (id : String) :
    DrawCall → Prop where
  | intro {package : ObjectMeshPackage} {drawable : OpaqueDrawable} {ts : List Mat4}
    {u : Uniforms M N} (hid : s.objects id = some package)
    (hd : s.drawables package.drawable = some drawable) (hts : Descends s package.object ts)
    (hu : u.opacity = one) :
    Pictured a camera s id
      (drawCall a (draw a camera drawable (a.relative camera.cameraMatrix ts) u) package)

theorem drawCall_congr (a : Arithmetic M N) {u v : Uniforms M N} (h : Alike u v)
    (package : ObjectMeshPackage) : drawCall a u package = drawCall a v package := by
  rw [drawCall, drawCall, h.vertexMain, h.fragmentMain]

theorem pictured_unique {a : Arithmetic M N} {camera : Camera M} {s : OpenGLScene} {id : String}
    {call call' : DrawCall} (h : Pictured a camera s id call) (h' : Pictured a camera s id call') :
    call = call' := by
  cases h with
  | intro hid hd hts hu =>
    cases h' with
    | intro hid' hd' hts' hu' =>
      rw [hid] at hid'
      cases hid'
      rw [hd] at hd'
      cases hd'
      rw [descends_unique hts' hts]
      exact drawCall_congr a (draw_alike a camera _ _ (hu.trans hu'.symm)) _

def Owns (s : OpenGLScene) (d : ℕ) (id : String) : Prop :=
  ∃ package, s.objects id = some package ∧ package.drawable = d

theorem draws_pictured {a : Arithmetic M N} {camera : Camera M} {s : OpenGLScene}
    (hs : Wired (books s)) {u u' : Uniforms M N} {d : ℕ} {call : DrawCall} (hu : u.opacity = one)
    (h : Draws a camera s u d u' call) :
    u'.opacity = one ∧ ∃ id, Owns s d id ∧ Pictured a camera s id call := by
  cases h with
  | @draw drawable id package ts hd hid hown hmesh hts =>
    have hattached := hs.attached id (handles package) (by simp [books, hid])
    have hobject : drawable.object = package.object := by
      simp only [books, handles, hown, hd, Option.map_some, Option.some.injEq,
        Attachment.mk.injEq] at hattached
      exact hattached.1
    refine ⟨by simpa using hu, id, ⟨package, hid, hown⟩, ?_⟩
    exact .intro hid (hown ▸ hd) (hobject ▸ hts) hu

theorem drawsAll_pictured {a : Arithmetic M N} {camera : Camera M} {s : OpenGLScene}
    (hs : Wired (books s)) {u u' : Uniforms M N} {ds : List ℕ} {calls : List DrawCall}
    (hu : u.opacity = one) (h : DrawsAll a camera s u ds u' calls) :
    ∃ ids, List.Forall₂ (Owns s) ds ids ∧ List.Forall₂ (Pictured a camera s) ids calls := by
  induction h with
  | nil u => exact ⟨[], .nil, .nil⟩
  | cons h _ ih =>
    obtain ⟨hu', id, hown, hcall⟩ := draws_pictured hs hu h
    obtain ⟨ids, howns, hcalls⟩ := ih hu'
    exact ⟨id :: ids, .cons hown howns, .cons hcall hcalls⟩

theorem owns_unique {s : OpenGLScene} {d d' : ℕ} {id : String} (h : Owns s d id)
    (h' : Owns s d' id) : d = d' := by
  obtain ⟨package, hid, rfl⟩ := h
  obtain ⟨package', hid', rfl⟩ := h'
  rw [hid] at hid'
  cases hid'
  rfl

theorem owner_unique {s : OpenGLScene} (hs : Wired (books s)) {d : ℕ} {id id' : String}
    (h : Owns s d id) (h' : Owns s d id') : id = id' := by
  obtain ⟨package, hid, rfl⟩ := h
  obtain ⟨package', hid', hd⟩ := h'
  have hb : (books s).packages id = some (handles package) := by simp [books, hid]
  have hb' : (books s).packages id' = some (handles package') := by simp [books, hid']
  exact hs.drawable_inj hb hb' hd.symm

theorem owns_biUnique {s : OpenGLScene} (hs : Wired (books s)) : Relator.BiUnique (Owns s) :=
  ⟨fun _ _ _ h h' => owns_unique h h', fun _ _ _ h h' => owner_unique hs h h'⟩

theorem owned_registered {s : OpenGLScene} (hs : Wired (books s)) {d : ℕ} {id : String}
    (h : Owns s d id) : d ∈ registered s := by
  obtain ⟨package, hid, rfl⟩ := h
  have hattached := hs.attached id (handles package) (by simp [books, hid])
  rw [mem_registered hs]
  obtain ⟨drawable, hd, -⟩ := Option.map_eq_some_iff.mp hattached
  exact Option.isSome_iff_exists.mpr ⟨drawable, hd⟩

theorem forall₂_left {α β : Type*} {R : α → β → Prop} {as : List α} {bs : List β}
    (h : List.Forall₂ R as bs) : ∀ a ∈ as, ∃ b, R a b := by
  induction h with
  | nil => simp
  | @cons a b as bs hab _ ih => exact List.forall_mem_cons.mpr ⟨⟨b, hab⟩, ih⟩

/-- A frame of a kept scene has one call for each item, the root included. -/
theorem renders_items {a : Arithmetic M N} {camera : Camera M} {s : OpenGLScene}
    (hs : Wired (books s)) {u u' : Uniforms M N} {calls : List DrawCall} (hu : u.opacity = one)
    (h : Renders a camera s u u' calls) :
    ∃ ids : List String, ids.Nodup ∧ (∀ id, id ∈ ids ↔ (s.objects id).isSome) ∧
      List.Forall₂ (Pictured a camera s) ids calls := by
  obtain ⟨ids, howns, hcalls⟩ := drawsAll_pictured hs hu h
  have hunique := owns_biUnique hs
  refine ⟨ids, (List.rel_nodup hunique howns).mp (registered_nodup s), fun id => ⟨?_, ?_⟩, hcalls⟩
  · intro hmem
    obtain ⟨call, hcall⟩ := forall₂_left hcalls id hmem
    cases hcall with
    | intro hid _ _ _ => simp [hid]
  · intro hid
    obtain ⟨package, hid⟩ := Option.isSome_iff_exists.mp hid
    have hown : Owns s package.drawable id := ⟨package, hid, rfl⟩
    exact (List.rel_mem hunique hown howns).mp (owned_registered hs hown)

/-- A kept scene can be drawn: no drawable refers to a mesh that is gone. -/
theorem renders_exists (a : Arithmetic M N) (camera : Camera M) {s : OpenGLScene}
    (hs : Kept (books s)) (u : Uniforms M N) : ∃ u' calls, Renders a camera s u u' calls := by
  have hdraws : ∀ d ∈ registered s, ∀ u : Uniforms M N, ∃ u' call, Draws a camera s u d u' call := by
    intro d hd u
    obtain ⟨drawable, hdrawable⟩ := Option.isSome_iff_exists.mp ((mem_registered hs.wired d).mp hd)
    obtain ⟨id, ⟨package, hid, hown, hobject, hmesh⟩, -⟩ :=
      (bookkept_of_kept hs).owned d drawable hdrawable
    obtain ⟨ts, hts⟩ := descends_exists hs ((bookkept_of_kept hs).live id package hid)
    exact ⟨_, _, .draw hdrawable hid hown hmesh (hobject ▸ hts)⟩
  unfold Renders
  generalize registered s = ds at hdraws ⊢
  induction ds generalizing u with
  | nil => exact ⟨u, [], .nil u⟩
  | cons d ds ih =>
    obtain ⟨u₁, call, hcall⟩ := hdraws d List.mem_cons_self u
    obtain ⟨u', calls, hcalls⟩ := ih u₁ (fun d' hd' => hdraws d' (List.mem_cons_of_mem _ hd'))
    exact ⟨u', call :: calls, .cons hcall hcalls⟩

/-- The uniforms that the shader may be left with: those of its construction,
and then those after frames of any scenes. -/
inductive Left (a : Arithmetic M N) : Uniforms M N → Prop where
  | construct : Left a (constructShader a)
  | render {camera : Camera M} {s : OpenGLScene} {u u' : Uniforms M N} {calls : List DrawCall}
    (hu : Left a u) (h : Renders a camera s u u' calls) : Left a u'

theorem drawsAll_opacity {a : Arithmetic M N} {camera : Camera M} {s : OpenGLScene}
    {u u' : Uniforms M N} {ds : List ℕ} {calls : List DrawCall}
    (h : DrawsAll a camera s u ds u' calls) : u'.opacity = u.opacity := by
  induction h with
  | nil u => rfl
  | cons h _ ih =>
    cases h with
    | draw hd hid hown hmesh hts => rw [ih, draw_opacity]

/-- Nothing ever sets the opacity. -/
theorem left_opacity {a : Arithmetic M N} {u : Uniforms M N} (h : Left a u) : u.opacity = one := by
  induction h with
  | construct => rfl
  | render _ h ih => rw [drawsAll_opacity h, ih]

theorem renders_unique {a : Arithmetic M N} {camera : Camera M} {s : OpenGLScene}
    (hs : Wired (books s)) {u u' v v' : Uniforms M N} {calls calls' : List DrawCall}
    (hu : Left a u) (hv : Left a v) (h : Renders a camera s u u' calls)
    (h' : Renders a camera s v v' calls') : calls = calls' := by
  obtain ⟨ids, howns, hcalls⟩ := drawsAll_pictured hs (left_opacity hu) h
  obtain ⟨ids', howns', hcalls'⟩ := drawsAll_pictured hs (left_opacity hv) h'
  obtain rfl : ids = ids' := List.right_unique_forall₂' (owns_biUnique hs).2 howns howns'
  have hunique : Relator.RightUnique (Pictured a camera s) := fun _ _ _ => pictured_unique
  exact List.right_unique_forall₂' hunique hcalls hcalls'

/-- After any run of calls that leave nothing behind a frame can be drawn. Its
calls are those of the items, each once, and the same whatever was drawn
before with the shader. -/
theorem frame_of_tidy_calls (a : Arithmetic M N) (camera : Camera M) (scene : List Call)
    (h : Along act Tidy (some construct) scene) (s : OpenGLScene)
    (hs : run act (some construct) scene = some s) (u : Uniforms M N) (hu : Left a u) :
    (∃ u' calls, Renders a camera s u u' calls) ∧
      ∀ u' calls, Renders a camera s u u' calls →
        (∃ ids : List String, ids.Nodup ∧ (∀ id, id ∈ ids ↔ (s.objects id).isSome) ∧
          List.Forall₂ (Pictured a camera s) ids calls) ∧
        ∀ v v' calls', Left a v → Renders a camera s v v' calls' → calls' = calls := by
  have halive : Alive (run act (some construct) scene) :=
    run_invariant_along act Alive (fun process c hp hc => alive_act process c hp hc)
      (fun t ht => by cases ht; exact kept_construct) h
  have hkept := halive s hs
  refine ⟨renders_exists a camera hkept u, fun u' calls hcalls => ⟨?_, ?_⟩⟩
  · exact renders_items hkept.wired (left_opacity hu) hcalls
  · intro v v' calls' hv hcalls'
    exact renders_unique hkept.wired hv hu hcalls' hcalls

def symbolic : Arithmetic (List Mat4) (List Mat4) where
  identity := []
  identityNormals := []
  relative m ts := m ++ ts
  multiply m m' := m ++ m'
  inverted m := m.reverse
  rotationScaling m := m
  timesPoint _ v := v
  timesNormal _ v := v
  normalize v := v
  negate v := v
  dot v _ := v.x
  max x _ := x
  scale _ v := v
  add v _ := v
  times v _ := v
  shift v _ := v

def oneItem : List Call := [.addItem (shapedItem "a" "")]

theorem oneItem_tidy : Along act Tidy (some construct) oneItem := by
  refine ⟨?_, trivial⟩
  rintro s ⟨⟩ -
  exact ⟨rfl, rfl, rfl⟩

theorem frame_of_one_item :
    let s := (Vis.addItem construct (shapedItem "a" "")).state
    let u := constructShader symbolic
    (∃ u' calls, Renders symbolic ⟨[], []⟩ s u u' calls) ∧
      ∀ u' calls, Renders symbolic ⟨[], []⟩ s u u' calls →
        (∃ ids : List String, ids.Nodup ∧ (∀ id, id ∈ ids ↔ (s.objects id).isSome) ∧
          List.Forall₂ (Pictured symbolic ⟨[], []⟩ s) ids calls) ∧
        ∀ v v' calls', Left symbolic v → Renders symbolic ⟨[], []⟩ s v v' calls' →
          calls' = calls :=
  frame_of_tidy_calls symbolic ⟨[], []⟩ oneItem oneItem_tidy _ rfl _ .construct

end GVS.Rendering
