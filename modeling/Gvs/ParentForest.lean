import Mathlib.Data.Finset.Card
import Mathlib.Logic.Function.Basic
import Mathlib.Order.WellFoundedSet

/-!
# Forests of parent pointers

A forest is a parent pointer on nodes, none at the top. A node lies below
another when following pointers from the one reaches the other. Climbing is
the executable test for it: enough steps decide the relation on an acyclic
forest with finitely many pointers. Attaching a node under another keeps the
forest acyclic exactly when the new parent is not below the node.
-/

set_option autoImplicit false

namespace ParentForest

variable {ν : Type*}

def Below (up : ν → Option ν) : ν → ν → Prop :=
  Relation.ReflTransGen (fun a b => up a = some b)

def Acyclic (up : ν → Option ν) : Prop := ∀ a b, up a = some b → ¬ Below up b a

theorem below_refl (up : ν → Option ν) (a : ν) : Below up a a := Relation.ReflTransGen.refl

theorem below_trans {up : ν → Option ν} {a b c : ν} (h : Below up a b) (h' : Below up b c) :
    Below up a c := Relation.ReflTransGen.trans h h'

theorem below_step {up : ν → Option ν} {a b c : ν} (h : up a = some b) (h' : Below up b c) :
    Below up a c := Relation.ReflTransGen.head h h'

theorem below_cases {up : ν → Option ν} {a c : ν} (h : Below up a c) :
    a = c ∨ ∃ b, up a = some b ∧ Below up b c := by
  rcases Relation.ReflTransGen.cases_head h with h | ⟨b, hab, hbc⟩
  · exact Or.inl h
  · exact Or.inr ⟨b, hab, hbc⟩

theorem below_of_top {up : ν → Option ν} {a c : ν} (ha : up a = none) (h : Below up a c) :
    a = c := by
  rcases below_cases h with h | ⟨b, hb, -⟩
  · exact h
  · rw [ha] at hb
    cases hb

/-- What lies above a node lies on one path. -/
theorem below_total {up : ν → Option ν} {a b c : ν} (h : Below up a b) (h' : Below up a c) :
    Below up b c ∨ Below up c b :=
  Relation.ReflTransGen.total_of_right_unique
    (fun _ _ _ hb hc => Option.some.inj (hb.symm.trans hc)) h h'

theorem below_mono {up up' : ν → Option ν} (h : ∀ a b, up a = some b → up' a = some b)
    {a c : ν} (hac : Below up a c) : Below up' a c := Relation.ReflTransGen.mono h a c hac

theorem acyclic_mono {up up' : ν → Option ν} (h : ∀ a b, up a = some b → up' a = some b)
    (hc : Acyclic up') : Acyclic up :=
  fun a b hab hba => hc a b (h a b hab) (below_mono h hba)

theorem acyclic_irrefl {up : ν → Option ν} (hc : Acyclic up) (a : ν) :
    ¬ Relation.TransGen (fun x y => up x = some y) a a := by
  intro h
  obtain ⟨b, hab, hba⟩ := Relation.TransGen.head'_iff.mp h
  exact hc a b hab hba

theorem irrefl_of_rank {R : ν → ν → Prop} (rank : ν → ℕ) (h : ∀ a b, R a b → rank b < rank a)
    (a : ν) : ¬ Relation.TransGen R a a := by
  have hlt : ∀ b, Relation.TransGen R a b → rank b < rank a := by
    intro b hab
    induction hab with
    | single hab => exact h _ _ hab
    | tail _ hbc ih => exact (h _ _ hbc).trans ih
  exact fun haa => Nat.lt_irrefl _ (hlt a haa)

theorem acyclic_of_rank {up : ν → Option ν} (rank : ν → ℕ)
    (h : ∀ a b, up a = some b → rank b < rank a) : Acyclic up := by
  have hrank : ∀ a c, Below up a c → rank c ≤ rank a := by
    intro a c hb
    induction hb using Relation.ReflTransGen.head_induction_on with
    | refl => exact Nat.le_refl _
    | head hab _ ih => exact ih.trans (Nat.le_of_lt (h _ _ hab))
  intro a b hab hb
  exact absurd (hrank b a hb) (Nat.not_le_of_lt (h a b hab))

/-- In an acyclic forest, finitely many nodes whose pointers lead from one to
another, except at the root, all lie below the root. -/
theorem below_of_finite {up : ν → Option ν} (hc : Acyclic up) {P : ν → Prop}
    (hf : {a | P a}.Finite) {r : ν} (h : ∀ a, P a → a = r ∨ ∃ b, up a = some b ∧ P b) {a : ν}
    (ha : P a) : Below up a r := by
  let above := fun b a => Relation.TransGen (fun x y => up x = some y) a b
  have : IsStrictOrder ν above := {
    irrefl := acyclic_irrefl hc
    trans := fun _ _ _ hab hbc => hbc.trans hab }
  have hwf : {a | P a}.WellFoundedOn above := hf.wellFoundedOn
  refine hwf.induction (P := fun b => Below up b r) ha fun b hb ih => ?_
  rcases h b hb with rfl | ⟨c, hbc, hPc⟩
  · exact below_refl up b
  · exact below_step hbc (ih c hPc (Relation.TransGen.single hbc))

/-- A path of the first forest that avoids a node is a path of any forest
that agrees with it away from that node. -/
theorem below_congr_avoid {up up' : ν → Option ν} {x : ν} (h : ∀ a, a ≠ x → up' a = up a)
    {a c : ν} (hac : Below up a c) (hax : ¬ Below up a x) : Below up' a c := by
  induction hac using Relation.ReflTransGen.head_induction_on with
  | refl => exact below_refl up' c
  | @head a b hab _ ih =>
    have hne : a ≠ x := fun he => hax (he ▸ below_refl up a)
    exact below_step (by rw [h a hne, hab]) (ih fun hbx => hax (below_step hab hbx))

/-- A path up to a node never uses the pointer of that node. -/
theorem below_congr_target {up up' : ν → Option ν} {x : ν} (h : ∀ a, a ≠ x → up' a = up a)
    {a : ν} (hax : Below up a x) : Below up' a x := by
  induction hax using Relation.ReflTransGen.head_induction_on with
  | refl => exact below_refl up' x
  | @head a b hab _ ih =>
    by_cases he : a = x
    · exact he ▸ below_refl up' x
    · exact below_step (by rw [h a he, hab]) ih

section Climbing

variable [DecidableEq ν]

def climbs (up : ν → Option ν) : ℕ → ν → ν → Bool
  | 0, a, c => a = c
  | n+1, a, c => a = c ||
    match up a with
    | none => false
    | some b => climbs up n b c

theorem climbs_sound (up : ν → Option ν) (n : ℕ) (a c : ν) (h : climbs up n a c = true) :
    Below up a c := by
  induction n generalizing a with
  | zero =>
    obtain rfl : a = c := by simpa [climbs] using h
    exact below_refl up a
  | succ n ih =>
    by_cases he : a = c
    · exact he ▸ below_refl up a
    · cases hu : up a with
      | none => simp [climbs, he, hu] at h
      | some b => exact below_step hu (ih b (by simpa [climbs, he, hu] using h))

theorem climbs_mono {up up' : ν → Option ν} (h : ∀ a b, up a = some b → up' a = some b)
    (n : ℕ) (a c : ν) (hc : climbs up n a c = true) : climbs up' n a c = true := by
  induction n generalizing a with
  | zero => exact hc
  | succ n ih =>
    by_cases he : a = c
    · simp [climbs, he]
    · cases hu : up a with
      | none => simp [climbs, he, hu] at hc
      | some b =>
        have hb : climbs up n b c = true := by simpa [climbs, he, hu] using hc
        simp [climbs, he, h a b hu, ih b hb]

/-- As many steps as there are pointers are enough: each step leaves the node
it came from, and an acyclic path does not return there. -/
theorem climbs_complete {up : ν → Option ν} (hc : Acyclic up) (s : Finset ν)
    (hs : ∀ a b, up a = some b → a ∈ s) (n : ℕ) (hn : s.card ≤ n) {a c : ν}
    (h : Below up a c) : climbs up n a c = true := by
  induction n generalizing up s a with
  | zero =>
    rcases below_cases h with rfl | ⟨b, hab, -⟩
    · simp [climbs]
    · have hp : 0 < s.card := Finset.card_pos.mpr ⟨a, hs a b hab⟩
      omega
  | succ n ih =>
    rcases below_cases h with rfl | ⟨b, hab, hbc⟩
    · simp [climbs]
    · have hagree : ∀ d, d ≠ a → Function.update up a none d = up d :=
        fun d hd => Function.update_of_ne hd none up
      have hle : ∀ d e, Function.update up a none d = some e → up d = some e := by
        intro d e hde
        by_cases hd : d = a
        · simp [hd] at hde
        · rwa [hagree d hd] at hde
      have hrest : ∀ d e, Function.update up a none d = some e → d ∈ s.erase a := by
        intro d e hde
        have hd : d ≠ a := fun hd => by simp [hd] at hde
        exact Finset.mem_erase.mpr ⟨hd, hs d e (hle d e hde)⟩
      have hcard : (s.erase a).card ≤ n := by
        rw [Finset.card_erase_of_mem (hs a b hab)]
        omega
      have hb := ih (acyclic_mono hle hc) (s.erase a) hrest hcard
        (below_congr_avoid hagree hbc (hc a b hab))
      simp [climbs, hab, climbs_mono hle n b c hb]

theorem climbs_iff {up : ν → Option ν} (hc : Acyclic up) (s : Finset ν)
    (hs : ∀ a b, up a = some b → a ∈ s) (n : ℕ) (hn : s.card ≤ n) (a c : ν) :
    climbs up n a c = true ↔ Below up a c :=
  ⟨climbs_sound up n a c, climbs_complete hc s hs n hn⟩

def attach (up : ν → Option ν) (x p : ν) : ν → Option ν := Function.update up x (some p)

theorem attach_self (up : ν → Option ν) (x p : ν) : attach up x p x = some p := by
  simp [attach]

theorem attach_of_ne (up : ν → Option ν) (x p : ν) {a : ν} (h : a ≠ x) :
    attach up x p a = up a := by simp [attach, h]

/-- A path of the new forest is one of the old, or it passes the node. -/
theorem below_attach_cases (up : ν → Option ν) (x p : ν) {a c : ν}
    (h : Below (attach up x p) a c) :
    Below up a c ∨ (Below (attach up x p) a x ∧ Below (attach up x p) x c) := by
  induction h using Relation.ReflTransGen.head_induction_on with
  | refl => exact Or.inl (below_refl up c)
  | @head a b hab hbc ih =>
    by_cases he : a = x
    · subst he
      exact Or.inr ⟨below_refl _ _, below_step hab hbc⟩
    · rcases ih with ih | ⟨hbx, hxc⟩
      · exact Or.inl (below_step (by rwa [attach_of_ne up x p he] at hab) ih)
      · exact Or.inr ⟨below_step hab hbx, hxc⟩

theorem acyclic_attach {up : ν → Option ν} (hc : Acyclic up) {x p : ν}
    (hp : ¬ Below up p x) : Acyclic (attach up x p) := by
  have hp' : ¬ Below (attach up x p) p x := fun h =>
    hp (below_congr_target (fun a ha => (attach_of_ne up x p ha).symm) h)
  intro a b hab hba
  by_cases he : a = x
  · subst he
    rw [attach_self] at hab
    cases hab
    exact hp' hba
  · rcases below_attach_cases up x p hba with h | ⟨hbx, hxa⟩
    · rw [attach_of_ne up x p he] at hab
      exact hc a b hab h
    · rcases below_cases hxa with rfl | ⟨q, hq, hqa⟩
      · exact he rfl
      · rw [attach_self] at hq
        cases hq
        exact hp' (below_trans hqa (below_step hab hbx))

/-- Moving a node to a parent below the root keeps everything below it. -/
theorem below_attach {up : ν → Option ν} {x p r : ν} (hp : ¬ Below up p x)
    (hpr : Below up p r) {a : ν} (har : Below up a r) : Below (attach up x p) a r := by
  have hagree : ∀ d, d ≠ x → attach up x p d = up d := fun d hd => attach_of_ne up x p hd
  have hx : Below (attach up x p) x r :=
    below_step (attach_self up x p) (below_congr_avoid hagree hpr hp)
  by_cases hax : Below up a x
  · exact below_trans (below_congr_target hagree hax) hx
  · exact below_congr_avoid hagree har hax

end Climbing

end ParentForest
