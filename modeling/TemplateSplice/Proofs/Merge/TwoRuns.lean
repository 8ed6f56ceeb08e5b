import TemplateSplice.Proofs.Merge.Steps

/-! Two runs over two shelves, step by step. They leave the same trail, and end with the same problem or
with related values; sequences of such steps are such steps again. -/
namespace TemplateSplice

/-- Shelves with the same paths and related texts. -/
def Shelf.Related (R : Text → Text → Prop) (s s' : Shelf) : Prop :=
  ∀ p, Option.Rel R (s.get? p) (s'.get? p)

lemma Shelf.Related.isSome {R : Text → Text → Prop} {s s' : Shelf} (h : s.Related R s') (p : Path) :
    (s.get? p).isSome = (s'.get? p).isSome := by
  have hp := h p
  generalize s.get? p = a at hp ⊢
  generalize s'.get? p = b at hp ⊢
  cases hp with
  | none => rfl
  | some _ => rfl

lemma Shelf.Related.text {R : Text → Text → Prop} {s s' : Shelf} (h : s.Related R s') {p : Path}
    (hp : (s.get? p).isSome = true) : R (s.text p) (s'.text p) := by
  have hr := h p
  unfold Shelf.text
  generalize s.get? p = a at hp hr ⊢
  generalize s'.get? p = b at hr ⊢
  cases hr with
  | none => simp at hp
  | some hr => exact hr

namespace Merge

variable {α β γ δ : Type} {R : α → β → Prop} {S : γ → δ → Prop}

/-- Related values, or the same problem. -/
inductive Matches (R : α → β → Prop) : Except Problem α → Except Problem β → Prop
  | ok {a : α} {b : β} (related : R a b) : Matches R (.ok a) (.ok b)
  | error (problem : Problem) : Matches R (.error problem) (.error problem)

lemma Matches.bind {r : Except Problem α} {r' : Except Problem β} {f : α → Except Problem γ}
    {g : β → Except Problem δ} (h : Matches R r r')
    (hf : ∀ a b, r = .ok a → R a b → Matches S (f a) (g b)) : Matches S (r >>= f) (r' >>= g) := by
  cases h with
  | ok related => exact hf _ _ rfl related
  | error e => exact .error e

lemma Matches.error_iff {r : Except Problem α} {r' : Except Problem β} (h : Matches R r r')
    (problem : Problem) : r' = .error problem ↔ r = .error problem := by
  cases h with
  | ok _ => simp
  | error e => simp

lemma Matches.exists_ok {a : α} {r' : Except Problem β} (h : Matches R (.ok a) r') :
    ∃ b, r' = .ok b ∧ R a b := by
  cases h with
  | ok related => exact ⟨_, rfl, related⟩

/-- From every trail two computations lead to the same trail and to matching results. -/
def Alike (R : α → β → Prop) (x : ExceptT Problem (StateM Trail) α)
    (y : ExceptT Problem (StateM Trail) β) : Prop :=
  ∀ t, (outcome x t).2 = (outcome y t).2 ∧ Matches R (outcome x t).1 (outcome y t).1

namespace Alike

lemma pure {a : α} {b : β} (h : R a b) : Alike R (pure a) (pure b) := fun _ => ⟨rfl, .ok h⟩

lemma throw (e : Problem) : Alike R (throw e) (throw e) := fun _ => ⟨rfl, .error e⟩

lemma lift {r : Except Problem α} {r' : Except Problem β} (h : Matches R r r') :
    Alike R (lift r) (lift r') := fun _ => ⟨rfl, h⟩

/-- A sequence runs alike if its first step does, and if what follows runs alike from every pair of
related values that the first step gives. -/
lemma bind {x : ExceptT Problem (StateM Trail) α} {y : ExceptT Problem (StateM Trail) β}
    {f : α → ExceptT Problem (StateM Trail) γ} {g : β → ExceptT Problem (StateM Trail) δ}
    (h : Alike R x y) (hf : ∀ a b t t', Gives x t a t' → Gives y t b t' → R a b → Alike S (f a) (g b)) :
    Alike S (x >>= f) (y >>= g) := by
  intro t
  rw [outcome_bind, outcome_bind]
  obtain ⟨htrail, hm⟩ := h t
  cases hx : outcome x t with
  | mk r u =>
    cases hy : outcome y t with
    | mk r' u' =>
      rw [hx, hy] at htrail hm
      obtain rfl : u = u' := htrail
      cases hm with
      | @ok a b related => exact hf a b t u hx hy related u
      | error e => exact ⟨rfl, .error e⟩

/-- What both runs do. -/
lemma refl (x : ExceptT Problem (StateM Trail) α) : Alike Eq x x := by
  intro t
  refine ⟨rfl, ?_⟩
  cases (outcome x t).1 with
  | ok a => exact .ok rfl
  | error e => exact .error e

end Alike

variable {Q : Text → Text → Prop} {s s' : Shelf} {root root' : Template}

/-- Templates from one path with related bodies. -/
def SameTemplate (Q : Text → Text → Prop) (a b : Template) : Prop := a.path = b.path ∧ Q a.body b.body

lemma alike_read (h : s.Related Q s') {p : Path} (hp : (s.get? p).isSome = true) :
    Alike Q (s.access.read p) (s'.access.read p) := fun _ => ⟨rfl, .ok (h.text hp)⟩

lemma alike_openTemplate (h : s.Related Q s') (name : TemplateName) :
    Alike (SameTemplate Q) (s.access.openTemplate name) (s'.access.openTemplate name) := by
  unfold Access.openTemplate
  split_ifs
  · exact .throw _
  · have hholds : Alike Eq (s.access.holds name.normal) (s'.access.holds name.normal) :=
      .pure (h.isSome _)
    refine hholds.bind fun there there' t t' hg _ he => ?_
    obtain rfl := he
    obtain ⟨hthere, -⟩ := (gives_holds _ _).mp hg
    split_ifs with hp
    · exact (alike_read h (hthere.trans hp)).bind fun body body' _ _ _ _ hq => .pure ⟨rfl, hq⟩
    · exact .throw _

lemma alike_load (h : s.Related Q s') (hpath : root.path = root'.path) (resource : Text) :
    Alike (SameTemplate Q) (s.access.load root resource) (s'.access.load root' resource) := by
  have hresolve : Alike (fun p p' => p = p' ∧ (s.get? p).isSome = true)
      (s.access.resolve root.path.text resource) (s'.access.resolve root'.path.text resource) := by
    rw [← hpath]
    unfold Access.resolve
    have hholds : Alike Eq (s.access.holds (root.target resource))
        (s'.access.holds (root.target resource)) := .pure (h.isSome _)
    refine hholds.bind fun there there' t t' hg _ he => ?_
    obtain rfl := he
    obtain ⟨hthere, -⟩ := (gives_holds _ _).mp hg
    split_ifs with hp
    · have hnote := Alike.refl
        (liftM (s.access.noteResolved resource root.path.text (root.target resource)) :
          ExceptT Problem (StateM Trail) Unit)
      exact hnote.bind fun _ _ _ _ _ _ _ => .pure ⟨rfl, hthere.trans hp⟩
    · exact .throw _
  unfold Access.load
  refine hresolve.bind fun p p' _ _ _ _ hp => ?_
  obtain ⟨rfl, hthere⟩ := hp
  exact (alike_read h hthere).bind fun body body' _ _ _ _ hq => .pure ⟨rfl, hq⟩

/-- A stage runs alike if its work does, and then what follows. -/
lemma alike_during {stage next : Stage} {x : ExceptT Problem (StateM Trail) α}
    {y : ExceptT Problem (StateM Trail) β} {f : α → StateM Trail (Except Problem γ)}
    {g : β → StateM Trail (Except Problem δ)} (h : Alike R x y)
    (hf : ∀ a b t t', Gives x t a t' → Gives y t b t' → R a b →
      Alike S (ExceptT.mk (f a)) (ExceptT.mk (g b))) :
    Alike S (ExceptT.mk (during s.access stage next x f))
      (ExceptT.mk (during s'.access stage next y g)) := by
  intro t
  change (StateT.run (during s.access stage next x f) t).2 =
      (StateT.run (during s'.access stage next y g) t).2 ∧
    Matches S (StateT.run (during s.access stage next x f) t).1
      (StateT.run (during s'.access stage next y g) t).1
  rw [run_during_eq, run_during_eq]
  obtain ⟨htrail, hm⟩ := h t
  cases hx : outcome x t with
  | mk r u =>
    cases hy : outcome y t with
    | mk r' u' =>
      rw [hx, hy] at htrail hm
      obtain rfl : u = u' := htrail
      cases hm with
      | @ok a b related => exact hf a b t u hx hy related _
      | error e => exact ⟨rfl, .error e⟩

end Merge
end TemplateSplice
