import TemplateSplice.Proofs.Settings.Override

/-! Assignments at paths of settings, one after another. What is assigned may fail, so settings are given as
outcomes here: none is a failure. Assignments at paths that lie apart can be made in either order, and the
outcomes read alike: the members of a mapping may come in another order, but the names that a part of a path
fits do not. -/
namespace TemplateSplice.Settings

section Alike

/-- Two outcomes are alike themselves: they are equal, or a mapping each in which every part of a path fits
the same names. -/
def AlikeHere (o o' : Option Value) : Prop :=
  o = o' ∨ ∃ m m', o = some (.object m) ∧ o' = some (.object m') ∧
    ∀ part, fitting m part = fitting m' part

/-- Two outcomes are alike at every path of keys. -/
def ReadAlike (o o' : Option Value) : Prop :=
  ∀ path, AlikeHere (o.bind (·.at? path)) (o'.bind (·.at? path))

variable {o o' o'' : Option Value}

lemma AlikeHere.symm (h : AlikeHere o o') : AlikeHere o' o := by
  rcases h with rfl | ⟨m, m', rfl, rfl, hfits⟩
  · exact .inl rfl
  · exact .inr ⟨m', m, rfl, rfl, fun part => (hfits part).symm⟩

lemma AlikeHere.trans (h : AlikeHere o o') (h' : AlikeHere o' o'') : AlikeHere o o'' := by
  rcases h with rfl | ⟨m, m', rfl, rfl, hfits⟩
  · exact h'
  · rcases h' with rfl | ⟨_, m'', he, rfl, hfits'⟩
    · exact .inr ⟨m, m', rfl, rfl, hfits⟩
    · cases he
      exact .inr ⟨m, m'', rfl, rfl, fun part => (hfits part).trans (hfits' part)⟩

lemma ReadAlike.refl (o : Option Value) : ReadAlike o o := fun _ => .inl rfl

lemma ReadAlike.symm (h : ReadAlike o o') : ReadAlike o' o := fun path => (h path).symm

lemma ReadAlike.trans (h : ReadAlike o o') (h' : ReadAlike o' o'') : ReadAlike o o'' :=
  fun path => (h path).trans (h' path)

/-- Outcomes that read alike are failures both or values both. -/
lemma ReadAlike.cases (h : ReadAlike o o') :
    o = none ∧ o' = none ∨ ∃ v v', o = some v ∧ o' = some v' := by
  have hhere : AlikeHere o o' := by simpa using h []
  rcases hhere with rfl | ⟨m, m', rfl, rfl, -⟩
  · cases o with
    | none => exact .inl ⟨rfl, rfl⟩
    | some v => exact .inr ⟨v, v, rfl, rfl⟩
  · exact .inr ⟨_, _, rfl, rfl⟩

/-- Steps that keep values reading alike keep outcomes reading alike. -/
lemma ReadAlike.bind {f g : Value → Option Value} (h : ReadAlike o o')
    (hstep : ∀ v v', ReadAlike (some v) (some v') → ReadAlike (f v) (g v')) :
    ReadAlike (o.bind f) (o'.bind g) := by
  rcases h.cases with ⟨rfl, rfl⟩ | ⟨v, v', rfl, rfl⟩
  · exact .refl none
  · exact hstep v v' h

lemma ReadAlike.map {f g : Value → Value} (h : ReadAlike o o')
    (hstep : ∀ v v', ReadAlike (some v) (some v') → ReadAlike (some (f v)) (some (g v'))) :
    ReadAlike (o.map f) (o'.map g) := by
  rw [Option.map_eq_bind, Option.map_eq_bind]
  exact h.bind hstep

lemma ReadAlike.getD (h : ReadAlike o o') (default : Value) :
    ReadAlike (some (o.getD default)) (some (o'.getD default)) := by
  rcases h.cases with ⟨rfl, rfl⟩ | ⟨v, v', rfl, rfl⟩
  · exact .refl _
  · exact h

end Alike

section Mappings

/-- Two mappings read alike at every key, and every part of a path fits the same names in them. -/
structure AlikeMembers (m m' : Members) : Prop where
  fits : ∀ part, fitting m part = fitting m' part
  get? : ∀ key, ReadAlike (Members.get? m key) (Members.get? m' key)

variable {m m' : Members}

lemma AlikeMembers.refl (m : Members) : AlikeMembers m m := ⟨fun _ => rfl, fun _ => .refl _⟩

lemma AlikeMembers.readAlike (h : AlikeMembers m m') :
    ReadAlike (some (.object m)) (some (.object m')) := by
  intro path
  cases path with
  | nil => exact .inr ⟨m, m', rfl, rfl, h.fits⟩
  | cons key path => exact h.get? key path

lemma AlikeMembers.keyFor (h : AlikeMembers m m') (part : Text) : keyFor m part = keyFor m' part := by
  rw [keyFor_eq, keyFor_eq, h.fits]

/-- Values that read alike are equal, or mappings that do. -/
lemma ReadAlike.eq_or_members {v v' : Value} (h : ReadAlike (some v) (some v')) :
    v = v' ∨ ∃ m m', v = .object m ∧ v' = .object m' ∧ AlikeMembers m m' := by
  rcases h [] with he | ⟨m, m', he, he', hfits⟩
  · exact .inl (Option.some.inj he)
  · obtain rfl := Option.some.inj he
    obtain rfl := Option.some.inj he'
    exact .inr ⟨m, m', rfl, rfl, hfits, fun key path => h (key :: path)⟩

/-- A name that is set fits the part that it is in small letters, and is a new one there if it was not. -/
lemma fitting_insert (m : Members) (key : String) (v : Value) (part : Text) :
    fitting (Members.insert (.str key) v m) part =
      if Text.lower key.toList = part ∧ key ∉ fitting m part then fitting m part ++ [key]
      else fitting m part := by
  by_cases hpart : Text.lower key.toList = part
  · have hmem : key ∈ fitting m part ↔ key ∈ names m := by simp [fitting, hpart]
    simp only [hpart, hmem, true_and]
    unfold fitting
    rw [names_insert]
    split_ifs <;> simp_all
  · rw [fitting_insert_of_ne hpart, if_neg fun h => hpart h.1]

/-- Mappings that read alike still do when a key is set to values that do. -/
lemma AlikeMembers.insert (h : AlikeMembers m m') (key : String) {v v' : Value}
    (hv : ReadAlike (some v) (some v')) :
    AlikeMembers (Members.insert (.str key) v m) (Members.insert (.str key) v' m') where
  fits part := by rw [fitting_insert, fitting_insert, h.fits]
  get? other := by
    rw [Members.get?_insert, Members.get?_insert]
    split_ifs
    · exact hv
    · exact h.get? other

/-- Keys that are not the same in small letters can be set in either order. -/
lemma alikeMembers_insert_comm (m : Members) {key key' : String}
    (h : Text.lower key.toList ≠ Text.lower key'.toList) (v v' : Value) :
    AlikeMembers (Members.insert (.str key') v' (Members.insert (.str key) v m))
      (Members.insert (.str key) v (Members.insert (.str key') v' m)) where
  fits part := by
    simp only [fitting_insert]
    by_cases hpart : Text.lower key.toList = part
    · have hpart' : Text.lower key'.toList ≠ part := fun he => h (hpart.trans he.symm)
      simp [hpart']
    · simp [hpart]
  get? other := by
    simp only [Members.get?_insert]
    by_cases hkey : (Scalar.str key).identity = other.identity
    · have hkey' : (Scalar.str key').identity ≠ other.identity := fun he =>
        h (by rw [Identity.text.inj (hkey.trans he.symm)])
      rw [if_neg hkey', if_pos hkey, if_pos hkey]
      exact .refl _
    · rw [if_neg hkey, if_neg hkey]
      exact .refl _

lemma insert_insert (m : Members) (key : Scalar) (v v' : Value) :
    Members.insert key v' (Members.insert key v m) = Members.insert key v' m := by
  induction m with
  | nil => simp [Members.insert]
  | cons p m ih =>
    obtain ⟨k, u⟩ := p
    by_cases hk : k.identity = key.identity
    · simp [Members.insert, hk]
    · simp [Members.insert, hk, ih]

end Mappings

section Put

/-- The value with a path set in it, if it can be; the empty path is the value itself. -/
def put? (v : Value) : List Text → Value → Option Value
  | [], _ => some v
  | part :: rest, .object m =>
    (put? v rest ((Members.get? m (keyFor m part)).getD (.object []))).map fun child =>
      .object (Members.insert (keyFor m part) child m)
  | _ :: _, _ => none

lemma put?_cons_of_members?_eq_none (v : Value) (part : Text) (rest : List Text) {cur : Value}
    (h : cur.members? = none) : put? v (part :: rest) cur = none := by
  cases cur with
  | object m => cases h
  | scalar s => rfl
  | array items => rfl

lemma put?_eq_some_iff {v cur cur' : Value} {path : List Text} (hpath : path ≠ []) :
    put? v path cur = some cur' ↔ setIn v path cur = (cur', none) := by
  induction path generalizing cur cur' with
  | nil => exact absurd rfl hpath
  | cons part rest ih =>
    cases cur with
    | object m =>
      cases rest with
      | nil => simp [put?, setIn]
      | cons next rest =>
        rw [put?, setIn, Option.map_eq_some_iff]
        · simp only [ih (List.cons_ne_nil _ _), Prod.ext_iff]
          constructor
          · rintro ⟨child, ⟨rfl, hnone⟩, rfl⟩
            exact ⟨rfl, hnone⟩
          · rintro ⟨rfl, hnone⟩
            exact ⟨_, ⟨rfl, hnone⟩, rfl⟩
        · exact List.cons_ne_nil next rest
    | scalar s => cases rest <;> simp [put?, setIn]
    | array items => cases rest <;> simp [put?, setIn]

/-- Setting a path in values that read alike gives outcomes that do. -/
lemma readAlike_put? (v : Value) (path : List Text) {cur cur' : Value}
    (h : ReadAlike (some cur) (some cur')) : ReadAlike (put? v path cur) (put? v path cur') := by
  induction path generalizing cur cur' with
  | nil => exact .refl _
  | cons part rest ih =>
    rcases h.eq_or_members with rfl | ⟨m, m', rfl, rfl, hm⟩
    · exact .refl _
    · rw [put?, put?, ← hm.keyFor part]
      refine (ih ((hm.get? _).getD _)).map fun child child' hchild => ?_
      exact (hm.insert _ hchild).readAlike

variable {m : Members} {a b : Text} {p q : List Text}

/-- The value that a part of a path leads to, made if it is missing. -/
def below (m : Members) (part : Text) : Value := (Members.get? m (keyFor m part)).getD (.object [])

lemma put?_object (v : Value) (part : Text) (rest : List Text) (m : Members) :
    put? v (part :: rest) (.object m) = (put? v rest (below m part)).map fun child =>
      .object (Members.insert (keyFor m part) child m) := rfl

/-- Two assignments that start with the same part are made below one key. -/
lemma put?_bind_same (v w : Value) (p q : List Text) (ha : a.lower = a) (m : Members) :
    (put? v (a :: p) (.object m)).bind (put? w (a :: q)) =
      ((put? v p (below m a)).bind (put? w q)).map fun child =>
        .object (Members.insert (keyFor m a) child m) := by
  rw [put?_object, Option.bind_map, Option.map_bind]
  refine congrArg (Option.bind _) (funext fun child => ?_)
  have hbelow : below (Members.insert (keyFor m a) child m) a = child := by
    rw [below, keyFor_insert_self ha, Members.get?_insert_self]
    rfl
  simp only [Function.comp, put?_object, hbelow, keyFor_insert_self ha, insert_insert]

/-- Two assignments that start with different parts are made below two keys. -/
lemma put?_bind_ne (v w : Value) (p q : List Text) (ha : a.lower = a) (hb : b.lower = b) (hne : a ≠ b)
    (m : Members) :
    (put? v (a :: p) (.object m)).bind (put? w (b :: q)) =
      (put? v p (below m a)).bind fun child => (put? w q (below m b)).map fun child' =>
        .object (Members.insert (keyFor m b) child' (Members.insert (keyFor m a) child m)) := by
  rw [put?_object, Option.bind_map]
  refine congrArg (Option.bind _) (funext fun child => ?_)
  have hlower : Text.lower (keyFor m a).toList ≠ b := by rwa [lower_keyFor ha]
  have hkey : keyFor m b ≠ keyFor m a := fun he => hlower (by rw [← he, lower_keyFor hb])
  have hbelow : below (Members.insert (keyFor m a) child m) b = below m b := by
    rw [below, keyFor_insert_of_ne hlower, Members.get?_insert_of_ne (by simpa using hkey)]
    rfl
  simp only [Function.comp, put?_object, hbelow, keyFor_insert_of_ne hlower]

/-- Paths that lie apart can be set in either order. -/
theorem readAlike_put?_comm (v w : Value) (hp : Small p) (hq : Small q) (hapart : Apart p q)
    (cur : Value) :
    ReadAlike ((put? v p cur).bind (put? w q)) ((put? w q cur).bind (put? v p)) := by
  induction p generalizing q cur with
  | nil => exact absurd List.nil_prefix hapart.1
  | cons a p ih =>
    obtain ⟨_, _, b, r, he, rfl⟩ := hapart.exists_cons
    cases he
    obtain ⟨ha, hp⟩ := List.forall_mem_cons.mp hp
    obtain ⟨hb, hr⟩ := List.forall_mem_cons.mp hq
    cases hmembers : cur.members? with
    | none =>
      rw [put?_cons_of_members?_eq_none _ _ _ hmembers, put?_cons_of_members?_eq_none _ _ _ hmembers]
      exact .refl none
    | some m =>
      obtain rfl : cur = .object m := by
        cases cur <;> cases hmembers
        rfl
      by_cases hsame : a = b
      · subst hsame
        rw [put?_bind_same v w p r ha, put?_bind_same w v r p ha]
        refine (ih hp hr (apart_cons_self.mp hapart) (below m a)).map fun child child' hchild => ?_
        exact ((AlikeMembers.refl m).insert _ hchild).readAlike
      · have hkeys : Text.lower (keyFor m a).toList ≠ Text.lower (keyFor m b).toList := by
          rwa [lower_keyFor ha, lower_keyFor hb]
        rw [put?_bind_ne v w p r ha hb hsame, put?_bind_ne w v r p hb ha (Ne.symm hsame)]
        cases put? v p (below m a) with
        | none =>
          cases put? w r (below m b) <;> exact .refl none
        | some child =>
          cases put? w r (below m b) with
          | none => exact .refl none
          | some child' => exact (alikeMembers_insert_comm m hkeys child child').readAlike

end Put

end TemplateSplice.Settings
