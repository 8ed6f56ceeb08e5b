import TemplateSplice.Proofs.Settings.Assignment
import TemplateSplice.Proofs.Text.Case
import TemplateSplice.Proofs.Text.Order

/-! Variables whose names are written in another case. They set the same paths to the same values, but they
may be applied in another order, since they are applied in the order of their names as they are written. What
comes of them is the same, as long as variables with paths of which one goes on from the other one keep their
order. -/
namespace TemplateSplice

/-- At every path of keys two values have nothing, or the same, or a mapping each. So they are equal but for
the order of the members of mappings. -/
def Value.EqualByKeys (v v' : Value) : Prop :=
  ∀ path, v.at? path = v'.at? path ∨
    ∃ m m', v.at? path = some (.object m) ∧ v'.at? path = some (.object m')

namespace Settings

lemma ReadAlike.equalByKeys {v v' : Value} (h : ReadAlike (some v) (some v')) : v.EqualByKeys v' := by
  intro path
  rcases h path with he | ⟨m, m', he, he', -⟩
  · exact .inl he
  · exact .inr ⟨m, m', he, he'⟩

section Assign

variable {var other : Text × Text} {o o' : Option Value}

/-- The path of a variable does not depend on the case of ASCII letters in its name. -/
lemma pathOf?_of_map_toLower (h : var.1.map Char.toLower = other.1.map Char.toLower) :
    pathOf? var = pathOf? other := by
  have hlower (var : Text × Text) : pathOf? (var.1.map Char.toLower, var.2) = pathOf? var := by
    have hbar : ∀ d ∈ "__".toList, ∀ c : Char, c.toLower = d ↔ c = d := by
      simpa using toLower_eq_iff (d := '_') (by decide)
    have hparts := Text.splitOn_map hbar (var.1.drop variablePrefix.length)
    have hlowered : (Text.lower ∘ List.map Char.toLower) = Text.lower := funext Text.lower_map_toLower
    have hempty : List.isEmpty ∘ List.map Char.toLower = List.isEmpty := funext fun _ => List.isEmpty_map
    unfold pathOf? variablePath
    simp only [← List.map_drop, hparts, List.any_map, List.map_map, hlowered, hempty]
    split_ifs <;> rfl
  rw [← hlower var, ← hlower other, h]
  rfl

lemma small_of_pathOf? {path : List Text} (h : pathOf? var = some path) : Small path := by
  unfold pathOf? at h
  cases hpath : variablePath var.1 with
  | error fault =>
    rw [hpath] at h
    cases h
  | ok p =>
    rw [hpath] at h
    cases h
    exact small_of_variablePath hpath

lemma ne_nil_of_variablePath {name : Text} {path : List Text} (h : variablePath name = .ok path) :
    path ≠ [] := by
  unfold variablePath at h
  dsimp only at h
  split_ifs at h
  cases h
  simpa using Text.splitOn_ne_nil _ _

/-- The settings with a variable applied, if it can be. -/
def assign? (var : Text × Text) (settings : Value) : Option Value :=
  (pathOf? var).bind fun path => (coerce var.2).toOption.bind fun v => put? v path settings

lemma assign?_eq_some_iff {settings settings' : Value} :
    assign? var settings = some settings' ↔ applyVariable settings var.1 var.2 = (settings', none) := by
  unfold assign? applyVariable
  rw [pathOf?]
  cases hpath : variablePath var.1 with
  | error fault => simp [Except.toOption]
  | ok path =>
    cases hv : coerce var.2 with
    | error fault => simp [Except.toOption]
    | ok v =>
      have hne := ne_nil_of_variablePath hpath
      simp [Except.toOption, put?_eq_some_iff hne, Prod.ext_iff]

/-- The outcome of variables applied one after another. -/
def assignAll? (vars : List (Text × Text)) (o : Option Value) : Option Value :=
  vars.foldl (fun o var => o.bind (assign? var)) o

lemma assignAll?_cons (var : Text × Text) (vars : List (Text × Text)) (o : Option Value) :
    assignAll? (var :: vars) o = assignAll? vars (o.bind (assign? var)) := rfl

lemma assignAll?_none (vars : List (Text × Text)) : assignAll? vars none = none := by
  induction vars with
  | nil => rfl
  | cons var vars ih => exact ih

lemma assignAll?_eq_some_iff {settings settings' : Value} {vars : List (Text × Text)} :
    assignAll? vars (some settings) = some settings' ↔
      applyVariables settings vars = (settings', none) := by
  induction vars generalizing settings with
  | nil => simp [assignAll?, applyVariables]
  | cons var vars ih =>
    rw [assignAll?_cons, Option.bind_some, applyVariables]
    cases hvar : applyVariable settings var.1 var.2 with
    | mk next fault =>
      cases fault with
      | none =>
        rw [assign?_eq_some_iff.mpr hvar]
        exact ih
      | some fault =>
        have hnone : assign? var settings = none := by
          refine Option.eq_none_iff_forall_ne_some.mpr fun next' h => ?_
          rw [assign?_eq_some_iff, hvar] at h
          cases h
        rw [hnone, assignAll?_none]
        simp

lemma assignAll?_eq_none {settings kept : Value} {vars : List (Text × Text)} {fault : OverrideFault}
    (h : applyVariables settings vars = (kept, some fault)) : assignAll? vars (some settings) = none := by
  refine Option.eq_none_iff_forall_ne_some.mpr fun next hnext => ?_
  rw [assignAll?_eq_some_iff, h] at hnext
  cases hnext

lemma ReadAlike.assign? (h : ReadAlike o o') (var : Text × Text) :
    ReadAlike (o.bind (assign? var)) (o'.bind (assign? var)) := by
  refine h.bind fun v v' hv => ?_
  unfold Settings.assign?
  cases pathOf? var with
  | none => exact .refl none
  | some path =>
    cases (coerce var.2).toOption with
    | none => exact .refl none
    | some w => exact readAlike_put? w path hv

lemma ReadAlike.assignAll? (h : ReadAlike o o') (vars : List (Text × Text)) :
    ReadAlike (assignAll? vars o) (assignAll? vars o') := by
  induction vars generalizing o o' with
  | nil => exact h
  | cons var vars ih => exact ih (h.assign? var)

/-- Two runs of overrides end in the same way: both fail, or both give the same settings. -/
inductive SameEnd : Value × Option OverrideFault → Value × Option OverrideFault → Prop
  | failed (kept kept' : Value) (fault fault' : OverrideFault) :
      SameEnd (kept, some fault) (kept', some fault')
  | set {settings settings' : Value} (equal : settings.EqualByKeys settings') :
      SameEnd (settings, none) (settings', none)

lemma SameEnd.isSome_eq {x y : Value × Option OverrideFault} (h : SameEnd x y) :
    x.2.isSome = y.2.isSome := by
  cases h <;> rfl

/-- Variables of which the outcomes read alike end in the same way. -/
lemma sameEnd_of_readAlike {settings : Value} {vars vars' : List (Text × Text)}
    (h : ReadAlike (assignAll? vars (some settings)) (assignAll? vars' (some settings))) :
    SameEnd (applyVariables settings vars) (applyVariables settings vars') := by
  cases hx : applyVariables settings vars with
  | mk set fault =>
    cases hy : applyVariables settings vars' with
    | mk set' fault' =>
      match fault, fault' with
      | some fault, some fault' => exact .failed set set' fault fault'
      | none, none =>
        rw [assignAll?_eq_some_iff.mpr hx, assignAll?_eq_some_iff.mpr hy] at h
        exact .set h.equalByKeys
      | none, some _ =>
        rw [assignAll?_eq_some_iff.mpr hx, assignAll?_eq_none hy] at h
        simpa using h.cases
      | some _, none =>
        rw [assignAll?_eq_none hx, assignAll?_eq_some_iff.mpr hy] at h
        simpa using h.cases

/-- Of the paths of two variables one goes on from the other one. -/
def Entangled (var other : Text × Text) : Prop := ∃ p ∈ pathOf? var, ∃ q ∈ pathOf? other, ¬ Apart p q

instance (var other : Text × Text) : Decidable (Entangled var other) :=
  inferInstanceAs (Decidable (∃ p ∈ pathOf? var, ∃ q ∈ pathOf? other, ¬ Apart p q))

lemma Entangled.symm (h : Entangled var other) : Entangled other var := by
  obtain ⟨p, hp, q, hq, hnot⟩ := h
  exact ⟨q, hq, p, hp, fun ha => hnot ha.symm⟩

lemma Entangled.congr {var' other' : Text × Text} (h : Entangled var other)
    (hvar : pathOf? var = pathOf? var') (hother : pathOf? other = pathOf? other') :
    Entangled var' other' := by
  rwa [Entangled, ← hvar, ← hother]

/-- Variables that are not entangled can be applied in either order. -/
theorem readAlike_assign?_comm (h : ¬ Entangled var other) (o : Option Value) :
    ReadAlike ((o.bind (assign? var)).bind (assign? other))
      ((o.bind (assign? other)).bind (assign? var)) := by
  cases o with
  | none => exact .refl none
  | some settings =>
    unfold assign?
    cases hp : pathOf? var with
    | none => simpa using ReadAlike.refl none
    | some p =>
      cases hq : pathOf? other with
      | none => simpa using ReadAlike.refl none
      | some q =>
        have hapart : Apart p q := not_not.mp fun hn => h ⟨p, hp, q, hq, hn⟩
        cases (coerce var.2).toOption with
        | none => simpa using ReadAlike.refl none
        | some v =>
          cases (coerce other.2).toOption with
          | none => simpa using ReadAlike.refl none
          | some w =>
            exact readAlike_put?_comm v w (small_of_pathOf? hp) (small_of_pathOf? hq) hapart settings

/-- A variable that is entangled with none of those before it can be applied before them. -/
lemma readAlike_assignAll?_middle {vars : List (Text × Text)} (h : ∀ other ∈ vars, ¬ Entangled other var)
    (rest : List (Text × Text)) (o : Option Value) :
    ReadAlike (assignAll? (vars ++ var :: rest) o) (assignAll? (var :: (vars ++ rest)) o) := by
  induction vars generalizing o with
  | nil => exact .refl _
  | cons other vars ih =>
    obtain ⟨hother, hvars⟩ := List.forall_mem_cons.mp h
    exact (ih hvars (o.bind (assign? other))).trans
      ((readAlike_assign?_comm hother o).assignAll? (vars ++ rest))

end Assign

section Order

variable {recase : Text → Text} {vars vars' : List (Text × Text)}

/-- A variable with its name written in another case. -/
def rename (recase : Text → Text) (var : Text × Text) : Text × Text := (recase var.1, var.2)

lemma assign?_rename {var : Text × Text} (h : pathOf? (rename recase var) = pathOf? var) :
    assign? (rename recase var) = assign? var := by
  funext settings
  rw [assign?, assign?, h, rename]

/-- Variables that are entangled come in the same order by their names as before. -/
def KeepsOrder (recase : Text → Text) (vars : List (Text × Text)) : Prop :=
  ∀ var ∈ vars, ∀ other ∈ vars, Entangled var other → var.1 < other.1 → recase var.1 < recase other.1

lemma KeepsOrder.of_subset (h : KeepsOrder recase vars) (hsub : vars' ⊆ vars) :
    KeepsOrder recase vars' :=
  fun var hvar other hother => h var (hsub hvar) other (hsub hother)

/-- Variables in the order of their names give what they do with their names in another case, in the order of
those. -/
theorem readAlike_assignAll?_rename (hpath : ∀ var ∈ vars, pathOf? (rename recase var) = pathOf? var)
    (horder : KeepsOrder recase vars) (hperm : vars'.Perm (vars.map (rename recase)))
    (hsorted : vars.Pairwise fun a b => a.1 < b.1) (hsorted' : vars'.Pairwise fun a b => ¬ b.1 < a.1)
    (o : Option Value) : ReadAlike (assignAll? vars o) (assignAll? vars' o) := by
  induction vars generalizing vars' o with
  | nil =>
    obtain rfl := hperm.eq_nil
    exact .refl _
  | cons var vars ih =>
    obtain ⟨hvar, hvars⟩ := List.forall_mem_cons.mp hpath
    obtain ⟨hfirst, hsorted⟩ := List.pairwise_cons.mp hsorted
    -- Nothing that the first variable is entangled with has come to stand before it.
    obtain ⟨before, after, rfl⟩ := List.append_of_mem (hperm.mem_iff.mpr List.mem_cons_self)
    have hrest : (before ++ after).Perm (vars.map (rename recase)) :=
      (List.perm_middle.symm.trans hperm).cons_inv
    have hfree : ∀ other ∈ before, ¬ Entangled other (rename recase var) := by
      intro other' hother' hentangled
      obtain ⟨other, hother, rfl⟩ :=
        List.mem_map.mp (hrest.mem_iff.mp (List.mem_append_left after hother'))
      have hlt := horder var List.mem_cons_self other (List.mem_cons_of_mem _ hother)
        (hentangled.congr (hvars other hother) hvar).symm (hfirst other hother)
      exact (List.pairwise_append.mp hsorted').2.2 _ hother' _ List.mem_cons_self hlt
    have hmoved := readAlike_assignAll?_middle hfree after o
    rw [assignAll?_cons, assign?_rename hvar] at hmoved
    have hsub : (before ++ after).Sublist (before ++ rename recase var :: after) :=
      (List.Sublist.refl before).append (List.sublist_cons_self _ after)
    exact (ih hvars (horder.of_subset (List.subset_cons_self var vars)) hrest hsorted
      (hsorted'.sublist hsub) _).trans hmoved.symm

end Order

section Environments

variable {recase : Text → Text} {environment recased : List (Text × Text)}

/-- One environment is another one with names of variables in another case, what they start with aside; no name
stands twice in it, and none is that of the settings file in any case. -/
structure Recased (recase : Text → Text) (environment recased : List (Text × Text)) : Prop where
  once : (environment.map Prod.fst).Nodup
  perm : recased.Perm (environment.map (rename recase))
  letters : ∀ var ∈ environment, recase var.1 = var.1 ∨
    variablePrefix <+: var.1 ∧ variablePrefix <+: recase var.1 ∧
      (recase var.1).map Char.toLower = var.1.map Char.toLower
  notFile : ∀ var ∈ environment, var.1.map Char.toLower ≠ fileVariable.map Char.toLower

lemma Recased.map_toLower (h : Recased recase environment recased) {var : Text × Text}
    (hvar : var ∈ environment) : (recase var.1).map Char.toLower = var.1.map Char.toLower := by
  rcases h.letters var hvar with he | ⟨-, -, he⟩
  · rw [he]
  · exact he

lemma Recased.isOverride (h : Recased recase environment recased) {var : Text × Text}
    (hvar : var ∈ environment) : isOverride (recase var.1) = isOverride var.1 := by
  have hnot := h.notFile var hvar
  rcases h.letters var hvar with he | ⟨hstarts, hstarts', he⟩
  · rw [he]
  · have hne : var.1 ≠ fileVariable := fun hf => hnot (by rw [hf])
    have hne' : recase var.1 ≠ fileVariable := fun hf => hnot (by rw [← he, hf])
    rw [Settings.isOverride, Settings.isOverride, List.isPrefixOf_iff_prefix.mpr hstarts,
      List.isPrefixOf_iff_prefix.mpr hstarts', bne_iff_ne.mpr hne, bne_iff_ne.mpr hne']

/-- The variables that override settings are those of the other environment, renamed. -/
lemma Recased.perm_overrides (h : Recased recase environment recased) :
    (overrides recased).Perm ((overrides environment).map (rename recase)) := by
  have hfilter : (recased.filter fun var => Settings.isOverride var.1).Perm
      ((environment.filter fun var => Settings.isOverride var.1).map (rename recase)) := by
    refine (h.perm.filter _).trans (.of_eq ?_)
    rw [List.filter_map]
    exact congrArg _ (List.filter_congr fun var hvar => h.isOverride hvar)
  exact (List.mergeSort_perm _ _).trans (hfilter.trans ((List.mergeSort_perm _ _).symm.map _))

/-- An environment with names of variables in another case gives the same settings, or fails as the other one
does, if variables with paths of which one goes on from the other one keep their order. -/
theorem override_recased (h : Recased recase environment recased)
    (horder : KeepsOrder recase (environment.filter fun var => isOverride var.1)) (settings : Value) :
    SameEnd (override settings environment) (override settings recased) := by
  have hmem : overrides environment ⊆ environment.filter fun var => isOverride var.1 :=
    (List.mergeSort_perm _ _).subset
  have hsorted : (overrides environment).Pairwise fun a b => a.1 < b.1 :=
    pairwise_lt_mergeSort_key Prod.fst (by simp) (h.once.sublist (List.filter_sublist.map _))
  have hsorted' : (overrides recased).Pairwise fun a b => ¬ b.1 < a.1 :=
    pairwise_mergeSort_key Prod.fst (by simp) _
  have hpath : ∀ var ∈ overrides environment, pathOf? (rename recase var) = pathOf? var := fun var hvar =>
    pathOf?_of_map_toLower (h.map_toLower (List.mem_of_mem_filter (hmem hvar)))
  exact sameEnd_of_readAlike
    (readAlike_assignAll?_rename hpath (horder.of_subset hmem) h.perm_overrides hsorted hsorted' _)

lemma override_of_sorted (settings : Value) (hall : ∀ var ∈ environment, isOverride var.1 = true)
    (hsorted : environment.Pairwise fun a b => (!decide (b.1 < a.1)) = true) :
    override settings environment = applyVariables settings environment := by
  rw [override, overrides, List.filter_eq_self.mpr hall, List.mergeSort_of_pairwise hsorted]

/-- Variables for two members of one mapping. -/
def siblings : List (Text × Text) :=
  [("CFNMERGE_a__b".toList, "1".toList), ("CFNMERGE_a__c".toList, "2".toList)]

/-- The same variables, in the order of their names after one of them is written in another case. -/
def recasedSiblings : List (Text × Text) :=
  [("CFNMERGE_A__c".toList, "2".toList), ("CFNMERGE_a__b".toList, "1".toList)]

theorem override_recased_siblings :
    SameEnd (override (.object []) siblings) (override (.object []) recasedSiblings) ∧
      (override (.object []) siblings).2 = none := by
  constructor
  · have h : Recased (fun name => if name = "CFNMERGE_a__c".toList then "CFNMERGE_A__c".toList else name)
        siblings recasedSiblings := ⟨by decide, by decide, by decide, by decide⟩
    refine override_recased h ?_ _
    unfold KeepsOrder
    decide +kernel
  · rw [override_of_sorted _ (by decide) (by decide)]
    decide +kernel

/-- Variables for a member and for a mapping that it would be in. -/
def nested : List (Text × Text) :=
  [("CFNMERGE_a".toList, "1".toList), ("CFNMERGE_a__b".toList, "2".toList)]

/-- The same variables, in the order of their names after one of them is written in another case. -/
def recasedNested : List (Text × Text) :=
  [("CFNMERGE_A__b".toList, "2".toList), ("CFNMERGE_a".toList, "1".toList)]

/-- Entangled variables may end in another way in another order: a member cannot be set in what has been set to
a number, but it can be before. -/
theorem not_override_recased :
    ¬ ∀ (recase : Text → Text) (environment recased : List (Text × Text)),
      Recased recase environment recased →
      (environment.map fun var => Text.lower var.1).Nodup →
      (recased.map fun var => Text.lower var.1).Nodup →
      ∀ members, SameEnd (override (.object members) environment) (override (.object members) recased) := by
  intro h
  have hend := h (fun name => if name = "CFNMERGE_a__b".toList then "CFNMERGE_A__b".toList else name)
    nested recasedNested ⟨by decide, by decide, by decide, by decide⟩ (by decide +kernel) (by decide +kernel) []
  have hfails : (override (.object []) nested).2.isSome = true := by
    rw [override_of_sorted _ (by decide) (by decide)]
    decide +kernel
  have hsets : (override (.object []) recasedNested).2.isSome = false := by
    rw [override_of_sorted _ (by decide) (by decide)]
    decide +kernel
  rw [hend.isSome_eq, hsets] at hfails
  cases hfails

end Environments

end Settings
end TemplateSplice
