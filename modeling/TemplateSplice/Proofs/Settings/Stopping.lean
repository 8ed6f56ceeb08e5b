import TemplateSplice.Proofs.Settings.Recased

/-! Overrides that fail. A variable that cannot be applied changes nothing, since mappings are only made
where none of the rest of its path can be in the way; so the settings are left as the variables before it
have made them. -/
namespace TemplateSplice

namespace Settings

section Unchanged

variable {v cur cur' settings settings' : Value} {name text : Text}

lemma setIn_object (v : Value) (part next : Text) (rest : List Text) (m : Members) :
    setIn v (part :: next :: rest) (.object m) =
      let (child, fault) := setIn v (next :: rest) (below m part)
      (.object (Members.insert (keyFor m part) child m), fault) := rfl

/-- Any path can be set in an empty mapping. -/
lemma setIn_empty (v : Value) (part : Text) (rest : List Text) :
    (setIn v (part :: rest) (.object [])).2 = none := by
  induction rest generalizing part with
  | nil => rfl
  | cons next rest ih => exact ih next

/-- A path that cannot be set leaves everything as it was. -/
theorem setIn_of_fault {path : List Text} {fault : List Text → OverrideFault}
    (h : setIn v path cur = (cur', some fault)) : cur' = cur := by
  induction path generalizing cur cur' with
  | nil => exact (congrArg Prod.fst h).symm
  | cons part rest ih =>
    cases cur with
    | scalar s => cases rest <;> exact (congrArg Prod.fst h).symm
    | array items => cases rest <;> exact (congrArg Prod.fst h).symm
    | object m =>
      cases rest with
      | nil => cases h
      | cons next rest =>
        rw [setIn_object] at h
        cases hchild : setIn v (next :: rest) (below m part) with
        | mk child childFault =>
          rw [hchild] at h
          obtain ⟨rfl, rfl⟩ := Prod.mk.inj h
          -- A mapping made on the way would be empty, and then the path could be set.
          cases hget : Members.get? m (keyFor m part) with
          | none =>
            have hmade : below m part = .object [] := by rw [below, hget]; rfl
            have hset := setIn_empty v next rest
            rw [hmade] at hchild
            rw [hchild] at hset
            cases hset
          | some old =>
            have hold : below m part = old := by rw [below, hget]; rfl
            obtain rfl := ih (hold ▸ hchild)
            rw [Members.insert_of_get?_eq hget]

/-- A variable that cannot be applied leaves the settings as they were. -/
theorem applyVariable_of_fault {fault : OverrideFault}
    (h : applyVariable settings name text = (settings', some fault)) : settings' = settings := by
  unfold applyVariable at h
  cases hpath : variablePath name with
  | error fault =>
    rw [hpath] at h
    exact (congrArg Prod.fst h).symm
  | ok path =>
    cases hv : coerce text with
    | error fault =>
      rw [hpath, hv] at h
      exact (congrArg Prod.fst h).symm
    | ok v =>
      rw [hpath, hv] at h
      obtain ⟨rfl, hfault⟩ := Prod.mk.inj h
      obtain ⟨fault', hset, -⟩ := Option.map_eq_some_iff.mp hfault
      exact setIn_of_fault (Prod.ext rfl hset)

end Unchanged

variable {settings after : Value} {vars before later environment : List (Text × Text)}
  {var : Text × Text} {fault : OverrideFault}

/-- Variables that are not all applied are applied up to the first that cannot be, which changes
nothing. -/
theorem applyVariables_of_fault (h : applyVariables settings vars = (after, some fault)) :
    ∃ before var later, vars = before ++ var :: later ∧
      applyVariables settings before = (after, none) ∧
      applyVariable after var.1 var.2 = (after, some fault) := by
  induction vars generalizing settings with
  | nil => cases h
  | cons var vars ih =>
    rw [applyVariables] at h
    cases hvar : applyVariable settings var.1 var.2 with
    | mk next nextFault =>
      rw [hvar] at h
      cases nextFault with
      | some nextFault =>
        obtain ⟨rfl, rfl⟩ : next = after ∧ nextFault = fault := by simpa using h
        obtain rfl := applyVariable_of_fault hvar
        exact ⟨[], var, vars, rfl, rfl, hvar⟩
      | none =>
        obtain ⟨before, other, later, rfl, hbefore, hother⟩ := ih h
        refine ⟨var :: before, other, later, rfl, ?_, hother⟩
        rw [applyVariables, hvar]
        exact hbefore

/-- The variables before one of them are those of the environment with smaller names. -/
lemma overrides_before (hkeys : (environment.map Prod.fst).Nodup)
    (h : overrides environment = before ++ var :: later) :
    overrides (environment.filter fun other => other.1 < var.1) = before := by
  have hkept : ((environment.filter fun other => isOverride other.1).map Prod.fst).Nodup :=
    hkeys.sublist (List.filter_sublist.map _)
  rw [overrides, List.filter_comm]
  exact mergeSort_filter_lt Prod.fst (by simp) hkept h (by simp)

/-- Overrides that fail have been applied up to the variable that fails, in the order of their names: the
settings are left as an environment with only the variables of smaller names leaves them, and the one that fails
has changed nothing in them. -/
theorem override_stops (settings : Value) (environment : List (Text × Text))
    (hkeys : (environment.map Prod.fst).Nodup) {after : Value} {fault : OverrideFault}
    (h : override settings environment = (after, some fault)) :
    ∃ name text, (name, text) ∈ environment ∧ isOverride name = true ∧
      applyVariable after name text = (after, some fault) ∧
      override settings (environment.filter fun var => var.1 < name) = (after, none) := by
  obtain ⟨before, ⟨name, text⟩, later, hvars, hbefore, hvar⟩ := applyVariables_of_fault h
  have hmem : (name, text) ∈ environment.filter fun var => isOverride var.1 := by
    rw [← List.mem_mergeSort]
    change _ ∈ overrides environment
    simp [hvars]
  obtain ⟨hmem, hoverride⟩ := List.mem_filter.mp hmem
  refine ⟨name, text, hmem, hoverride, hvar, ?_⟩
  rw [override, overrides_before hkeys hvars]
  exact hbefore

/-- Variables of which the second leads through a number, with mappings to be made before and below it. -/
def blocked : List (Text × Text) :=
  [("CFNMERGE_a__x".toList, "2".toList), ("CFNMERGE_b__c__d__e".toList, "1".toList),
    ("CFNMERGE_z__y".toList, "3".toList)]

theorem override_stops_at_number :
    let settings : Value := .object [("B", .object [("C", .scalar (.int 5))])]
    let after : Value :=
      .object [("B", .object [("C", .scalar (.int 5))]), ("a", .object [("x", .scalar (.int 2))])]
    let fault := OverrideFault.traverses ["b".toList, "c".toList, "d".toList, "e".toList]
    (blocked.map Prod.fst).Nodup ∧ override settings blocked = (after, some fault) ∧
      ∃ name text, (name, text) ∈ blocked ∧
        applyVariable after name text = (after, some fault) ∧
        override settings (blocked.filter fun var => var.1 < name) = (after, none) := by
  intro settings after fault
  have hkeys : (blocked.map Prod.fst).Nodup := by decide
  have h : override settings blocked = (after, some fault) := by
    rw [override_of_sorted _ (by decide) (by decide)]
    rfl
  obtain ⟨name, text, hmem, -, hvar, hbefore⟩ := override_stops settings blocked hkeys h
  exact ⟨hkeys, h, name, text, hmem, hvar, hbefore⟩

end Settings
end TemplateSplice
