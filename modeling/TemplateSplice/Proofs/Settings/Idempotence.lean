import TemplateSplice.Proofs.Settings.Layer

/-! Layers that are laid twice. The empty layer changes nothing, and nothing is changed where it lies
below; a layer without directives changes nothing where it lies already, be it over other settings or
alone. -/
namespace TemplateSplice

/-- A list says what to do with the list below it: its first item is a plus or an equals sign. -/
def Settings.IsDirective (items : List Value) : Prop :=
  items.head? = some (.str "+") ∨ items.head? = some (.str "=")

/-- No list that a path of keys leads to is a directive. -/
def Value.DirectiveFree (v : Value) : Prop :=
  ∀ path items, v.at? path = some (.array items) → ¬ Settings.IsDirective items

namespace Value

variable {items : List Value} {m : Members} {key : Scalar} {v : Value}

lemma DirectiveFree.not_isDirective (h : (array items).DirectiveFree) : ¬ Settings.IsDirective items :=
  h [] items rfl

lemma DirectiveFree.child (h : (object m).DirectiveFree) (hv : m.get? key = some v) :
    v.DirectiveFree := by
  intro path items hat
  apply h (key :: path) items
  rw [at?_cons, get?, hv]
  exact hat

lemma directiveFree_scalar (s : Scalar) : (scalar s).DirectiveFree := by
  intro path items hat
  cases path <;> cases hat

lemma directiveFree_array (h : ¬ Settings.IsDirective items) : (array items).DirectiveFree := by
  intro path items' hat
  cases path with
  | nil =>
    cases hat
    exact h
  | cons key path => cases hat

lemma directiveFree_object (h : ∀ p ∈ m, p.2.DirectiveFree) : (object m).DirectiveFree := by
  intro path items hat
  cases path with
  | nil => cases hat
  | cons key path =>
    obtain ⟨v, hv, hat⟩ := Option.bind_eq_some_iff.mp hat
    obtain ⟨p, hp, rfl⟩ := Option.map_eq_some_iff.mp hv
    exact h p (List.mem_of_find?_eq_some hp) path items hat

end Value

namespace Settings

variable {lower upper : Value} {base : List Value}

/-- A list without a directive replaces the one below, unless it is empty. -/
lemma layerItems_eq {items : List Value} (h : ¬ IsDirective items) (base : List Value) :
    layerItems base items = if items = [] then base else items := by
  unfold layerItems
  split
  · rfl
  · exact absurd (.inl rfl) h
  · exact absurd (.inr rfl) h
  · rename_i hne _ _
    rw [if_neg hne]

/-- A layer whose members change nothing one by one changes nothing. -/
lemma layerMembers_of_absorbed {m upper : Members}
    (h : ∀ p ∈ upper, ∃ v, Members.get? m p.1 = some v ∧ layerValue v p.2 = v) :
    layerMembers m upper = m := by
  induction upper with
  | nil => rfl
  | cons p upper ih =>
    obtain ⟨⟨v, hget, hv⟩, hrest⟩ := List.forall_mem_cons.mp h
    rw [layerMembers, hget]
    dsimp only
    rw [hv, Members.insert_of_get?_eq hget]
    exact ih hrest

/-- A layer over other keys comes after them. -/
lemma layerMembers_of_new {m upper : Members}
    (h : ((m ++ upper).map fun p => p.1.identity).Nodup) : layerMembers m upper = m ++ upper := by
  induction upper generalizing m with
  | nil => simp [layerMembers]
  | cons p upper ih =>
    obtain ⟨key, v⟩ := p
    have hnew : key.identity ∉ m.map fun p => p.1.identity := by
      rw [List.map_append] at h
      intro hmem
      exact (List.nodup_append.mp h).2.2 _ hmem _ List.mem_cons_self rfl
    rw [layerMembers, Members.get?_eq_none hnew]
    dsimp only
    rw [Members.insert_of_notMem v hnew, ih (by simpa using h), List.append_assoc]
    rfl

/-- Settings without directives are what they are over themselves. -/
theorem layerValue_self (v : Value) (hk : v.KeysOnce) (hd : v.DirectiveFree) :
    layerValue v v = v := by
  match v with
  | .scalar s => rfl
  | .array items =>
    change Value.array (layerItems items items) = _
    rw [layerItems_eq hd.not_isDirective, ite_self]
  | .object m =>
    change Value.object (layerMembers m m) = _
    rw [layerMembers_of_absorbed]
    intro p hp
    have hget := Members.get?_of_mem hk.nodup hp
    exact ⟨p.2, hget, layerValue_self p.2 (hk.child hget) (hd.child hget)⟩
termination_by sizeOf v
decreasing_by exact Members.sizeOf_lt_of_get? hget

/-- Settings without directives change nothing where they were laid before, whatever lies below. -/
theorem layerValue_layerValue (lower upper : Value) (hk : upper.KeysOnce)
    (hd : upper.DirectiveFree) :
    layerValue (layerValue lower upper) upper = layerValue lower upper := by
  match upper, lower with
  | .scalar s, lower => rfl
  | .array items, .array base =>
    change Value.array (layerItems (layerItems base items) items) = .array (layerItems base items)
    rw [layerItems_eq hd.not_isDirective, layerItems_eq hd.not_isDirective]
    split_ifs <;> rfl
  -- Where the two are of different kinds, the upper one is all there is.
  | .array items, .scalar s => exact layerValue_self _ hk hd
  | .array items, .object m => exact layerValue_self _ hk hd
  | .object m, .scalar s => exact layerValue_self _ hk hd
  | .object m, .array base => exact layerValue_self _ hk hd
  | .object upper, .object lower =>
    change Value.object (layerMembers (layerMembers lower upper) upper) =
      .object (layerMembers lower upper)
    rw [layerMembers_of_absorbed]
    intro p hp
    have hget := Members.get?_of_mem hk.nodup hp
    have hlayered := get?_layerMembers lower hk.nodup p.1
    rw [hget] at hlayered
    refine ⟨_, hlayered, ?_⟩
    cases Members.get? lower p.1 with
    | none => exact layerValue_self p.2 (hk.child hget) (hd.child hget)
    | some l => exact layerValue_layerValue l p.2 (hk.child hget) (hd.child hget)
termination_by sizeOf upper
decreasing_by exact Members.sizeOf_lt_of_get? hget

/-- The empty layer changes nothing, and what is laid over it stays as it is. A layer without
directives is what it is over itself; and laid a second time, over any settings, it changes nothing. -/
theorem layerMembers_idempotent (base : Members) (hbase : (Value.object base).KeysOnce) :
    layerMembers base [] = base ∧ layerMembers [] base = base ∧
      ∀ upper : Members, (Value.object upper).KeysOnce → (Value.object upper).DirectiveFree →
        layerMembers upper upper = upper ∧
          layerMembers (layerMembers base upper) upper = layerMembers base upper := by
  refine ⟨rfl, layerMembers_of_new hbase.nodup, fun upper hk hd => ⟨?_, ?_⟩⟩
  · exact Value.object.inj (layerValue_self (.object upper) hk hd)
  · exact Value.object.inj (layerValue_layerValue (.object base) (.object upper) hk hd)

/-- Settings of all kinds under the keys of another layer. -/
def mixedLower : Members :=
  [("a", .array [.str "+", .int 1]), ("b", .object [("c", .int 1), ("d", .array [.int 2])]),
    ("e", .int 3)]

/-- A layer with a mapping, an empty list, another list and a scalar, each over something else. -/
def mixedUpper : Members :=
  [("e", .object [("f", .array [])]), ("b", .object [("d", .array []), ("c", .array [.int 4])]),
    ("a", .array []), ("g", .null)]

/-- What the two make. -/
def mixedBoth : Members :=
  [("a", .array [.str "+", .int 1]),
    ("b", .object [("c", .array [.int 4]), ("d", .array [.int 2])]),
    ("e", .object [("f", .array [])]), ("g", .null)]

lemma keysOnce_mixedLower : (Value.object mixedLower).KeysOnce := by
  refine Value.keysOnce_object (by decide) ?_
  simp only [mixedLower, List.forall_mem_cons]
  refine ⟨.of_members?_eq_none rfl, Value.keysOnce_object (by decide) ?_, .of_members?_eq_none rfl,
    by simp⟩
  simp only [List.forall_mem_cons]
  exact ⟨.of_members?_eq_none rfl, .of_members?_eq_none rfl, by simp⟩

lemma keysOnce_mixedUpper : (Value.object mixedUpper).KeysOnce := by
  refine Value.keysOnce_object (by decide) ?_
  simp only [mixedUpper, List.forall_mem_cons]
  refine ⟨Value.keysOnce_object (by decide) ?_, Value.keysOnce_object (by decide) ?_,
    .of_members?_eq_none rfl, .of_members?_eq_none rfl, by simp⟩
  · simp only [List.forall_mem_cons]
    exact ⟨.of_members?_eq_none rfl, by simp⟩
  · simp only [List.forall_mem_cons]
    exact ⟨.of_members?_eq_none rfl, .of_members?_eq_none rfl, by simp⟩

lemma directiveFree_mixedUpper : (Value.object mixedUpper).DirectiveFree := by
  have hempty : (Value.array []).DirectiveFree := Value.directiveFree_array (by simp [IsDirective])
  refine Value.directiveFree_object ?_
  simp only [mixedUpper, List.forall_mem_cons]
  refine ⟨Value.directiveFree_object ?_, Value.directiveFree_object ?_, hempty,
    Value.directiveFree_scalar _, by simp⟩
  · simp only [List.forall_mem_cons]
    exact ⟨hempty, by simp⟩
  · simp only [List.forall_mem_cons]
    exact ⟨hempty, Value.directiveFree_array (by simp [IsDirective]), by simp⟩

theorem layerMembers_idempotent_mixed :
    layerMembers mixedUpper mixedUpper = mixedUpper ∧
      layerMembers mixedLower mixedUpper = mixedBoth ∧
      layerMembers (layerMembers mixedLower mixedUpper) mixedUpper =
        layerMembers mixedLower mixedUpper := by
  obtain ⟨-, -, h⟩ := layerMembers_idempotent mixedLower keysOnce_mixedLower
  obtain ⟨hself, htwice⟩ := h mixedUpper keysOnce_mixedUpper directiveFree_mixedUpper
  exact ⟨hself, rfl, htwice⟩

end Settings
end TemplateSplice
