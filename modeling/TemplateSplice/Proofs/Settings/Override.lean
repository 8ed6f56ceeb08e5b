import Mathlib.Data.List.Perm.Basic
import TemplateSplice.Proofs.Settings.Layer
import TemplateSplice.Proofs.Text.Lower
import TemplateSplice.Settings.Override

/-! Overrides of layered settings. A variable sets what its path reads, whatever the case of the
keys, and changes nothing at the paths that lie apart from its own; so variables with paths that lie
apart from one another all have their way, and everything else is as layered. -/
namespace TemplateSplice

lemma Scalar.eq_str_of_identity {key : Scalar} {s : String} (h : key.identity = .text s) :
    key = .str s := by
  cases key with
  | str t =>
    cases h
    rfl
  | float x =>
    simp only [identity] at h
    split_ifs at h
  | moment m =>
    simp only [identity] at h
    split at h <;> cases h
  | _ => cases h

namespace Settings

/-- Neither of two paths goes on from the other one. -/
def Apart {α : Type} (p q : List α) : Prop := ¬ p <+: q ∧ ¬ q <+: p

instance {α : Type} [DecidableEq α] (p q : List α) : Decidable (Apart p q) :=
  inferInstanceAs (Decidable (_ ∧ _))

section Apart

variable {α : Type} {p q : List α}

lemma Apart.symm (h : Apart p q) : Apart q p := ⟨h.2, h.1⟩

lemma Apart.exists_cons (h : Apart p q) : ∃ a r b s, p = a :: r ∧ q = b :: s := by
  match p, q with
  | [], q => exact absurd List.nil_prefix h.1
  | p, [] => exact absurd List.nil_prefix h.2
  | a :: r, b :: s => exact ⟨a, r, b, s, rfl, rfl⟩

lemma apart_cons_self {a : α} : Apart (a :: p) (a :: q) ↔ Apart p q := by
  simp [Apart, List.cons_prefix_cons]

end Apart

/-- The value that a path reads, whatever the case of the keys on its way. -/
def folded? : Value → List Text → Option Value
  | v, [] => some v
  | .object m, part :: rest => (Members.get? m (keyFor m part)).bind fun v => folded? v rest
  | _, _ :: _ => none

/-- The texts among the keys of a mapping. -/
def names (m : Members) : List String := m.keys.filterMap Scalar.str?

lemma names_cons_str (key : String) (v : Value) (m : Members) :
    names ((.str key, v) :: m) = key :: names m := rfl

lemma names_cons_of_ne {key : Scalar} (h : ∀ s, key ≠ .str s) (v : Value) (m : Members) :
    names ((key, v) :: m) = names m := by
  cases key with
  | str s => exact absurd rfl (h s)
  | _ => rfl

lemma names_insert (m : Members) (key : String) (v : Value) :
    names (Members.insert (.str key) v m) = if key ∈ names m then names m else names m ++ [key] := by
  induction m with
  | nil => rfl
  | cons p m ih =>
    obtain ⟨k, u⟩ := p
    rw [Members.insert]
    by_cases hk : k.identity = (Scalar.str key).identity
    · obtain rfl := Scalar.eq_str_of_identity hk
      rw [if_pos hk, names_cons_str, names_cons_str, if_pos List.mem_cons_self]
    · rw [if_neg hk]
      by_cases hs : ∃ s, k = .str s
      · obtain ⟨s, rfl⟩ := hs
        have hne : key ≠ s := fun he => hk (by rw [he])
        rw [names_cons_str, names_cons_str, ih]
        simp only [List.mem_cons, hne, false_or]
        split_ifs <;> rfl
      · have hne : ∀ s, k ≠ .str s := fun s he => hs ⟨s, he⟩
        rw [names_cons_of_ne hne, names_cons_of_ne hne, ih]

/-- The texts among the keys of a mapping that a part of a path fits. -/
def fitting (m : Members) (part : Text) : List String :=
  (names m).filter fun key => Text.lower key.toList = part

lemma keyFor_eq (m : Members) (part : Text) :
    keyFor m part = (fitting m part).getLast?.getD (String.ofList part) := rfl

variable {m : Members} {part other : Text}

/-- The key that a part in small letters means is that part in small letters. -/
lemma lower_keyFor (h : part.lower = part) : Text.lower (keyFor m part).toList = part := by
  rw [keyFor_eq]
  cases hlast : (fitting m part).getLast? with
  | none => simpa using h
  | some key =>
    have := (List.mem_filter.mp (List.mem_of_getLast? hlast)).2
    simpa using this

lemma fitting_insert_of_ne {key : String} (h : Text.lower key.toList ≠ part) (v : Value) :
    fitting (Members.insert (.str key) v m) part = fitting m part := by
  unfold fitting
  rw [names_insert]
  split_ifs
  · rfl
  · simp [h]

lemma keyFor_insert_of_ne {key : String} (h : Text.lower key.toList ≠ part) (v : Value) :
    keyFor (Members.insert (.str key) v m) part = keyFor m part := by
  rw [keyFor_eq, fitting_insert_of_ne h, keyFor_eq]

/-- A part means the same key when something has been set there. -/
lemma keyFor_insert_self (h : part.lower = part) (v : Value) :
    keyFor (Members.insert (.str (keyFor m part)) v m) part = keyFor m part := by
  by_cases hmem : keyFor m part ∈ names m
  · rw [keyFor_eq, fitting, names_insert, if_pos hmem]
    rfl
  · rw [keyFor_eq, fitting, names_insert, if_neg hmem, List.filter_append,
      List.filter_cons_of_pos (by simpa using lower_keyFor h), List.getLast?_append]
    simp

/-- Setting a path in a mapping sets the key that its first part means. -/
lemma setIn_cons {v cur cur' : Value} {rest : List Text}
    (h : setIn v (part :: rest) cur = (cur', none)) :
    ∃ m child, cur = .object m ∧
      cur' = .object (Members.insert (.str (keyFor m part)) child m) ∧
      (rest = [] ∧ child = v ∨ rest ≠ [] ∧
        setIn v rest ((Members.get? m (.str (keyFor m part))).getD (.object [])) = (child, none)) := by
  cases cur with
  | object m =>
    cases rest with
    | nil =>
      cases h
      exact ⟨m, v, rfl, rfl, .inl ⟨rfl, rfl⟩⟩
    | cons next rest =>
      obtain ⟨hcur, hnone⟩ := Prod.mk.inj h
      exact ⟨m, _, rfl, hcur.symm, .inr ⟨List.cons_ne_nil _ _, Prod.ext rfl hnone⟩⟩
  | scalar s => cases rest <;> cases h
  | array items => cases rest <;> cases h

/-- Every part of a path is in small letters. -/
def Small (path : List Text) : Prop := ∀ part ∈ path, part.lower = part

/-- A path that is set reads the value set. -/
theorem folded?_setIn {v cur cur' : Value} {path : List Text} (hsmall : Small path)
    (h : setIn v path cur = (cur', none)) : folded? cur' path = some v := by
  induction path generalizing cur cur' with
  | nil => cases h
  | cons part rest ih =>
    obtain ⟨hpart, hrest⟩ := List.forall_mem_cons.mp hsmall
    obtain ⟨m, child, rfl, rfl, hchild⟩ := setIn_cons h
    rw [folded?, keyFor_insert_self hpart, Members.get?_insert_self, Option.bind_some]
    rcases hchild with ⟨rfl, rfl⟩ | ⟨_, hchild⟩
    · rfl
    · exact ih hrest hchild

/-- Paths that lie apart from the path that is set read what they did. -/
theorem folded?_setIn_of_apart {v cur cur' : Value} {path other : List Text} (hsmall : Small path)
    (hother : Small other) (hapart : Apart other path) (h : setIn v path cur = (cur', none)) :
    folded? cur' other = folded? cur other := by
  induction path generalizing other cur cur' with
  | nil => cases h
  | cons part rest ih =>
    obtain ⟨hpart, hrest⟩ := List.forall_mem_cons.mp hsmall
    obtain ⟨m, child, rfl, rfl, hchild⟩ := setIn_cons h
    obtain ⟨first, others, _, _, rfl, he⟩ := hapart.exists_cons
    cases he
    obtain ⟨hfirst, hothers⟩ := List.forall_mem_cons.mp hother
    by_cases hsame : first = part
    · subst hsame
      have hbelow := apart_cons_self.mp hapart
      rcases hchild with ⟨rfl, -⟩ | ⟨_, hchild⟩
      · exact absurd List.nil_prefix hbelow.2
      rw [folded?, folded?, keyFor_insert_self hfirst, Members.get?_insert_self, Option.bind_some,
        ih hrest hothers hbelow hchild]
      cases Members.get? m (.str (keyFor m first)) with
      | some there => rfl
      | none =>
        obtain ⟨_, _, _, _, rfl, -⟩ := hbelow.exists_cons
        rfl
    · have hne : Text.lower (keyFor m part).toList ≠ first := by
        rw [lower_keyFor hpart]
        exact Ne.symm hsame
      have hkey : keyFor m first ≠ keyFor m part := by
        intro he
        rw [← he, lower_keyFor hfirst] at hne
        exact hne rfl
      rw [folded?, folded?, keyFor_insert_of_ne hne, Members.get?_insert_of_ne]
      simpa using hkey

/-- What stands at a path of keys that lies apart from the path that is set stays. -/
theorem at?_setIn_of_apart {v cur cur' : Value} {path : List Text} {keys : List String}
    (hsmall : Small path) (hapart : Apart (keys.map fun key => Text.lower key.toList) path)
    (h : setIn v path cur = (cur', none)) :
    cur'.at? (keys.map .str) = cur.at? (keys.map .str) := by
  induction path generalizing keys cur cur' with
  | nil => cases h
  | cons part rest ih =>
    obtain ⟨hpart, hrest⟩ := List.forall_mem_cons.mp hsmall
    obtain ⟨m, child, rfl, rfl, hchild⟩ := setIn_cons h
    cases keys with
    | nil => exact absurd List.nil_prefix hapart.1
    | cons key keys =>
      rw [List.map_cons, Value.at?_cons, Value.at?_cons, Value.get?, Value.get?]
      by_cases hsame : key = keyFor m part
      · subst hsame
        rw [List.map_cons, lower_keyFor hpart] at hapart
        have hbelow := apart_cons_self.mp hapart
        rcases hchild with ⟨rfl, -⟩ | ⟨_, hchild⟩
        · exact absurd List.nil_prefix hbelow.2
        rw [Members.get?_insert_self, Option.bind_some, ih hrest hbelow hchild]
        cases Members.get? m (.str (keyFor m part)) with
        | some there => rfl
        | none =>
          cases keys with
          | nil => exact absurd List.nil_prefix hbelow.1
          | cons next keys => rfl
      · rw [Members.get?_insert_of_ne]
        simpa using hsame

lemma small_of_variablePath {name : Text} {path : List Text} (h : variablePath name = .ok path) :
    Small path := by
  unfold variablePath at h
  dsimp only at h
  split_ifs at h
  cases h
  intro part hpart
  obtain ⟨t, -, rfl⟩ := List.mem_map.mp hpart
  exact Text.lower_lower t

/-- A variable that is applied has a path and a value, and sets the one to the other. -/
lemma applyVariable_eq {settings settings' : Value} {name text : Text}
    (h : applyVariable settings name text = (settings', none)) :
    ∃ path v, variablePath name = .ok path ∧ coerce text = .ok v ∧
      setIn v path settings = (settings', none) := by
  unfold applyVariable at h
  cases hpath : variablePath name with
  | error fault =>
    rw [hpath] at h
    cases h
  | ok path =>
    cases hv : coerce text with
    | error fault =>
      rw [hpath, hv] at h
      cases h
    | ok v =>
      rw [hpath, hv] at h
      obtain ⟨rfl, hfault⟩ := Prod.mk.inj h
      exact ⟨path, v, rfl, rfl, Prod.ext rfl (Option.map_eq_none_iff.mp hfault)⟩

/-- The path that a variable sets. -/
def pathOf? (var : Text × Text) : Option (List Text) := (variablePath var.1).toOption

/-- Variables with paths that lie apart from one another all have their way, and nothing changes at
paths that lie apart from all of theirs. -/
theorem applyVariables_apart {settings settings' : Value} {vars : List (Text × Text)}
    (hapart : (vars.filterMap pathOf?).Pairwise Apart)
    (h : applyVariables settings vars = (settings', none)) :
    (∀ var ∈ vars, ∃ path v, variablePath var.1 = .ok path ∧
      coerce var.2 = .ok v ∧ folded? settings' path = some v) ∧
    (∀ other, Small other → (∀ path ∈ vars.filterMap pathOf?, Apart other path) →
      folded? settings' other = folded? settings other) ∧
    ∀ keys : List String, (∀ path ∈ vars.filterMap pathOf?,
      Apart (keys.map fun key => Text.lower key.toList) path) →
      settings'.at? (keys.map .str) = settings.at? (keys.map .str) := by
  induction vars generalizing settings with
  | nil =>
    cases h
    exact ⟨nofun, fun _ _ _ => rfl, fun _ _ => rfl⟩
  | cons var vars ih =>
    obtain ⟨name, text⟩ := var
    rw [applyVariables] at h
    split at h
    case h_2 => cases h
    case h_1 settings₁ happlied =>
      obtain ⟨path, v, hpath, hv, hset⟩ := applyVariable_eq happlied
      have hhead : ((name, text) :: vars).filterMap pathOf? =
          path :: vars.filterMap pathOf? := by
        rw [List.filterMap_cons_some]
        rw [pathOf?, hpath]
        rfl
      rw [hhead] at hapart ⊢
      obtain ⟨hfirst, hrest⟩ := List.pairwise_cons.mp hapart
      have hsmall := small_of_variablePath hpath
      obtain ⟨hvalues, hfolded, hat⟩ := ih hrest h
      refine ⟨?_, ?_, ?_⟩
      · refine List.forall_mem_cons.mpr ⟨⟨path, v, hpath, hv, ?_⟩, hvalues⟩
        rw [hfolded path hsmall hfirst]
        exact folded?_setIn hsmall hset
      · intro other hother hall
        obtain ⟨hpathApart, hall⟩ := List.forall_mem_cons.mp hall
        rw [hfolded other hother hall, folded?_setIn_of_apart hsmall hother hpathApart hset]
      · intro keys hall
        obtain ⟨hpathApart, hall⟩ := List.forall_mem_cons.mp hall
        rw [hat keys hall, at?_setIn_of_apart hsmall hpathApart hset]

/-- The paths of the settings that an environment overrides, in small letters. -/
def overridePaths (environment : List (Text × Text)) : List (List Text) :=
  (environment.filter fun var => isOverride var.1).filterMap pathOf?

lemma perm_overridePaths (environment : List (Text × Text)) :
    ((overrides environment).filterMap pathOf?).Perm (overridePaths environment) :=
  (List.mergeSort_perm _ _).filterMap pathOf?

/-- Settings are those of the program, under those of a file, under an environment. Where no path of
a variable goes on from that of another one, each variable is what its path reads; and at every other
path that lies apart from those of the variables stands what the two layers make of it. -/
theorem override_layerValue (lower upper : Members) (environment : List (Text × Text))
    (settings : Value) (honce : (Value.object upper).KeysOnce)
    (hapart : (overridePaths environment).Pairwise Apart)
    (h : override (layerValue (.object lower) (.object upper)) environment = (settings, none)) :
    (∀ name text, (name, text) ∈ environment → isOverride name = true →
      ∃ path v, variablePath name = .ok path ∧ coerce text = .ok v ∧
        folded? settings path = some v) ∧
    ∀ keys : List String, (∀ path ∈ overridePaths environment,
      Apart (keys.map fun key => Text.lower key.toList) path) →
      Layered (.object lower) (.object upper) settings (keys.map .str) := by
  have hperm := perm_overridePaths environment
  have hsorted : ((overrides environment).filterMap pathOf?).Pairwise Apart :=
    (hperm.pairwise_iff fun h => h.symm).mpr hapart
  obtain ⟨hvalues, -, hat⟩ := applyVariables_apart hsorted h
  constructor
  · intro name text hmem hoverride
    have hmem' : (name, text) ∈ overrides environment :=
      (List.mergeSort_perm _ _).mem_iff.mpr (List.mem_filter.mpr ⟨hmem, hoverride⟩)
    exact hvalues (name, text) hmem'
  · intro keys hkeys
    have hsame := hat keys fun path hpath => hkeys path (hperm.mem_iff.mp hpath)
    have hlayered := layered_layerValue (.object lower) (.object upper) honce (keys.map .str)
    obtain ⟨both, upperOnly, lowerOnly, absent⟩ := hlayered
    refine ⟨?_, ?_, ?_, ?_⟩ <;> rw [hsame]
    · exact both
    · exact upperOnly
    · exact lowerOnly
    · exact absent

/-- Settings that a file extends and replaces in part. -/
def sampleLower : Members :=
  [("template", .object [("sections", .strings ["P", "Q"]), ("encoding", .str "utf-8")])]

/-- The settings of that file. -/
def sampleUpper : Members :=
  [("template", .object [("sections", .strings ["+", "R"])]), ("logging", .str "on")]

lemma keysOnce_sampleUpper : (Value.object sampleUpper).KeysOnce := by
  refine Value.keysOnce_object (by decide) ?_
  simp only [sampleUpper, List.forall_mem_cons]
  refine ⟨Value.keysOnce_object (by decide) ?_, .of_members?_eq_none rfl, by simp⟩
  simp only [List.forall_mem_cons]
  exact ⟨.of_members?_eq_none rfl, by simp⟩

theorem override_layerValue_sample :
    ∃ settings, override (layerValue (.object sampleLower) (.object sampleUpper))
        [("CFNMERGE_TEMPLATE__ENCODING".toList, "latin-1".toList)] = (settings, none) ∧
      folded? settings ["template".toList, "encoding".toList] = some (.str "latin-1") ∧
      Layered (.object sampleLower) (.object sampleUpper) settings ["template", "sections"] := by
  have h : ∃ settings, override (layerValue (.object sampleLower) (.object sampleUpper))
      [("CFNMERGE_TEMPLATE__ENCODING".toList, "latin-1".toList)] = (settings, none) :=
    ⟨_, Prod.ext rfl (by decide +kernel)⟩
  obtain ⟨settings, h⟩ := h
  obtain ⟨hvalues, hlayered⟩ := override_layerValue sampleLower sampleUpper _ settings
    keysOnce_sampleUpper (by decide +kernel) h
  obtain ⟨path, v, hpath, hv, hread⟩ := hvalues _ _ (List.mem_singleton.mpr rfl) (by decide +kernel)
  refine ⟨settings, h, ?_, ?_⟩
  · obtain rfl : path = ["template".toList, "encoding".toList] := by
      have : (variablePath "CFNMERGE_TEMPLATE__ENCODING".toList).toOption =
        some ["template".toList, "encoding".toList] := by decide +kernel
      rw [hpath] at this
      exact Option.some.inj this
    obtain rfl : v = .str "latin-1" := Except.ok.inj (hv.symm.trans rfl)
    exact hread
  · exact hlayered ["template", "sections"] (by decide +kernel)

end Settings
end TemplateSplice
