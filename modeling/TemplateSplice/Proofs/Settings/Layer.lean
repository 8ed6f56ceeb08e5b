import Mathlib.Data.List.Nodup
import Mathlib.Tactic.Lemma
import TemplateSplice.Settings.Layer

/-! Layers of settings, path by path. What stands at a path of keys in a layer over another is what
the two have there, one over the other; where the upper layer has nothing, it is what the lower one
has, unless the upper layer has something else than a mapping on the way. -/
namespace TemplateSplice

namespace Members

lemma get?_cons (key : Scalar) (v : Value) (m : Members) (other : Scalar) :
    get? ((key, v) :: m) other = if key.identity = other.identity then some v else get? m other := by
  by_cases h : key.identity = other.identity
  · simp [get?, h]
  · simp [get?, h]

lemma get?_insert (m : Members) (key other : Scalar) (v : Value) :
    get? (insert key v m) other = if key.identity = other.identity then some v else get? m other := by
  by_cases h : key.identity = other.identity
  · rw [if_pos h]
    have := get?_insert_self m key v
    rwa [get?, h] at this
  · rw [if_neg h, get?_insert_of_ne (Ne.symm h)]

lemma get?_eq_none {m : Members} {key : Scalar}
    (h : key.identity ∉ m.map fun p => p.1.identity) : get? m key = none := by
  rw [get?, Option.map_eq_none_iff, List.find?_eq_none]
  intro p hp he
  exact h (List.mem_map.mpr ⟨p, hp, of_decide_eq_true he⟩)

lemma get?_of_mem {m : Members} (h : (m.map fun p => p.1.identity).Nodup) {p : Scalar × Value}
    (hp : p ∈ m) : get? m p.1 = some p.2 := by
  induction m with
  | nil => exact absurd hp List.not_mem_nil
  | cons q m ih =>
    obtain ⟨hq, hm⟩ := List.nodup_cons.mp h
    rw [get?_cons]
    rcases List.mem_cons.mp hp with rfl | hp
    · rw [if_pos rfl]
    · have hne : q.1.identity ≠ p.1.identity := by
        intro he
        exact hq (List.mem_map.mpr ⟨p, hp, he.symm⟩)
      rw [if_neg hne, ih hm hp]

/-- To set a key to what it has is to change nothing. -/
lemma insert_of_get?_eq {m : Members} {key : Scalar} {v : Value} (h : get? m key = some v) :
    insert key v m = m := by
  induction m with
  | nil => simp [get?] at h
  | cons p m ih =>
    obtain ⟨k, u⟩ := p
    rw [get?_cons] at h
    rw [insert]
    split_ifs at h ⊢ with hk
    · rw [Option.some.inj h]
    · rw [ih h]

/-- A new key comes last. -/
lemma insert_of_notMem {m : Members} {key : Scalar} (v : Value)
    (h : key.identity ∉ m.map fun p => p.1.identity) : insert key v m = m ++ [(key, v)] := by
  induction m with
  | nil => rfl
  | cons p m ih =>
    obtain ⟨hp, hm⟩ := not_or.mp (List.mem_cons.not.mp h)
    rw [insert, if_neg (Ne.symm hp), ih hm, List.cons_append]

lemma foldl_insert_of_nodup {before m : Members}
    (h : ((before ++ m).map fun p => p.1.identity).Nodup) :
    m.foldl (fun m (key, value) => insert key value m) before = before ++ m := by
  induction m generalizing before with
  | nil => simp
  | cons p m ih =>
    have hp : p.1.identity ∉ before.map fun p => p.1.identity := by
      rw [List.map_append, List.map_cons] at h
      exact fun hmem => (List.nodup_append.mp h).2.2 _ hmem _ List.mem_cons_self rfl
    rw [List.foldl_cons]
    dsimp only
    rw [insert_of_notMem p.2 hp, ih (by simpa using h)]
    simp

/-- Members whose keys are apart stay as they are when they are set one after another. -/
lemma ofPairs_of_nodup {m : Members} (h : (m.map fun p => p.1.identity).Nodup) : ofPairs m = m :=
  @foldl_insert_of_nodup [] m h

lemma sizeOf_lt_of_get? {m : Members} {key : Scalar} {v : Value} (h : get? m key = some v) :
    sizeOf v < sizeOf (Value.object m) := by
  obtain ⟨⟨k, _⟩, hfind, rfl⟩ := Option.map_eq_some_iff.mp h
  have := List.sizeOf_lt_of_mem (List.mem_of_find?_eq_some hfind)
  simp only [Value.object.sizeOf_spec, Prod.mk.sizeOf_spec] at *
  omega

end Members

namespace Value

/-- The value at the end of a path of keys. -/
def at? : Value → List Scalar → Option Value
  | v, [] => some v
  | v, key :: path => (v.get? key).bind fun child => child.at? path

@[simp] lemma at?_nil (v : Value) : v.at? [] = some v := rfl

@[simp] lemma at?_cons (v : Value) (key : Scalar) (path : List Scalar) :
    v.at? (key :: path) = (v.get? key).bind fun child => child.at? path := rfl

/-- No mapping that a path leads to has a key twice. -/
def KeysOnce (v : Value) : Prop :=
  ∀ path m, v.at? path = some (.object m) → (m.map fun p => p.1.identity).Nodup

lemma KeysOnce.nodup {m : Members} (h : (object m).KeysOnce) :
    (m.map fun p => p.1.identity).Nodup := h [] m rfl

lemma KeysOnce.child {m : Members} {key : Scalar} {v : Value} (h : (object m).KeysOnce)
    (hv : m.get? key = some v) : v.KeysOnce := by
  intro path members hm
  refine h (key :: path) members ?_
  rw [at?_cons, get?, hv]
  exact hm

lemma KeysOnce.of_members?_eq_none {v : Value} (h : v.members? = none) : v.KeysOnce := by
  intro path m hm
  cases path with
  | nil =>
    cases hm
    cases h
  | cons key path =>
    match v with
    | .scalar _ => cases hm
    | .array _ => cases hm

lemma keysOnce_object {m : Members} (h : (m.map fun p => p.1.identity).Nodup)
    (hm : ∀ p ∈ m, p.2.KeysOnce) : (object m).KeysOnce := by
  intro path members hat
  cases path with
  | nil =>
    cases hat
    exact h
  | cons key path =>
    obtain ⟨v, hv, hat⟩ := Option.bind_eq_some_iff.mp hat
    obtain ⟨p, hp, rfl⟩ := Option.map_eq_some_iff.mp hv
    exact hm p (List.mem_of_find?_eq_some hp) path members hat

lemma at?_of_members?_eq_none {v : Value} (h : v.members? = none) (key : Scalar)
    (path : List Scalar) : v.at? (key :: path) = none := by
  match v with
  | .scalar _ => rfl
  | .array _ => rfl

/-- A value that is no mapping stands on the way of a path. -/
def Blocks (v : Value) (path : List Scalar) : Prop :=
  ∃ before there, before <+: path ∧ before ≠ path ∧ v.at? before = some there ∧
    there.members? = none

lemma blocks_of_members?_eq_none {v : Value} (h : v.members? = none) (key : Scalar)
    (path : List Scalar) : v.Blocks (key :: path) :=
  ⟨[], v, List.nil_prefix, (List.cons_ne_nil key path).symm, rfl, h⟩

lemma blocks_cons {m : Members} {key : Scalar} {path : List Scalar} :
    (object m).Blocks (key :: path) ↔ ∃ v, m.get? key = some v ∧ v.Blocks path := by
  constructor
  · rintro ⟨before, there, hbefore, hne, hat, hthere⟩
    cases before with
    | nil =>
      cases hat
      cases hthere
    | cons k before =>
      obtain ⟨rfl, hrest⟩ := List.cons_prefix_cons.mp hbefore
      obtain ⟨v, hv, hat⟩ := Option.bind_eq_some_iff.mp hat
      exact ⟨v, hv, before, there, hrest, fun he => hne (by rw [he]), hat, hthere⟩
  · rintro ⟨v, hv, before, there, hbefore, hne, hat, hthere⟩
    refine ⟨key :: before, there, List.cons_prefix_cons.mpr ⟨rfl, hbefore⟩,
      fun he => hne (List.cons_injective he), ?_, hthere⟩
    rw [at?_cons, get?, hv]
    exact hat

end Value

namespace Settings

/-- What comes of a value over another one. -/
inductive Overlay : Value → Value → Value → Prop
  /-- Mappings merge key by key. -/
  | mappings {lower upper merged : Members}
      (lowerOnly : ∀ key, Members.get? upper key = none →
        Members.get? merged key = Members.get? lower key)
      (upperOnly : ∀ key, Members.get? lower key = none →
        Members.get? merged key = Members.get? upper key)
      (present : ∀ key, (Members.get? lower key).isSome → (Members.get? upper key).isSome →
        (Members.get? merged key).isSome)
      (both : ∀ key l u v, Members.get? lower key = some l → Members.get? upper key = some u →
        Members.get? merged key = some v → Overlay l u v) :
      Overlay (.object lower) (.object upper) (.object merged)
  | kept (lower : List Value) : Overlay (.array lower) (.array []) (.array lower)
  | appended (lower items : List Value) :
      Overlay (.array lower) (.array (.str "+" :: items)) (.array (lower ++ items))
  | replaced (lower items : List Value) :
      Overlay (.array lower) (.array (.str "=" :: items)) (.array items)
  | listed (lower : List Value) {first : Value} (items : List Value) (plus : first ≠ .str "+")
      (equals : first ≠ .str "=") :
      Overlay (.array lower) (.array (first :: items)) (.array (first :: items))
  | other {lower upper : Value} (mappings : lower.members? = none ∨ upper.members? = none)
      (lists : lower.array? = none ∨ upper.array? = none) : Overlay lower upper upper

/-- What stands at a path in settings that are layered over others. -/
structure Layered (lower upper merged : Value) (path : List Scalar) : Prop where
  both : ∀ l u, lower.at? path = some l → upper.at? path = some u →
    ∃ v, merged.at? path = some v ∧ Overlay l u v
  upperOnly : ∀ u, lower.at? path = none → upper.at? path = some u → merged.at? path = some u
  lowerOnly : upper.at? path = none → ¬ upper.Blocks path → merged.at? path = lower.at? path
  absent : upper.at? path = none → upper.Blocks path → merged.at? path = none

/-- The member of a mapping over another at a key. -/
theorem get?_layerMembers (lower : Members) {upper : Members}
    (h : (upper.map fun p => p.1.identity).Nodup) (key : Scalar) :
    Members.get? (layerMembers lower upper) key =
      match Members.get? upper key with
      | none => Members.get? lower key
      | some u => some (match Members.get? lower key with
        | none => u
        | some l => layerValue l u) := by
  induction upper generalizing lower with
  | nil => rfl
  | cons p upper ih =>
    obtain ⟨k, u⟩ := p
    obtain ⟨hk, hupper⟩ := List.nodup_cons.mp h
    rw [layerMembers, ih _ hupper, Members.get?_cons, Members.get?_insert]
    by_cases he : k.identity = key.identity
    · have hnone : Members.get? upper key = none := Members.get?_eq_none (he ▸ hk)
      have hlower : Members.get? lower k = Members.get? lower key := by
        unfold Members.get?
        rw [he]
      rw [hnone, hlower, if_pos he, if_pos he]
      cases Members.get? lower key <;> rfl
    · rw [if_neg he, if_neg he]

lemma overlay_layerItems (lower items : List Value) :
    Overlay (.array lower) (.array items) (.array (layerItems lower items)) := by
  unfold layerItems
  split
  · exact .kept lower
  · exact .appended lower _
  · exact .replaced lower _
  · rename_i hne hplus hequals
    obtain ⟨first, rest, rfl⟩ := List.exists_cons_of_ne_nil hne
    exact .listed lower rest (fun he => hplus rest (by rw [he])) fun he => hequals rest (by rw [he])

/-- A value over another one is what the two make when they are layered. -/
theorem overlay_layerValue (lower upper : Value) (h : upper.KeysOnce) :
    Overlay lower upper (layerValue lower upper) := by
  match upper, lower with
  | .scalar s, lower => exact .other (.inr rfl) (.inr rfl)
  | .array items, .array base => exact overlay_layerItems base items
  | .array items, .scalar s => exact .other (.inl rfl) (.inl rfl)
  | .array items, .object m => exact .other (.inr rfl) (.inl rfl)
  | .object m, .scalar s => exact .other (.inl rfl) (.inl rfl)
  | .object m, .array base => exact .other (.inl rfl) (.inr rfl)
  | .object upper, .object lower =>
    have hget := get?_layerMembers lower h.nodup
    refine .mappings (fun key hu => ?_) (fun key hl => ?_) (fun key hl hu => ?_)
      fun key l u v hl hu hv => ?_
    · rw [hget, hu]
    · rw [hget, hl]
      cases Members.get? upper key <;> rfl
    · obtain ⟨u, hu⟩ := Option.isSome_iff_exists.mp hu
      rw [hget, hu]
      rfl
    · rw [hget, hl, hu] at hv
      obtain rfl := Option.some.inj hv
      exact overlay_layerValue l u (h.child hu)
termination_by sizeOf upper
decreasing_by exact Members.sizeOf_lt_of_get? hu

/-- Where the upper layer has something else than a mapping, nothing is left below. -/
lemma layered_of_upper {lower upper : Value} (h : upper.members? = none) (key : Scalar)
    (path : List Scalar) : Layered lower upper (layerValue lower upper) (key :: path) := by
  have hmerged : (layerValue lower upper).members? = none := by
    match upper, lower with
    | .scalar _, _ => rfl
    | .array _, .array _ => rfl
    | .array _, .scalar _ => rfl
    | .array _, .object _ => rfl
  have hat := Value.at?_of_members?_eq_none h key path
  refine ⟨fun l u _ hu => ?_, fun u _ hu => ?_, fun _ hfree => ?_, fun _ _ => ?_⟩
  · rw [hat] at hu
    cases hu
  · rw [hat] at hu
    cases hu
  · exact absurd (Value.blocks_of_members?_eq_none h key path) hfree
  · exact Value.at?_of_members?_eq_none hmerged key path

/-- Where the lower layer has something else than a mapping, the upper layer is all there is below. -/
lemma layered_of_lower {lower : Value} (h : lower.members? = none) (upper : Members) (key : Scalar)
    (path : List Scalar) :
    Layered lower (.object upper) (layerValue lower (.object upper)) (key :: path) := by
  have hmerged : layerValue lower (.object upper) = .object upper := by
    match lower with
    | .scalar _ => rfl
    | .array _ => rfl
  have hat := Value.at?_of_members?_eq_none h key path
  rw [hmerged]
  refine ⟨fun l u hl _ => ?_, fun u _ hu => hu, fun hu _ => ?_, fun hu _ => hu⟩
  · rw [hat] at hl
    cases hl
  · rw [hat, hu]

/-- Layered settings are layered at every path. -/
theorem layered_layerValue (lower upper : Value) (h : upper.KeysOnce) (path : List Scalar) :
    Layered lower upper (layerValue lower upper) path := by
  induction path generalizing lower upper with
  | nil =>
    refine ⟨?_, nofun, nofun, nofun⟩
    rintro l u ⟨⟩ ⟨⟩
    exact ⟨_, rfl, overlay_layerValue lower upper h⟩
  | cons key path ih =>
    match upper, lower with
    | .scalar _, _ => exact layered_of_upper rfl key path
    | .array _, _ => exact layered_of_upper rfl key path
    | .object _, .scalar _ => exact layered_of_lower rfl _ key path
    | .object _, .array _ => exact layered_of_lower rfl _ key path
    | .object upper, .object lower =>
      have hget := get?_layerMembers lower h.nodup key
      have hat : (layerValue (.object lower) (.object upper)).at? (key :: path) =
          (Members.get? (layerMembers lower upper) key).bind fun v => v.at? path := rfl
      cases hu : Members.get? upper key with
      | none =>
        rw [hu] at hget
        refine ⟨?_, ?_, ?_, ?_⟩ <;> simp only [hat, hget, hu, Value.at?_cons, Value.get?,
          Value.blocks_cons]
        · nofun
        · nofun
        · exact fun _ _ => trivial
        · nofun
      | some u =>
        rw [hu] at hget
        cases hl : Members.get? lower key with
        | none =>
          rw [hl] at hget
          refine ⟨?_, ?_, ?_, ?_⟩ <;> simp only [hat, hget, hu, hl, Value.at?_cons, Value.get?]
          · nofun
          · exact fun _ _ hu => hu
          · exact fun hu _ => hu
          · exact fun hu _ => hu
        | some l =>
          rw [hl] at hget
          obtain ⟨both, upperOnly, lowerOnly, absent⟩ := ih l u (h.child hu)
          refine ⟨?_, ?_, ?_, ?_⟩ <;>
            simp only [hat, hget, hu, hl, Value.at?_cons, Value.get?, Value.blocks_cons,
              Option.bind_some, Option.some.injEq, exists_eq_left']
          · exact both
          · exact upperOnly
          · exact lowerOnly
          · exact absent

end Settings
end TemplateSplice
