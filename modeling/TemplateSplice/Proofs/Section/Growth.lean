import Mathlib.Data.List.Induction
import TemplateSplice.Proofs.Section.Insertion

/-! Layouts after many insertions. Each text is what came in under its name, the last first, and
then the text that was there; new sections stand at the end in the order in which their names first
came, and a line feed stands before the header of a new section where the text before it, as it was
when the header came, did not end its line. -/
namespace TemplateSplice
namespace Layout

/-- The layout with texts inserted one after the other, each into the section of its name. -/
def insertAll (l : Layout) (cs : List (Text × Text)) : Layout :=
  cs.foldl (fun l (name, contents) => l.insert name contents) l

/-- The texts of a name among some insertions, the last one first. -/
def stacked (cs : List (Text × Text)) (name : Text) : Text :=
  (cs.filter (·.1 = name)).reverse.flatMap Prod.snd

/-- The text of the section at an index, empty if there is none. -/
def textAt (l : Layout) (i : Nat) : Text := ((l.sections[i]?).map Prod.snd).getD []

/-- What stands in front of a header: a line feed if the section is new and the text before it,
grown by the insertions made until then, does not end its line. -/
def lineEndBefore (old : List Text) (cs : List (Text × Text))
    (grown : List (Text × Text) → Text) : Option Text → Text
  | none => []
  | some name => if old.contains name then [] else (grown (cs.takeWhile (·.1 ≠ name))).lineEnd false

@[simp] theorem lineEndBefore_none (old : List Text) (cs : List (Text × Text))
    (grown : List (Text × Text) → Text) : lineEndBefore old cs grown none = [] := rfl

lemma lineEndBefore_some (old : List Text) (cs : List (Text × Text))
    (grown : List (Text × Text) → Text) (name : Text) :
    lineEndBefore old cs grown (some name) =
      if name ∈ old then [] else (grown (cs.takeWhile (·.1 ≠ name))).lineEnd false := by
  by_cases h : name ∈ old <;> simp [lineEndBefore, h]

@[simp] theorem insertAll_nil (l : Layout) : l.insertAll [] = l := rfl

@[simp] theorem insertAll_concat (l : Layout) (cs : List (Text × Text)) (c : Text × Text) :
    l.insertAll (cs ++ [c]) = (l.insertAll cs).insert c.1 c.2 := by simp [insertAll]

@[simp] theorem stacked_nil (name : Text) : stacked [] name = [] := rfl

@[simp] theorem stacked_append (cs cs' : List (Text × Text)) (name : Text) :
    stacked (cs ++ cs') name = stacked cs' name ++ stacked cs name := by simp [stacked]

@[simp] theorem stacked_singleton (c : Text × Text) (name : Text) :
    stacked [c] name = if c.1 = name then c.2 else [] := by
  unfold stacked
  split_ifs with h <;> simp [h]

lemma stacked_of_not_mem {cs : List (Text × Text)} {name : Text} (h : name ∉ cs.map Prod.fst) :
    stacked cs name = [] := by
  have hf : cs.filter (·.1 = name) = [] := List.filter_eq_nil_iff.mpr fun c hc => by
    simpa using fun he : c.1 = name => h (he ▸ List.mem_map_of_mem hc)
  rw [stacked, hf]
  rfl

/-- Insertions after the first one of a name do not change which came before it. -/
lemma takeWhile_append_of_mem {cs cs' : List (Text × Text)} {name : Text}
    (h : name ∈ cs.map Prod.fst) :
    (cs ++ cs').takeWhile (·.1 ≠ name) = cs.takeWhile (·.1 ≠ name) := by
  obtain ⟨c, hc, rfl⟩ := List.mem_map.mp h
  rw [List.takeWhile_append, if_neg fun hl => ?_]
  have he := (List.takeWhile_prefix fun d : Text × Text => decide (d.1 ≠ c.1)).eq_of_length hl
  rw [← he] at hc
  simpa using List.all_eq_true.mp List.all_takeWhile c hc

lemma takeWhile_concat_of_not_mem {cs : List (Text × Text)} {c : Text × Text}
    (h : c.1 ∉ cs.map Prod.fst) : (cs ++ [c]).takeWhile (·.1 ≠ c.1) = cs := by
  rw [List.takeWhile_append_of_pos fun d hd => ?_]
  · simp
  · simpa using fun he : d.1 = c.1 => h (he ▸ List.mem_map_of_mem hd)

/-- Insertions add their new names at the end, each once, in the order in which they first come. -/
theorem names_insertAll (l : Layout) (cs : List (Text × Text)) :
    (l.insertAll cs).names =
      l.names ++ ((cs.map Prod.fst).filter (· ∉ l.names)).eraseDups := by
  induction cs using List.reverseRecOn with
  | nil => simp
  | append_singleton cs c ih =>
    rw [insertAll_concat, names_insert, ih, List.map_append, List.filter_append,
      List.eraseDups_append]
    by_cases hl : c.1 ∈ l.names
    · simp [hl]
    · by_cases hc : c.1 ∈ cs.map Prod.fst <;>
        simp [hl, hc, List.removeAll, List.eraseDups_cons]

lemma mem_names_insertAll {l : Layout} {cs : List (Text × Text)} {name : Text} :
    name ∈ (l.insertAll cs).names ↔ name ∈ l.names ∨ name ∈ cs.map Prod.fst := by
  rw [names_insertAll, List.mem_append, List.mem_eraseDups, List.mem_filter]
  by_cases hl : name ∈ l.names <;> simp [hl]

/-- Only a new section of a body without sections adds to its preamble. -/
lemma preamble_insert (l : Layout) (name contents : Text) :
    (l.insert name contents).preamble =
      if l.names = [] then l.preamble ++ l.preamble.lineEnd true else l.preamble := by
  obtain ⟨t, r⟩ := l
  cases r with
  | nil => rfl
  | cons s r =>
    rw [if_neg (by simp [names])]
    rw [insert_eq]
    split_ifs <;> rfl

lemma insert_names_ne_nil (l : Layout) (name contents : Text) :
    (l.insert name contents).names ≠ [] := by
  rw [names_insert]
  split_ifs with h
  · exact List.ne_nil_of_mem h
  · simp

theorem preamble_insertAll (l : Layout) (cs : List (Text × Text)) :
    (l.insertAll cs).preamble =
      if l.names = [] ∧ cs ≠ [] then l.preamble ++ l.preamble.lineEnd true else l.preamble := by
  induction cs using List.reverseRecOn with
  | nil => simp
  | append_singleton cs c ih =>
    rw [insertAll_concat, preamble_insert, ih]
    cases cs using List.reverseRecOn with
    | nil => simp
    | append_singleton cs d => simp [insert_names_ne_nil]

lemma getElem?_addFirstIn (name contents : Text) (r : List (Text × Text)) (i : Nat) :
    (addFirstIn name contents r)[i]? = r[i]?.map fun s =>
      if s.1 = name ∧ name ∉ (r.map Prod.fst).take i then (s.1, contents ++ s.2) else s := by
  induction r generalizing i with
  | nil => simp [addFirstIn]
  | cons s r ih =>
    obtain ⟨n, t⟩ := s
    unfold addFirstIn
    cases i with
    | zero => split_ifs with h <;> simp [h]
    | succ i =>
      split_ifs with h
      · simp [h]
      · simp [ih, Ne.symm h]

lemma addFirstIn_concat {name : Text} (contents t : Text) {r : List (Text × Text)}
    (h : name ∉ r.map Prod.fst) :
    addFirstIn name contents (r ++ [(name, t)]) = r ++ [(name, contents ++ t)] := by
  induction r with
  | nil => simp [addFirstIn]
  | cons s r ih =>
    obtain ⟨n, u⟩ := s
    rw [List.map_cons, List.mem_cons, not_or] at h
    rw [List.cons_append, addFirstIn, if_neg (Ne.symm h.1), ih h.2, List.cons_append]

lemma getElem?_endLast (b : Bool) (t : Text) (r : List (Text × Text)) (i : Nat) :
    (endLast b t r).2[i]? = r[i]?.map fun s =>
      if i + 1 = r.length then (s.1, s.2 ++ s.2.lineEnd false) else s := by
  induction r generalizing b t i with
  | nil => simp [endLast]
  | cons s r ih =>
    obtain ⟨n, u⟩ := s
    cases i with
    | zero => cases r <;> simp [endLast]
    | succ i => simp [endLast, ih]

lemma length_names (l : Layout) : l.names.length = l.sections.length := List.length_map _

/-- A section after an insertion, by its index: the new section stands at the end, the text of the
last section before it ends its line, and the first section of the name has the contents in
front. -/
lemma getElem?_insert (l : Layout) (name contents : Text) (i : Nat) :
    (l.insert name contents).sections[i]? =
      if name ∈ l.names then l.sections[i]?.map fun s =>
        if s.1 = name ∧ name ∉ l.names.take i then (s.1, contents ++ s.2) else s
      else if i = l.names.length then some (name, contents)
      else l.sections[i]?.map fun s =>
        if i + 1 = l.names.length then (s.1, s.2 ++ s.2.lineEnd false) else s := by
  rw [insert_eq]
  by_cases hm : name ∈ l.names
  · rw [if_pos hm, if_pos hm]
    exact getElem?_addFirstIn name contents l.sections i
  · have hf := map_fst_endLast true l.preamble l.sections
    have hl : (endLast true l.preamble l.sections).2.length = l.names.length := by
      rw [names, ← hf, List.length_map]
    rw [if_neg hm, if_neg hm]
    change (addFirstIn name contents ((endLast true l.preamble l.sections).2 ++ [(name, [])]))[i]?
      = _
    rw [addFirstIn_concat contents [] (hf ▸ hm), List.append_nil]
    by_cases hi : i = l.names.length
    · rw [if_pos hi, hi, ← hl, List.getElem?_concat_length]
    · rw [if_neg hi, length_names, ← getElem?_endLast true l.preamble]
      rcases Nat.lt_or_ge i l.names.length with hi' | hi'
      · rw [List.getElem?_append_left (hl ▸ hi')]
      · rw [List.getElem?_eq_none (by simp [hl]; omega), List.getElem?_eq_none (hl ▸ hi')]

/-- What a name looks up is the text of its first section. -/
lemma lookup_eq_getElem? {r : List (Text × Text)} {i : Nat} {name : Text}
    (hi : (r.map Prod.fst)[i]? = some name) (hf : name ∉ (r.map Prod.fst).take i) :
    r.lookup name = r[i]?.map Prod.snd := by
  induction r generalizing i with
  | nil => rfl
  | cons s r ih =>
    obtain ⟨n, t⟩ := s
    cases i with
    | zero =>
      obtain rfl : n = name := by simpa using hi
      simp
    | succ i =>
      rw [List.map_cons, List.take_succ_cons, List.mem_cons, not_or] at hf
      rw [List.lookup_cons, beq_eq_false_iff_ne.mpr hf.1]
      exact ih hi hf.2

/-- The text of the section of a name at an index with some insertions made: what came in goes to
the first section of the name only. -/
def grown (l : Layout) (names : List Text) (i : Nat) (name : Text)
    (cs : List (Text × Text)) : Text :=
  (if (names.take i).contains name then [] else stacked cs name) ++ l.textAt i

lemma grown_eq (l : Layout) (names : List Text) (i : Nat) (name : Text) (cs : List (Text × Text)) :
    l.grown names i name cs =
      (if name ∈ names.take i then [] else stacked cs name) ++ l.textAt i := by
  by_cases h : name ∈ names.take i <;> simp [grown, h]

lemma textAt_of_length_le {l : Layout} {i : Nat} (h : l.names.length ≤ i) : l.textAt i = [] := by
  rw [textAt, List.getElem?_eq_none (by rwa [← length_names])]
  rfl

lemma lineEndBefore_append {old : List Text} {cs cs' : List (Text × Text)} {next : Option Text}
    (grown : List (Text × Text) → Text)
    (h : ∀ name ∈ next, name ∈ old ∨ name ∈ cs.map Prod.fst) :
    lineEndBefore old (cs ++ cs') grown next = lineEndBefore old cs grown next := by
  cases next with
  | none => rfl
  | some name =>
    rw [lineEndBefore_some, lineEndBefore_some]
    split_ifs with ho
    · rfl
    · rw [takeWhile_append_of_mem ((h name rfl).resolve_left ho)]

lemma grown_concat (l : Layout) (names : List Text) (i : Nat) (name : Text)
    (cs : List (Text × Text)) (c : Text × Text) :
    l.grown names i name (cs ++ [c]) =
      if name = c.1 ∧ c.1 ∉ names.take i then c.2 ++ l.grown names i name cs
      else l.grown names i name cs := by
  rw [grown_eq, grown_eq]
  by_cases hn : name = c.1
  · subst hn
    by_cases ht : c.1 ∈ names.take i <;> simp [ht]
  · simp [hn, Ne.symm hn]

lemma grown_append_names (l : Layout) {names : List Text} (names' : List Text) {i : Nat}
    (h : i ≤ names.length) (name : Text) :
    l.grown (names ++ names') i name = l.grown names i name := by
  funext cs
  rw [grown_eq, grown_eq, List.take_append_of_le_length h]

lemma length_names_le_insertAll (l : Layout) (cs : List (Text × Text)) :
    l.names.length ≤ (l.insertAll cs).names.length := by
  rw [names_insertAll, List.length_append]
  exact Nat.le_add_right _ _

/-- The section of a name at an index, with some insertions made that lead to the given names. -/
def sectionAt (l : Layout) (names : List Text) (cs : List (Text × Text)) (i : Nat) (name : Text) :
    Text × Text :=
  (name, l.grown names i name cs ++
    lineEndBefore l.names cs (l.grown names i name) names[i + 1]?)

lemma sectionAt_nil {l : Layout} {i : Nat} {s : Text × Text} (hi : l.sections[i]? = some s) :
    l.sectionAt l.names [] i s.1 = s := by
  have hnext : ∀ g : List (Text × Text) → Text,
      lineEndBefore l.names [] g l.names[i + 1]? = [] := fun g => by
    cases hn : l.names[i + 1]? with
    | none => rfl
    | some name => rw [lineEndBefore_some, if_pos (List.mem_of_getElem? hn)]
  simp [sectionAt, hnext, grown_eq, textAt, hi]

section Step

variable {l : Layout} {names : List Text} {cs : List (Text × Text)} {i : Nat}
  (hnames : ∀ name, name ∈ names ↔ name ∈ l.names ∨ name ∈ cs.map Prod.fst)
include hnames

lemma lineEndBefore_concat (c : Text × Text) (grown : List (Text × Text) → Text) :
    lineEndBefore l.names (cs ++ [c]) grown names[i + 1]? =
      lineEndBefore l.names cs grown names[i + 1]? :=
  lineEndBefore_append grown fun name hn => (hnames name).mp (List.mem_of_getElem? hn)

/-- An insertion under a name that is there changes the first section of the name. -/
lemma sectionAt_of_mem (c : Text × Text) (name : Text) :
    l.sectionAt names (cs ++ [c]) i name =
      if name = c.1 ∧ c.1 ∉ names.take i then (name, c.2 ++ (l.sectionAt names cs i name).2)
      else l.sectionAt names cs i name := by
  simp only [sectionAt, grown_concat, lineEndBefore_concat hnames]
  split_ifs <;> simp

/-- An insertion under a new name makes the last section end its line. -/
lemma sectionAt_of_not_mem {c : Text × Text} (hm : c.1 ∉ names) (hi : i < names.length)
    {name : Text} (hne : name ≠ c.1) :
    l.sectionAt (names ++ [c.1]) (cs ++ [c]) i name =
      if i + 1 = names.length then
        (name, (l.sectionAt names cs i name).2 ++ (l.sectionAt names cs i name).2.lineEnd false)
      else l.sectionAt names cs i name := by
  obtain ⟨hold, hcs⟩ := not_or.mp (mt (hnames c.1).mpr hm)
  simp only [sectionAt, grown_append_names l [c.1] hi.le, grown_concat, hne, false_and, if_false]
  split_ifs with hlast
  · rw [hlast, List.getElem?_eq_none Nat.le.refl, List.getElem?_concat_length]
    simp only [lineEndBefore_none, lineEndBefore_some, if_neg hold, List.append_nil]
    rw [takeWhile_concat_of_not_mem hcs]
  · rw [List.getElem?_append_left (by omega), lineEndBefore_concat hnames]

lemma sectionAt_new {c : Text × Text} (hm : c.1 ∉ names) (hl : l.names.length ≤ names.length) :
    l.sectionAt (names ++ [c.1]) (cs ++ [c]) names.length c.1 = c := by
  obtain ⟨_, hcs⟩ := not_or.mp (mt (hnames c.1).mpr hm)
  rw [sectionAt, List.getElem?_eq_none (by simp)]
  simp [grown_eq, hm, stacked_of_not_mem hcs, textAt_of_length_le hl]

end Step

/-- Every section of a layout after some insertions. -/
theorem getElem?_insertAll (l : Layout) (cs : List (Text × Text)) (i : Nat) :
    (l.insertAll cs).sections[i]? =
      (l.insertAll cs).names[i]?.map (l.sectionAt (l.insertAll cs).names cs i) := by
  -- From the right: the last insertion is into the layout that the others lead to.
  induction cs using List.reverseRecOn with
  | nil =>
    have hs : l.names[i]? = l.sections[i]?.map Prod.fst := List.getElem?_map
    rw [insertAll_nil, hs, Option.map_map]
    cases hi : l.sections[i]? with
    | none => rfl
    | some s => exact congrArg some (sectionAt_nil hi).symm
  | append_singleton cs c ih =>
    have hnames : ∀ name, name ∈ (l.insertAll cs).names ↔ name ∈ l.names ∨ name ∈ cs.map Prod.fst :=
      fun _ => mem_names_insertAll
    have hlen := length_names_le_insertAll l cs
    rw [insertAll_concat, getElem?_insert, ih, names_insert]
    generalize (l.insertAll cs).names = names at hnames hlen ⊢
    by_cases hm : c.1 ∈ names
    · rw [if_pos hm, if_pos hm, Option.map_map]
      congr 1
      funext name
      rw [sectionAt_of_mem hnames]
      rfl
    · rw [if_neg hm, if_neg hm]
      rcases Nat.lt_trichotomy i names.length with hi | rfl | hi
      · have hne : names[i] ≠ c.1 := fun he => hm (he ▸ List.getElem_mem hi)
        rw [if_neg hi.ne, List.getElem?_append_left hi, List.getElem?_eq_getElem hi]
        exact congrArg some (sectionAt_of_not_mem hnames hm hi hne).symm
      · rw [if_pos rfl, List.getElem?_concat_length]
        exact congrArg some (sectionAt_new hnames hm hlen).symm
      · have hnone : (names ++ [c.1])[i]? = none :=
          List.getElem?_eq_none (by rw [List.length_append]; exact hi)
        rw [if_neg hi.ne', List.getElem?_eq_none hi.le, hnone]
        rfl

lemma take_names_insertAll (l : Layout) (cs : List (Text × Text)) {i : Nat}
    (h : i ≤ l.names.length) : (l.insertAll cs).names.take i = l.names.take i := by
  rw [names_insertAll, List.take_append_of_le_length h]

/-- The text that stands at the first index of a name is what the name looks up before the
insertions. -/
lemma textAt_eq_lookup {l : Layout} {cs : List (Text × Text)} {i : Nat} {name : Text}
    (hi : (l.insertAll cs).names[i]? = some name) (hf : name ∉ (l.insertAll cs).names.take i) :
    l.textAt i = (l.sections.lookup name).getD [] := by
  rcases Nat.lt_or_ge i l.names.length with h | h
  · rw [names_insertAll, List.getElem?_append_left h] at hi
    rw [take_names_insertAll l cs h.le] at hf
    rw [textAt, lookup_eq_getElem? hi hf]
  · have hn : name ∉ l.names := fun hn => hf (List.take_subset_take_left _ h (by
      rwa [take_names_insertAll l cs Nat.le.refl, List.take_length]))
    have hlookup : l.sections.lookup name = none := List.lookup_eq_none_iff.mpr fun s hs => by
      simpa using fun he : name = s.1 => hn (he ▸ List.mem_map_of_mem hs)
    rw [textAt_of_length_le h, hlookup]
    rfl

/-- The first text of a name after some insertions. -/
theorem lookup_insertAll (l : Layout) (cs : List (Text × Text)) {i : Nat} {name : Text}
    (hi : (l.insertAll cs).names[i]? = some name) (hf : name ∉ (l.insertAll cs).names.take i) :
    (l.insertAll cs).sections.lookup name = some
      (stacked cs name ++ (l.sections.lookup name).getD [] ++
        lineEndBefore l.names cs
          (fun cs => stacked cs name ++ (l.sections.lookup name).getD [])
          (l.insertAll cs).names[i + 1]?) := by
  have hg : l.grown (l.insertAll cs).names i name =
      fun cs => stacked cs name ++ (l.sections.lookup name).getD [] := by
    funext cs'
    rw [grown_eq, if_neg hf, textAt_eq_lookup hi hf]
  rw [lookup_eq_getElem? hi hf, getElem?_insertAll, hi, Option.map_some, Option.map_some,
    sectionAt, hg]

/-- A section that repeats a name only ends its line before a new section. -/
theorem getElem?_insertAll_of_repeated (l : Layout) (cs : List (Text × Text)) {i : Nat}
    {name t : Text} (hi : l.sections[i]? = some (name, t)) (hr : name ∈ l.names.take i) :
    (l.insertAll cs).sections[i]? = some
      (name, t ++ lineEndBefore l.names cs (fun _ => t) (l.insertAll cs).names[i + 1]?) := by
  have hlt : i < l.names.length := by
    rw [length_names]
    exact (List.getElem?_eq_some_iff.mp hi).1
  have hn : (l.insertAll cs).names[i]? = some name := by
    rw [names_insertAll, List.getElem?_append_left hlt, names, List.getElem?_map, hi]
    rfl
  have hg : l.grown (l.insertAll cs).names i name = fun _ => t := by
    funext cs'
    rw [grown_eq, take_names_insertAll l cs hlt.le, if_pos hr, textAt, hi]
    rfl
  rw [getElem?_insertAll, hn, Option.map_some, sectionAt, hg]

end Layout
end TemplateSplice
