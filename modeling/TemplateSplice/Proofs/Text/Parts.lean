import Mathlib.Tactic.Lemma
import TemplateSplice.Text.Basic

/-! Splitting a text and joining the parts. Joining undoes splitting for every separator; splitting
undoes joining where no part holds the separator. -/
namespace TemplateSplice.Text

lemma joinWith_cons (sep t : Text) {parts : List Text} (h : parts ≠ []) :
    joinWith sep (t :: parts) = t ++ sep ++ joinWith sep parts := by
  obtain ⟨u, r, rfl⟩ := List.exists_cons_of_ne_nil h
  rfl

lemma joinWith_cons_cons (sep : Text) (c : Char) (t : Text) (parts : List Text) :
    joinWith sep ((c :: t) :: parts) = c :: joinWith sep (t :: parts) := by
  cases parts <;> rfl

/-- Fewer parts make a text with fewer characters. -/
lemma joinWith_sublist (sep : Text) {parts parts' : List Text} (h : parts'.Sublist parts)
    (hne : parts' ≠ []) : (joinWith sep parts').Sublist (joinWith sep parts) := by
  induction h with
  | slnil => exact absurd rfl hne
  | @cons l l' t h ih =>
    have hl' : l' ≠ [] := fun hn => hne (List.sublist_nil.mp (hn ▸ h))
    rw [joinWith_cons sep t hl']
    exact (ih hne).trans (List.sublist_append_right _ _)
  | @cons_cons l l' t h ih =>
    by_cases hl : l = []
    · subst hl
      by_cases hl' : l' = []
      · exact hl' ▸ List.Sublist.refl _
      · rw [joinWith_cons sep t hl', List.append_assoc]
        exact List.sublist_append_left _ _
    · have hl' : l' ≠ [] := fun hn => hl (List.sublist_nil.mp (hn ▸ h))
      rw [joinWith_cons sep t hl, joinWith_cons sep t hl']
      exact (ih hl).append_left _

/-- The characters of a joined text are those of the separator and of the parts. -/
lemma exists_of_mem_joinWith {sep : Text} {parts : List Text} {c : Char} (hc : c ∉ sep)
    (h : c ∈ joinWith sep parts) : ∃ t ∈ parts, c ∈ t := by
  induction parts with
  | nil => cases h
  | cons t parts ih =>
    by_cases hnil : parts = []
    · subst hnil
      exact ⟨t, List.mem_cons_self, h⟩
    · rw [joinWith_cons sep t hnil, List.mem_append, List.mem_append] at h
      rcases h with (h | h) | h
      · exact ⟨t, List.mem_cons_self, h⟩
      · exact absurd h hc
      · obtain ⟨u, hu, h⟩ := ih h
        exact ⟨u, List.mem_cons_of_mem t hu, h⟩

lemma exists_joinWith_eq_append (sep : Text) {parts : List Text} {t : Text}
    (h : parts.getLast? = some t) : ∃ u, joinWith sep parts = u ++ t := by
  induction parts with
  | nil => simp at h
  | cons s parts ih =>
    by_cases hp : parts = []
    · subst hp
      obtain rfl := Option.some.inj h
      exact ⟨[], rfl⟩
    · obtain ⟨r, parts, rfl⟩ := List.exists_cons_of_ne_nil hp
      obtain ⟨u, hu⟩ := ih (by rwa [List.getLast?_cons_cons] at h)
      exact ⟨s ++ sep ++ u, by simp [joinWith_cons sep s hp, hu]⟩

lemma joinWith_partsFrom {sep : Text} (hs : sep ≠ []) (k : Nat) (t : Text) :
    joinWith sep (partsFrom sep k t) = t.drop k := by
  fun_induction partsFrom sep k t with
  | case1 k => simp [joinWith]
  | case2 k c r ih => simpa using ih
  | case3 c r hp ih =>
    obtain ⟨u, hu⟩ := List.isPrefixOf_iff_prefix.mp hp
    obtain ⟨d, s, rfl⟩ := List.exists_cons_of_ne_nil hs
    obtain ⟨rfl, rfl⟩ := List.cons.inj hu
    rw [joinWith_cons _ _ (partsFrom_ne_nil _ _ _), ih]
    simp
  | case4 c r hp hn => exact absurd hn (partsFrom_ne_nil sep 0 r)
  | case5 c r hp part parts hparts ih =>
    rw [joinWith_cons_cons, ← hparts, ih]
    rfl

/-- Joining the parts of a text with what separates them gives the text back. -/
theorem joinWith_splitOn {sep : Text} (hs : sep ≠ []) (t : Text) :
    joinWith sep (splitOn sep t) = t := joinWith_partsFrom hs 0 t

lemma splitOn_cons_self (c : Char) (t : Text) : splitOn [c] (c :: t) = [] :: splitOn [c] t := by
  simp [splitOn, partsFrom]

lemma splitOn_cons_of_ne {c d : Char} (h : c ≠ d) (t : Text) :
    splitOn [c] (d :: t) =
      (d :: (splitOn [c] t).headD []) :: (splitOn [c] t).tail := by
  obtain ⟨u, r, hu⟩ := List.exists_cons_of_ne_nil (splitOn_ne_nil [c] t)
  rw [hu]
  unfold splitOn at hu ⊢
  simp [partsFrom, h, hu]

lemma splitOn_of_not_mem {c : Char} {t : Text} (h : c ∉ t) : splitOn [c] t = [t] := by
  induction t with
  | nil => rfl
  | cons d t ih =>
    rw [splitOn_cons_of_ne (fun hc => h (by simp [hc])), ih fun hc => h (by simp [hc])]
    rfl

/-- A text up to the first separator is the first part. -/
lemma splitOn_append_cons {c : Char} {t : Text} (h : c ∉ t) (u : Text) :
    splitOn [c] (t ++ c :: u) = t :: splitOn [c] u := by
  induction t with
  | nil => exact splitOn_cons_self c u
  | cons d t ih =>
    rw [List.cons_append, splitOn_cons_of_ne (fun hc => h (by simp [hc])),
      ih fun hc => h (by simp [hc])]
    rfl

theorem splitOn_joinWith {c : Char} {parts : List Text} (hne : parts ≠ [])
    (h : ∀ t ∈ parts, c ∉ t) : splitOn [c] (joinWith [c] parts) = parts := by
  induction parts with
  | nil => exact absurd rfl hne
  | cons t parts ih =>
    by_cases hp : parts = []
    · subst hp
      exact splitOn_of_not_mem (h t (by simp))
    · rw [joinWith_cons _ _ hp, List.append_assoc]
      change splitOn [c] (t ++ c :: joinWith [c] parts) = _
      rw [splitOn_append_cons (h t (by simp)), ih hp fun u hu => h u (by simp [hu])]

/-- No part holds the character that separates them. -/
theorem not_mem_of_mem_splitOn {c : Char} {t part : Text} (h : part ∈ splitOn [c] t) :
    c ∉ part := by
  induction t generalizing part with
  | nil =>
    rw [List.mem_singleton.mp h]
    simp
  | cons d t ih =>
    by_cases hd : c = d
    · subst hd
      rw [splitOn_cons_self] at h
      rcases List.mem_cons.mp h with rfl | h
      · simp
      · exact ih h
    · rw [splitOn_cons_of_ne hd] at h
      obtain ⟨u, r, hu⟩ := List.exists_cons_of_ne_nil (splitOn_ne_nil [c] t)
      rw [hu] at h ih
      rcases List.mem_cons.mp h with rfl | h
      · exact List.not_mem_cons_of_ne_of_not_mem hd (ih (by simp))
      · exact ih (by simp [show part ∈ r from h])

/-- There is one part more than there are separators. -/
theorem length_splitOn (c : Char) (t : Text) : (splitOn [c] t).length = t.count c + 1 := by
  induction t with
  | nil => rfl
  | cons d t ih =>
    by_cases h : c = d
    · subst h
      rw [splitOn_cons_self, List.length_cons, ih, List.count_cons_self]
    · have hpos : 0 < (splitOn [c] t).length := by omega
      rw [splitOn_cons_of_ne h, List.length_cons, List.length_tail,
        List.count_cons_of_ne (Ne.symm h)]
      omega

/-- A text has two parts if it holds the separator once, between them. -/
theorem splitOn_eq_pair_iff {c : Char} {t a b : Text} :
    splitOn [c] t = [a, b] ↔ t = a ++ c :: b ∧ c ∉ a ∧ c ∉ b := by
  constructor
  · intro h
    have hj : joinWith [c] (splitOn [c] t) = t := joinWith_splitOn (by simp) t
    refine ⟨?_, not_mem_of_mem_splitOn (t := t) (by simp [h]),
      not_mem_of_mem_splitOn (t := t) (by simp [h])⟩
    rw [← hj, h]
    simp [joinWith]
  · rintro ⟨rfl, ha, hb⟩
    rw [splitOn_append_cons ha, splitOn_of_not_mem hb]

end TemplateSplice.Text
