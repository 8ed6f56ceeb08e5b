import Mathlib.Data.List.TakeWhile
import Mathlib.Tactic.Lemma
import TemplateSplice.Text.Blank

/-! Trimming. What is trimmed off a text is made of characters of a class, what is left starts and ends
with other characters, and characters of the class around a text do not count. -/
namespace TemplateSplice.Text

variable {p : Char → Bool} {t a b : Text} {c : Char}

section Trimming

/-- Trimming at the right cuts off characters of the class only. -/
lemma exists_trimRight_append (p : Char → Bool) (t : Text) :
    ∃ tail, t = trimRight p t ++ tail ∧ ∀ c ∈ tail, p c = true := by
  refine ⟨(t.reverse.takeWhile p).reverse, ?_, fun c hc => ?_⟩
  · rw [trimRight, ← List.reverse_append, List.takeWhile_append_dropWhile, List.reverse_reverse]
  · exact List.all_eq_true.mp (List.all_takeWhile (l := t.reverse)) c (List.mem_reverse.mp hc)

lemma getLast?_trimRight (h : (trimRight p t).getLast? = some c) : p c = false := by
  rw [trimRight, List.getLast?_reverse] at h
  have := List.head?_dropWhile_not p t.reverse
  simpa [h] using this

/-- A text is what it is trimmed to, between characters of the class. -/
lemma exists_append_trim (p : Char → Bool) (t : Text) :
    ∃ a b, t = a ++ trim p t ++ b ∧ ∀ c ∈ a ++ b, p c = true := by
  obtain ⟨b, hb, hblank⟩ := exists_trimRight_append p (trimLeft p t)
  refine ⟨t.takeWhile p, b, ?_, fun c hc => ?_⟩
  · rw [trim, List.append_assoc, ← hb, trimLeft, List.takeWhile_append_dropWhile]
  · rcases List.mem_append.mp hc with hc | hc
    · exact List.all_eq_true.mp List.all_takeWhile c hc
    · exact hblank c hc

lemma mem_of_mem_trim (h : c ∈ trim p t) : c ∈ t := by
  obtain ⟨a, b, ht, _⟩ := exists_append_trim p t
  rw [ht]
  exact List.mem_append_left b (List.mem_append_right a h)

lemma trimRight_append_of_all (t : Text) (hb : ∀ c ∈ b, p c = true) :
    trimRight p (t ++ b) = trimRight p t := by
  unfold trimRight
  rw [List.reverse_append, List.dropWhile_append_of_pos fun c hc => hb c (List.mem_reverse.mp hc)]

/-- Characters of the class around a text are trimmed off first. -/
theorem trim_append (t : Text) (h : ∀ c ∈ a ++ b, p c = true) : trim p (a ++ t ++ b) = trim p t := by
  obtain ⟨ha, hb⟩ := List.forall_mem_append.mp h
  unfold trim trimLeft
  rw [List.append_assoc, List.dropWhile_append_of_pos ha, List.dropWhile_append]
  split
  · next hempty =>
    rw [List.dropWhile_eq_nil_iff.mpr hb, List.isEmpty_iff.mp hempty]
  · exact trimRight_append_of_all _ hb

/-- Trimming twice is trimming once. -/
@[simp] theorem trim_trim (p : Char → Bool) (t : Text) : trim p (trim p t) = trim p t := by
  obtain ⟨a, b, ht, hall⟩ := exists_append_trim p t
  rw [← trim_append (trim p t) hall, ← ht]

/-- A text that starts and ends with other characters is trimmed already. -/
lemma trim_eq_self (hhead : ∀ c ∈ t.head?, p c = false) (hlast : ∀ c ∈ t.getLast?, p c = false) :
    trim p t = t := by
  have hdrop : ∀ u : Text, (∀ c ∈ u.head?, p c = false) → u.dropWhile p = u := by
    intro u hu
    cases u with
    | nil => rfl
    | cons c r => exact List.dropWhile_cons_of_neg (by simp [hu c rfl])
  unfold trim trimLeft trimRight
  rw [hdrop t hhead, hdrop t.reverse (by rwa [List.head?_reverse]), List.reverse_reverse]

end Trimming

section Stripping

lemma mem_strip (h : c ∈ t) (hc : isBlank c = false) : c ∈ t.strip := by
  obtain ⟨a, b, ht, hall⟩ := exists_append_trim isBlank t
  rw [ht] at h
  have hoff : c ∉ a ++ b := fun hm => by simp [hall c hm] at hc
  simp only [List.mem_append, not_or] at h hoff
  exact (h.resolve_right hoff.2).resolve_left hoff.1

lemma exists_of_strip_ne_nil (h : t.strip ≠ []) : ∃ c ∈ t, isBlank c = false := by
  have hlast : isBlank (t.strip.getLast h) = false :=
    getLast?_trimRight (List.getLast?_eq_some_getLast h)
  exact ⟨_, mem_of_mem_trim (List.getLast_mem h), hlast⟩

/-- A text without blanks is stripped already. -/
lemma strip_eq_self (h : ∀ c ∈ t, isBlank c = false) : t.strip = t :=
  trim_eq_self (fun c hc => h c (List.mem_of_head? hc)) fun c hc => h c (List.mem_of_getLast? hc)

end Stripping

end TemplateSplice.Text
