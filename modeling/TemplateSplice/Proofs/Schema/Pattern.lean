import Mathlib.Tactic.Lemma
import Mathlib.Tactic.SplitIfs
import TemplateSplice.Schema.Pattern

/-! The texts that the patterns of the settings accept. A pattern stops before a line feed that ends the
text as well as at its end, so both patterns let one line feed follow what they describe. -/
namespace TemplateSplice.Pattern

variable {t : Text}

/-- What may be left after any number of characters of a class is what follows some of them. -/
lemma mem_manyRests_iff {cls : CharClass} {r : Text} :
    r ∈ manyRests cls t ↔ ∃ front, t = front ++ r ∧ ∀ c ∈ front, cls.holds c = true := by
  induction t with
  | nil =>
    rw [manyRests, List.mem_singleton]
    constructor
    · rintro rfl
      exact ⟨[], rfl, by simp⟩
    · rintro ⟨front, h, -⟩
      exact (List.append_eq_nil_iff.mp h.symm).2
  | cons c t ih =>
    rw [manyRests, List.mem_cons]
    constructor
    · rintro (rfl | h)
      · exact ⟨[], rfl, by simp⟩
      · split_ifs at h with hc
        · obtain ⟨front, rfl, hfront⟩ := ih.mp h
          exact ⟨c :: front, rfl, List.forall_mem_cons.mpr ⟨hc, hfront⟩⟩
        · cases h
    · rintro ⟨front, h, hfront⟩
      cases front with
      | nil => exact .inl h.symm
      | cons d front =>
        obtain ⟨rfl, rfl⟩ := List.cons.inj h
        obtain ⟨hc, hfront⟩ := List.forall_mem_cons.mp hfront
        rw [if_pos hc]
        exact .inr (ih.mpr ⟨front, rfl, hfront⟩)

lemma mem_onceRests_iff {cls : CharClass} {r : Text} :
    r ∈ (Item.once cls).rests t ↔ ∃ c, t = c :: r ∧ cls.holds c = true := by
  cases t with
  | nil => simp [Item.rests]
  | cons c t =>
    rw [Item.rests]
    split_ifs with hc
    · simp only [List.mem_singleton, List.cons.injEq]
      exact ⟨fun h => ⟨c, ⟨rfl, h.symm⟩, hc⟩, fun ⟨_, ⟨_, h⟩, _⟩ => h.symm⟩
    · simp only [List.not_mem_nil, List.cons.injEq, false_iff]
      rintro ⟨_, ⟨rfl, _⟩, h⟩
      exact hc h

/-- What may be left of a text where a pattern ends. -/
def AtEnd (tail : Text) : Prop := tail = [] ∨ tail = ['\n']

/-- A pattern of two items describes a text in two parts. -/
lemma accepts_pair_iff {source : String} {first second : Item} :
    (Pattern.mk source [first, second]).accepts t = true ↔
      ∃ middle ∈ first.rests t, ∃ tail ∈ second.rests middle, AtEnd tail := by
  simp only [accepts, rests, List.foldl_cons, List.foldl_nil, List.flatMap_singleton, List.any_eq_true,
    List.mem_flatMap, decide_eq_true_eq, AtEnd]
  constructor
  · rintro ⟨tail, ⟨middle, hmiddle, htail⟩, h⟩
    exact ⟨middle, hmiddle, tail, htail, h⟩
  · rintro ⟨middle, hmiddle, tail, htail, h⟩
    exact ⟨tail, ⟨middle, hmiddle, htail⟩, h⟩

/-- A letter with letters and digits after it. -/
def IsName (t : Text) : Prop := ∃ c word, t = c :: word ∧ c.isAlpha = true ∧ ∀ d ∈ word, d.isAlphanum = true

/-- Characters of one line, the last of which is not blank. -/
def IsToken (t : Text) : Prop := ∃ line c, t = line ++ [c] ∧ '\n' ∉ line ∧ isBlank c = false

/-- A text that the pattern of names accepts is a name, but a line feed may follow. -/
theorem accepts_name_iff :
    name.accepts t = true ↔ ∃ word tail, t = word ++ tail ∧ IsName word ∧ AtEnd tail := by
  rw [name, accepts_pair_iff]
  constructor
  · rintro ⟨middle, hmiddle, tail, htail, h⟩
    obtain ⟨c, rfl, hc⟩ := mem_onceRests_iff.mp hmiddle
    obtain ⟨word, rfl, hword⟩ := mem_manyRests_iff.mp htail
    exact ⟨c :: word, tail, rfl, ⟨c, word, rfl, hc, hword⟩, h⟩
  · rintro ⟨_, tail, rfl, ⟨c, word, rfl, hc, hword⟩, h⟩
    exact ⟨word ++ tail, mem_onceRests_iff.mpr ⟨c, rfl, hc⟩, tail,
      mem_manyRests_iff.mpr ⟨word, rfl, hword⟩, h⟩

/-- A text that the pattern of tokens accepts is a token, but a line feed may follow. -/
theorem accepts_token_iff :
    token.accepts t = true ↔ ∃ word tail, t = word ++ tail ∧ IsToken word ∧ AtEnd tail := by
  rw [token, accepts_pair_iff]
  constructor
  · rintro ⟨middle, hmiddle, tail, htail, h⟩
    obtain ⟨line, rfl, hline⟩ := mem_manyRests_iff.mp hmiddle
    obtain ⟨c, rfl, hc⟩ := mem_onceRests_iff.mp htail
    have hbreak : '\n' ∉ line := fun hmem => by simpa [CharClass.holds] using hline _ hmem
    exact ⟨line ++ [c], tail, by simp, ⟨line, c, rfl, hbreak, by simpa [CharClass.holds] using hc⟩, h⟩
  · rintro ⟨_, tail, rfl, ⟨line, c, rfl, hline, hc⟩, h⟩
    have hlines : ∀ d ∈ line, CharClass.notLineFeed.holds d = true := fun d hd => by
      simpa [CharClass.holds] using fun he : d = '\n' => hline (he ▸ hd)
    exact ⟨c :: tail, mem_manyRests_iff.mpr ⟨line, by simp, hlines⟩, tail,
      mem_onceRests_iff.mpr ⟨c, rfl, by simpa [CharClass.holds] using hc⟩, h⟩

lemma IsName.isAlphanum (h : IsName t) : ∀ c ∈ t, c.isAlphanum = true := by
  obtain ⟨c, word, rfl, hc, hword⟩ := h
  exact List.forall_mem_cons.mpr ⟨by simp [Char.isAlphanum, hc], hword⟩

lemma IsName.newline_not_mem (h : IsName t) : '\n' ∉ t :=
  fun hmem => absurd (h.isAlphanum _ hmem) (by decide)

lemma IsToken.newline_not_mem (h : IsToken t) : '\n' ∉ t := by
  obtain ⟨line, c, rfl, hline, hc⟩ := h
  intro hmem
  rcases List.mem_append.mp hmem with hmem | hmem
  · exact hline hmem
  · obtain rfl := List.mem_singleton.mp hmem
    revert hc
    decide

/-- Of the accepted texts exactly those without a line feed are names. -/
lemma isName_iff_of_accepts (h : name.accepts t = true) : IsName t ↔ '\n' ∉ t := by
  refine ⟨IsName.newline_not_mem, fun hbreak => ?_⟩
  obtain ⟨word, tail, rfl, hword, rfl | rfl⟩ := accepts_name_iff.mp h
  · rwa [List.append_nil]
  · exact absurd (List.mem_append_right word List.mem_cons_self) hbreak

lemma isToken_iff_of_accepts (h : token.accepts t = true) : IsToken t ↔ '\n' ∉ t := by
  refine ⟨IsToken.newline_not_mem, fun hbreak => ?_⟩
  obtain ⟨word, tail, rfl, hword, rfl | rfl⟩ := accepts_token_iff.mp h
  · rwa [List.append_nil]
  · exact absurd (List.mem_append_right word List.mem_cons_self) hbreak

/-- A name holds nothing but letters, digits and line feeds. -/
lemma isAlphanum_or_of_accepts_name (h : name.accepts t = true) :
    ∀ c ∈ t, c.isAlphanum = true ∨ c = '\n' := by
  obtain ⟨word, tail, rfl, hword, htail⟩ := accepts_name_iff.mp h
  intro c hc
  rcases List.mem_append.mp hc with hc | hc
  · exact .inl (hword.isAlphanum c hc)
  · rcases htail with rfl | rfl
    · cases hc
    · exact .inr (List.mem_singleton.mp hc)

end TemplateSplice.Pattern
