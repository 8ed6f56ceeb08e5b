import Mathlib.Data.List.Find
import Mathlib.Tactic.Lemma
import TemplateSplice.Section.Basic

/-! Scanning a body piece by piece. No header of a letter-digit name runs over a seam where a line
starts or where the text goes on with something that no header contains, so the scan of two such
pieces glued together is the scan of the first and then that of the second. -/
namespace TemplateSplice

/-- The characters of the headers of letter-digit names. -/
def isHeaderChar (c : Char) : Bool := c.isAlphanum || c == ':'

/-- A text that cannot go on with a header begun before it. -/
def Text.Detached (t : Text) : Prop := ∀ c ∈ t.head?, isHeaderChar c = false

/-- Whether a line starts just after a text; the flag is the answer for the empty text. -/
def Text.opensLine (b : Bool) (t : Text) : Bool := (t.getLast?.map (· == '\n')).getD b

namespace Text

@[simp] theorem detached_nil : Detached [] := by simp [Detached]

@[simp] theorem detached_cons (c : Char) (t : Text) :
    Detached (c :: t) ↔ isHeaderChar c = false := by simp [Detached]

lemma Detached.append {t u : Text} (ht : t.Detached) (hu : u.Detached) : (t ++ u).Detached := by
  cases t with
  | nil => exact hu
  | cons c t => exact (detached_cons c (t ++ u)).mpr ((detached_cons c t).mp ht)

@[simp] theorem opensLine_nil (b : Bool) : opensLine b [] = b := rfl

@[simp] theorem opensLine_cons (b : Bool) (c : Char) (t : Text) :
    opensLine b (c :: t) = opensLine (c == '\n') t := by
  cases t <;> simp [opensLine, List.getLast?_cons]

@[simp] theorem opensLine_append (b : Bool) (t u : Text) :
    opensLine b (t ++ u) = opensLine (opensLine b t) u := by
  induction t generalizing b with
  | nil => rfl
  | cons c t ih => simp [ih]

lemma opensLine_of_ne_nil {t : Text} (h : t ≠ []) (b b' : Bool) :
    opensLine b t = opensLine b' t := by
  cases t with
  | nil => exact absurd rfl h
  | cons c t => simp

lemma getLast?_of_opensLine {t : Text} (h : opensLine false t = true) :
    t.getLast? = some '\n' := by
  unfold opensLine at h
  cases hl : t.getLast? with
  | none => simp [hl] at h
  | some c => simpa [hl] using h

end Text

namespace AllowList

variable {allowed : AllowList}

/-- Every allowed name consists of ASCII letters and digits. -/
def LetterDigit (allowed : AllowList) : Prop :=
  ∀ name ∈ allowed.names, ∀ c ∈ name, c.isAlphanum = true

instance (allowed : AllowList) : Decidable allowed.LetterDigit :=
  decidable_of_iff (allowed.names.all fun name => name.all Char.isAlphanum)
    (by simp only [List.all_eq_true, LetterDigit])

/-- The names of the headers in a piece of a body; the flag tells whether a line starts there. -/
def scan (allowed : AllowList) (b : Bool) (t : Text) : List Text :=
  (allowed.headersFrom 0 0 b t).map Header.name

theorem sections_eq_scan (body : Text) : allowed.sections body = allowed.scan true body := rfl

@[simp] theorem length_headerText (name : Text) : (headerText name).length = name.length + 1 := by
  simp [headerText]

lemma headerText_ne_nil (name : Text) : headerText name ≠ [] := by simp [headerText]

lemma colon_mem_headerText (name : Text) : ':' ∈ headerText name := by simp [headerText]

@[simp] theorem getLast?_headerText (name : Text) : (headerText name).getLast? = some ':' := by
  simp [headerText]

@[simp] theorem opensLine_headerText (b : Bool) (name : Text) :
    Text.opensLine b (headerText name) = false := by simp [Text.opensLine]

lemma LetterDigit.isHeaderChar (h : allowed.LetterDigit) {name : Text} (hn : name ∈ allowed.names)
    {c : Char} (hc : c ∈ headerText name) : isHeaderChar c = true := by
  rcases List.mem_append.mp hc with hc | hc
  · simp [TemplateSplice.isHeaderChar, h name hn c hc]
  · simp [TemplateSplice.isHeaderChar, List.mem_singleton.mp hc]

/-- No allowed name holds a colon. -/
def ColonFree (allowed : AllowList) : Prop := ∀ name ∈ allowed.names, ':' ∉ name

lemma LetterDigit.colonFree (h : allowed.LetterDigit) : allowed.ColonFree :=
  fun name hn hc => absurd (h name hn _ hc) (by decide)

lemma LetterDigit.newline_not_mem (h : allowed.LetterDigit) {name : Text}
    (hn : name ∈ allowed.names) : '\n' ∉ headerText name :=
  fun hc => absurd (h.isHeaderChar hn hc) (by decide)

lemma mem_names_of_nameAt? {t name : Text} (h : allowed.nameAt? t = some name) :
    name ∈ allowed.names := List.mem_of_find?_eq_some h

lemma headerText_prefix_of_nameAt? {t name : Text} (h : allowed.nameAt? t = some name) :
    headerText name <+: t := by
  have hp := List.find?_some h
  exact List.isPrefixOf_iff_prefix.mp hp

lemma nameAt?_eq_none_iff {t : Text} :
    allowed.nameAt? t = none ↔ ∀ name ∈ allowed.names, ¬ headerText name <+: t := by
  simp [nameAt?, List.find?_eq_none, ← List.isPrefixOf_iff_prefix]

/-- A prefix of two texts glued together that misses the second is a prefix of the first. -/
lemma prefix_of_prefix_append {h t u : Text} (hp : h <+: t ++ u)
    (hs : ∀ v, v ≠ [] → h = t ++ v → v <+: u → False) : h <+: t := by
  rcases List.prefix_or_prefix_of_prefix hp (List.prefix_append t u) with hp' | ⟨v, rfl⟩
  · exact hp'
  · by_cases hn : v = []
    · simp [hn]
    · exact (hs v hn rfl ((List.prefix_append_right_inj t).mp hp)).elim

/-- Two texts give the same name if the same headers stand at their starts. -/
lemma nameAt?_congr {t u : Text}
    (h : ∀ name ∈ allowed.names, headerText name <+: t ↔ headerText name <+: u) :
    allowed.nameAt? t = allowed.nameAt? u := by
  apply List.find?_congr
  intro name hn
  exact Bool.eq_iff_iff.mpr (by simpa only [List.isPrefixOf_iff_prefix] using h name hn)

/-- Whether a header stands at the start of a text is not changed by what follows after a seam. -/
lemma nameAt?_append (h : allowed.LetterDigit) {b : Bool} {t u : Text} (ht : t ≠ [])
    (hs : u.Detached ∨ Text.opensLine b t = true) :
    allowed.nameAt? (t ++ u) = allowed.nameAt? t := by
  apply nameAt?_congr
  intro name hn
  refine ⟨fun hp => prefix_of_prefix_append hp ?_, fun hp => hp.trans (List.prefix_append t u)⟩
  intro v hv he hu
  obtain ⟨c, v, rfl⟩ := List.exists_cons_of_ne_nil hv
  obtain ⟨r, rfl⟩ := hu
  rcases hs with hs | hs
  · have hc := h.isHeaderChar hn (show c ∈ headerText name by simp [he])
    simp_all
  · rw [Text.opensLine_of_ne_nil ht b false] at hs
    have hm := List.mem_of_getLast? (Text.getLast?_of_opensLine hs)
    exact h.newline_not_mem hn (by simp [he, hm])

/-- A text without a colon completes no header. -/
lemma nameAt?_append_of_no_colon {t u : Text} (hu : ':' ∉ u) :
    allowed.nameAt? (t ++ u) = allowed.nameAt? t := by
  apply nameAt?_congr
  intro name _
  refine ⟨fun hp => prefix_of_prefix_append hp ?_, fun hp => hp.trans (List.prefix_append t u)⟩
  intro v hv he hp
  have hl : v.getLast? = some ':' := by
    rw [← getLast?_headerText name, he, List.getLast?_append, List.getLast?_eq_some_getLast hv]
    rfl
  exact hu (hp.subset (List.mem_of_getLast? hl))

/-- The scan passes over the rest of a header, which ends in a colon. -/
lemma headersFrom_append_colon (p k : Nat) (b : Bool) (h u : Text) (hk : h.length + 1 = k) :
    allowed.headersFrom p k b (h ++ ':' :: u) = allowed.headersFrom (p + k) 0 false u := by
  subst hk
  induction h generalizing p b with
  | nil => simp [headersFrom]
  | cons c h ih =>
    rw [List.cons_append, List.length_cons, headersFrom, ih, Nat.add_right_comm p 1]
    rfl

theorem headersFrom_plain {b : Bool} {c : Char} {r : Text} (p : Nat)
    (h : b = true → allowed.nameAt? (c :: r) = none) :
    allowed.headersFrom p 0 b (c :: r) = allowed.headersFrom (p + 1) 0 (c == '\n') r := by
  cases b with
  | false => rw [headersFrom]
  | true => rw [headersFrom, h rfl]

theorem headersFrom_header {name u : Text} (p : Nat)
    (h : allowed.nameAt? (headerText name ++ u) = some name) :
    allowed.headersFrom p 0 true (headerText name ++ u) =
      ⟨name, p, p + name.length + 1⟩ ::
        allowed.headersFrom (p + name.length + 1) 0 false u := by
  cases name with
  | nil =>
    change allowed.headersFrom p 0 true (':' :: u) = _
    change allowed.nameAt? (':' :: u) = _ at h
    rw [headersFrom, h]
    rfl
  | cons c name =>
    have he : headerText (c :: name) ++ u = c :: (name ++ ':' :: u) := by simp [headerText]
    rw [he] at h ⊢
    rw [headersFrom, h]
    simp only [headersFrom_append_colon (p + 1) (c :: name).length (c == '\n') name u rfl]
    congr 2
    simp only [List.length_cons]
    omega

/-- The three ways in which a scan goes on: at the end, past a character that starts no header, or
past a whole header. -/
@[elab_as_elim]
theorem scan_induction {motive : Bool → Text → Prop} (nil : ∀ b, motive b [])
    (plain : ∀ b c r, (b = true → allowed.nameAt? (c :: r) = none) → motive (c == '\n') r →
      motive b (c :: r))
    (header : ∀ name u, allowed.nameAt? (headerText name ++ u) = some name → motive false u →
      motive true (headerText name ++ u)) (b : Bool) (t : Text) : motive b t := by
  match t with
  | [] => exact nil b
  | c :: r =>
    by_cases hp : b = true → allowed.nameAt? (c :: r) = none
    · exact plain b c r hp (scan_induction nil plain header (c == '\n') r)
    · obtain ⟨rfl, hn⟩ := Classical.not_imp.mp hp
      obtain ⟨name, hs⟩ := Option.ne_none_iff_exists'.mp hn
      obtain ⟨u, hu⟩ := headerText_prefix_of_nameAt? hs
      have hl : u.length < (c :: r).length := by
        rw [← hu, List.length_append, length_headerText]
        omega
      rw [← hu] at hs ⊢
      exact header name u hs (scan_induction nil plain header false u)
termination_by t.length
decreasing_by
  · exact Nat.lt_succ_self r.length
  · exact hl

/-- Where a scan starts to count does not change the names that it finds. -/
@[simp] theorem map_name_headersFrom (p : Nat) (b : Bool) (t : Text) :
    (allowed.headersFrom p 0 b t).map Header.name = allowed.scan b t := by
  unfold scan
  suffices h : ∀ q, (allowed.headersFrom p 0 b t).map Header.name =
      (allowed.headersFrom q 0 b t).map Header.name from h 0
  induction b, t using allowed.scan_induction generalizing p with
  | nil b => intro q; rfl
  | plain b c r h ih =>
    intro q
    rw [headersFrom_plain p h, headersFrom_plain q h]
    exact ih (p + 1) (q + 1)
  | header name u h ih =>
    intro q
    rw [headersFrom_header p h, headersFrom_header q h, List.map_cons, List.map_cons]
    exact congrArg (name :: ·) (ih _ _)

@[simp] theorem scan_nil (b : Bool) : allowed.scan b [] = [] := by simp [scan, headersFrom]

lemma scan_plain {b : Bool} {c : Char} {r : Text}
    (h : b = true → allowed.nameAt? (c :: r) = none) :
    allowed.scan b (c :: r) = allowed.scan (c == '\n') r := by
  rw [scan, headersFrom_plain 0 h, map_name_headersFrom]

lemma scan_header {name u : Text} (h : allowed.nameAt? (headerText name ++ u) = some name) :
    allowed.scan true (headerText name ++ u) = name :: allowed.scan false u := by
  rw [scan, headersFrom_header 0 h, List.map_cons, map_name_headersFrom]

/-- The headers of a text with a seam are those of its first part and then those of its second. -/
theorem headersFrom_append (h : allowed.LetterDigit) (p : Nat) {b : Bool} {t u : Text}
    (hs : u.Detached ∨ Text.opensLine b t = true) :
    allowed.headersFrom p 0 b (t ++ u) =
      allowed.headersFrom p 0 b t ++ allowed.headersFrom (p + t.length) 0 (Text.opensLine b t) u := by
  induction b, t using allowed.scan_induction generalizing p with
  | nil b => rfl
  | plain b c r hp ih =>
    have hp' : b = true → allowed.nameAt? (c :: (r ++ u)) = none := fun hb => by
      rw [← List.cons_append, nameAt?_append h (List.cons_ne_nil c r) hs, hp hb]
    rw [Text.opensLine_cons] at hs ⊢
    rw [List.cons_append, headersFrom_plain p hp', headersFrom_plain p hp, ih (p + 1) hs,
      List.length_cons, Nat.add_assoc p, Nat.add_comm 1]
  | header name v hn ih =>
    have hn' : allowed.nameAt? (headerText name ++ (v ++ u)) = some name := by
      rw [← List.append_assoc, nameAt?_append h (by simp [headerText]) hs, hn]
    rw [Text.opensLine_append, opensLine_headerText] at hs ⊢
    rw [List.append_assoc, headersFrom_header p hn', headersFrom_header p hn, ih _ hs,
      List.cons_append, List.length_append, length_headerText, ← Nat.add_assoc p, ← Nat.add_assoc p]

/-- The scan of a text with a seam is the scan of its first part and then that of its second. -/
theorem scan_append (h : allowed.LetterDigit) {b : Bool} {t u : Text}
    (hs : u.Detached ∨ Text.opensLine b t = true) :
    allowed.scan b (t ++ u) = allowed.scan b t ++ allowed.scan (Text.opensLine b t) u := by
  rw [← map_name_headersFrom 0, headersFrom_append h 0 hs, List.map_append, map_name_headersFrom,
    map_name_headersFrom]

/-- No header starts at the start of a detached text, so it is the same whether a line does. -/
lemma scan_of_detached (h : allowed.LetterDigit) {u : Text} (hu : u.Detached) (b : Bool) :
    allowed.scan b u = allowed.scan false u := by
  cases u with
  | nil => simp
  | cons c r =>
    have hn : allowed.nameAt? (c :: r) = none := nameAt?_eq_none_iff.mpr fun name hn hp => by
      obtain ⟨d, v, hd⟩ := List.exists_cons_of_ne_nil (headerText_ne_nil name)
      have hc : d = c := (List.cons_prefix_cons.mp (hd ▸ hp)).1
      have := h.isHeaderChar hn (c := d) (by simp [hd])
      simp_all
    rw [scan_plain fun _ => hn, scan_plain fun _ => hn]

/-- A detached text adds its own headers to those of the text before it. -/
theorem scan_append_of_detached (h : allowed.LetterDigit) (b : Bool) (t : Text) {u : Text}
    (hu : u.Detached) : allowed.scan b (t ++ u) = allowed.scan b t ++ allowed.scan false u := by
  rw [scan_append h (.inl hu), scan_of_detached h hu]

lemma scan_of_no_colon (b : Bool) {u : Text} (hu : ':' ∉ u) : allowed.scan b u = [] := by
  induction b, u using allowed.scan_induction with
  | nil b => simp
  | plain b c r h ih => rw [scan_plain h, ih fun hc => hu (by simp [hc])]
  | header name v h _ => exact absurd (by simp [headerText]) hu

/-- A text without a colon adds no header. -/
theorem scan_append_of_no_colon (b : Bool) (t : Text) {u : Text} (hu : ':' ∉ u) :
    allowed.scan b (t ++ u) = allowed.scan b t := by
  induction b, t using allowed.scan_induction with
  | nil b => rw [List.nil_append, scan_of_no_colon b hu, scan_nil]
  | plain b c r h ih =>
    have h' : b = true → allowed.nameAt? (c :: (r ++ u)) = none := fun hb => by
      rw [← List.cons_append, nameAt?_append_of_no_colon hu, h hb]
    rw [List.cons_append, scan_plain h', scan_plain h, ih]
  | header name v h ih =>
    have h' : allowed.nameAt? (headerText name ++ (v ++ u)) = some name := by
      rw [← List.append_assoc, nameAt?_append_of_no_colon hu, h]
    rw [List.append_assoc, scan_header h', scan_header h, ih]

/-- Within a line no header starts. -/
theorem scan_of_no_newline {u : Text} (hu : '\n' ∉ u) : allowed.scan false u = [] := by
  induction u with
  | nil => simp
  | cons c u ih =>
    have hc : (c == '\n') = false := by
      simpa using fun hc : c = '\n' => hu (by simp [hc])
    rw [scan_plain (by simp), hc, ih fun hu' => hu (by simp [hu'])]

end AllowList
end TemplateSplice
