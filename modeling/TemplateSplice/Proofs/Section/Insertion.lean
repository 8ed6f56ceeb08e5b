import TemplateSplice.Proofs.Section.Layout

/-! Insertion into a body whose headers all stand apart from what follows them. The layouts of such
bodies are the chains below: each is the layout of its own text, and an insertion of a text that
holds no header and stands apart leads from chain to chain. -/
namespace TemplateSplice

/-- What ends the line that a text is in: nothing if a line starts just after it. -/
def Text.lineEnd (b : Bool) (t : Text) : Text := if Text.opensLine b t then [] else ['\n']

namespace Text

@[simp] theorem opensLine_lineEnd (b : Bool) (t : Text) :
    opensLine (opensLine b t) (lineEnd b t) = true := by
  cases h : opensLine b t <;> simp [lineEnd, h]

@[simp] theorem opensLine_append_lineEnd (b : Bool) (t : Text) :
    opensLine b (t ++ lineEnd b t) = true := by simp

lemma detached_lineEnd (b : Bool) (t : Text) : (lineEnd b t).Detached := by
  unfold lineEnd
  split_ifs
  · simp
  · exact (detached_cons _ _).mpr (by decide)

lemma colon_not_mem_lineEnd (b : Bool) (t : Text) : ':' ∉ lineEnd b t := by
  unfold lineEnd
  split_ifs <;> decide

end Text

namespace AllowList

variable {allowed : AllowList}

/-- Every header of a body is followed by a character of a class or by the end of the body. -/
def Spaced (p : Char → Bool) (allowed : AllowList) (body : Text) : Prop :=
  ∀ h ∈ allowed.headers body, ∀ c ∈ (body.drop h.stop).head?, p c = true

instance (p : Char → Bool) (allowed : AllowList) (body : Text) :
    Decidable (allowed.Spaced p body) :=
  decidable_of_iff ((allowed.headers body).all fun h => (body.drop h.stop).head?.all p)
    (by simp only [List.all_eq_true, Option.all_eq_true, Spaced, Option.mem_def])

/-- A name and a text that can go under it: the text holds no header and stands apart from the
header before. -/
structure Fits (allowed : AllowList) (s : Text × Text) : Prop where
  named : s.1 ∈ allowed.names
  apart : s.2.Detached
  quiet : allowed.scan false s.2 = []

/-- A text and the sections after it, in which exactly the written headers are found: each text
holds none, each but the last ends its line, and each stands apart from the header before. -/
inductive Chain (allowed : AllowList) : Bool → Text → List (Text × Text) → Prop
  | last {b : Bool} {t : Text} (quiet : allowed.scan b t = []) : Chain allowed b t []
  | next {b : Bool} {t name u : Text} {r : List (Text × Text)} (quiet : allowed.scan b t = [])
      (opens : Text.opensLine b t = true) (named : name ∈ allowed.names) (apart : u.Detached)
      (tail : Chain allowed false u r) : Chain allowed b t ((name, u) :: r)

lemma Chain.quiet {b : Bool} {t : Text} {r : List (Text × Text)} (h : allowed.Chain b t r) :
    allowed.scan b t = [] := by
  cases h with
  | last quiet => exact quiet
  | next quiet => exact quiet

lemma Chain.of_mem {b : Bool} {t : Text} {r : List (Text × Text)} (h : allowed.Chain b t r)
    {s : Text × Text} (hs : s ∈ r) : allowed.Fits s := by
  induction h with
  | last => simp at hs
  | next _ _ named apart tail ih =>
    rcases List.mem_cons.mp hs with rfl | hs
    · exact ⟨named, apart, tail.quiet⟩
    · exact ih hs

lemma prefix_headerText_iff {name name' : Text} (hn : ':' ∉ name) :
    headerText name' <+: headerText name → name' = name := by
  intro hp
  rcases List.prefix_concat_iff.mp hp with he | hp
  · exact List.append_cancel_right he
  · exact absurd (hp.subset (colon_mem_headerText name')) hn

/-- The header of a name without colons is found where it is written. -/
lemma nameAt?_headerText (h : allowed.ColonFree) {name : Text} (hn : name ∈ allowed.names)
    (u : Text) : allowed.nameAt? (headerText name ++ u) = some name := by
  cases hs : allowed.nameAt? (headerText name ++ u) with
  | none => exact absurd (List.prefix_append _ _) (nameAt?_eq_none_iff.mp hs name hn)
  | some name' =>
    have hp := headerText_prefix_of_nameAt? hs
    rcases List.prefix_or_prefix_of_prefix hp (List.prefix_append _ _) with hp | hp
    · rw [prefix_headerText_iff (h name hn) hp]
    · rw [prefix_headerText_iff (h name' (mem_names_of_nameAt? hs)) hp]

/-- A text that holds no header only lengthens the preamble of what follows after a seam. -/
lemma layoutFrom_append (h : allowed.LetterDigit) {b : Bool} {t u : Text}
    (hq : allowed.scan b t = []) (hs : u.Detached ∨ Text.opensLine b t = true) :
    allowed.layoutFrom 0 b (t ++ u) =
      ⟨t ++ (allowed.layoutFrom 0 (Text.opensLine b t) u).preamble,
        (allowed.layoutFrom 0 (Text.opensLine b t) u).sections⟩ := by
  induction b, t using allowed.scan_induction with
  | nil b => rfl
  | plain b c r hp ih =>
    have hp' : b = true → allowed.nameAt? (c :: (r ++ u)) = none := fun hb => by
      rw [← List.cons_append, nameAt?_append h (List.cons_ne_nil c r) hs, hp hb]
    rw [Text.opensLine_cons] at hs ⊢
    rw [scan_plain hp] at hq
    rw [List.cons_append, layoutFrom_plain hp', ih hq hs]
    rfl
  | header name v hn _ =>
    rw [scan_header hn] at hq
    exact absurd hq (List.cons_ne_nil _ _)

/-- A chain is the layout of its own text. -/
theorem Chain.layoutFrom (hl : allowed.LetterDigit) {b : Bool} {t : Text}
    {r : List (Text × Text)} (h : allowed.Chain b t r) :
    allowed.layoutFrom 0 b (t ++ Layout.joined r) = ⟨t, r⟩ := by
  induction h with
  | last quiet =>
    rw [Layout.joined, layoutFrom_append hl quiet (.inl Text.detached_nil)]
    simp [AllowList.layoutFrom]
  | next quiet opens named _ _ ih =>
    rw [layoutFrom_append hl quiet (.inr opens), opens, Layout.joined,
      layoutFrom_header (nameAt?_headerText hl.colonFree named _), ih]
    simp [Layout.under]

lemma Chain.push {b : Bool} {c : Char} {t : Text} {r : List (Text × Text)}
    (hn : b = true → allowed.nameAt? (c :: t) = none) (h : allowed.Chain (c == '\n') t r) :
    allowed.Chain b (c :: t) r := by
  cases h with
  | last quiet => exact .last (by rw [scan_plain hn, quiet])
  | next quiet opens named apart tail =>
    exact .next (by rw [scan_plain hn, quiet]) (by rw [Text.opensLine_cons, opens]) named apart tail

lemma chain_layoutFrom (b : Bool) (t : Text)
    (h : ∀ s ∈ (allowed.layoutFrom 0 b t).sections, s.2.Detached) :
    allowed.Chain b (allowed.layoutFrom 0 b t).preamble (allowed.layoutFrom 0 b t).sections := by
  induction b, t using allowed.scan_induction with
  | nil b => exact .last (scan_nil b)
  | plain b c r hn ih =>
    rw [layoutFrom_plain hn] at h ⊢
    refine Chain.push (fun hb => ?_) (ih h)
    have hp : c :: (allowed.layoutFrom 0 (c == '\n') r).preamble <+: c :: r :=
      ⟨_, congrArg (c :: ·) (text_layoutFrom (c == '\n') r)⟩
    exact nameAt?_eq_none_iff.mpr fun name hm hh =>
      nameAt?_eq_none_iff.mp (hn hb) name hm (hh.trans hp)
  | header name u hn ih =>
    rw [layoutFrom_header hn] at h ⊢
    exact .next (scan_nil true) rfl (mem_names_of_nameAt? hn) (h (name, _) (by simp [Layout.under]))
      (ih fun s hs => h s (by simp [Layout.under, hs]))

/-- Past the header of a section comes its text. -/
lemma exists_header_of_mem {s : Text × Text} (before : Text) {r : List (Text × Text)} (hs : s ∈ r) :
    ∃ h ∈ Layout.headersAt before.length r, s.2 <+: (before ++ Layout.joined r).drop h.stop := by
  induction r generalizing before with
  | nil => simp at hs
  | cons s' r ih =>
    obtain ⟨n, t⟩ := s'
    have he : before ++ Layout.joined ((n, t) :: r) =
        (before ++ headerText n) ++ (t ++ Layout.joined r) := by simp [Layout.joined]
    rcases List.mem_cons.mp hs with rfl | hs
    · refine ⟨_, List.mem_cons_self, ?_⟩
      rw [he, show before.length + n.length + 1 = (before ++ headerText n).length by
        simp [Nat.add_assoc], List.drop_left]
      exact List.prefix_append _ _
    · obtain ⟨h, hm, hp⟩ := ih (before ++ headerText n ++ t) hs
      refine ⟨h, List.mem_cons_of_mem _ ?_, ?_⟩
      · simpa [Nat.add_assoc] using hm
      · simpa [he] using hp

/-- The layout of a body whose headers are followed by characters of no header is a chain. -/
theorem Spaced.chain {p : Char → Bool} (hp : ∀ c, p c = true → isHeaderChar c = false)
    {body : Text} (h : allowed.Spaced p body) :
    allowed.Chain true (allowed.layout body).preamble (allowed.layout body).sections := by
  refine chain_layoutFrom true body fun s hs c hc => hp c ?_
  obtain ⟨x, hx, u, hu⟩ := exists_header_of_mem (allowed.layout body).preamble hs
  have hb : (allowed.layout body).preamble ++ Layout.joined (allowed.layout body).sections = body :=
    text_layout body
  replace hu : s.2 ++ u = body.drop x.stop := hu.trans (congrArg (List.drop x.stop) hb)
  refine h x (by rw [headers_eq_layout]; exact hx) c ?_
  rw [← hu, List.head?_append, Option.mem_def.mp hc]
  rfl

end AllowList

namespace Layout

/-- A text and the sections after it with the last line ended. -/
def endLast (b : Bool) (t : Text) : List (Text × Text) → Text × List (Text × Text)
  | [] => (t ++ t.lineEnd b, [])
  | (n, u) :: r =>
    let (u, r) := endLast false u r
    (t, (n, u) :: r)

/-- The layout with an empty section at the end, whose header stands on a line of its own. -/
def addStub (l : Layout) (name : Text) : Layout :=
  let (t, r) := endLast true l.preamble l.sections
  ⟨t, r ++ [(name, [])]⟩

/-- The layout with contents in front of the first text of a name; a section that is missing is
added at the end. -/
def insert (l : Layout) (name contents : Text) : Layout :=
  (if l.names.contains name then l else l.addStub name).addFirst name contents

lemma insert_eq (l : Layout) (name contents : Text) :
    l.insert name contents =
      (if name ∈ l.names then l else l.addStub name).addFirst name contents := by
  by_cases h : name ∈ l.names <;> simp [insert, h]

lemma opensLine_text_cons (b : Bool) (t n u : Text) (r : List (Text × Text)) :
    Text.opensLine b (t ++ joined ((n, u) :: r)) = Text.opensLine false (u ++ joined r) := by
  simp [joined]

/-- Ending the last line of a layout ends that of its text. -/
lemma text_endLast (b : Bool) (t : Text) (r : List (Text × Text)) :
    (endLast b t r).1 ++ joined (endLast b t r).2 =
      t ++ joined r ++ (t ++ joined r).lineEnd b := by
  induction r generalizing b t with
  | nil => simp [endLast, joined]
  | cons s r ih =>
    obtain ⟨n, u⟩ := s
    have he : (t ++ joined ((n, u) :: r)).lineEnd b = (u ++ joined r).lineEnd false := by
      simp only [Text.lineEnd, opensLine_text_cons]
    rw [he]
    simp only [endLast, joined, ih, List.append_assoc]

lemma text_addStub (l : Layout) (name : Text) :
    (l.addStub name).text = l.text ++ l.text.lineEnd true ++ AllowList.headerText name := by
  have h := text_endLast true l.preamble l.sections
  rw [text, addStub]
  simp only [joined_append, ← List.append_assoc, h]
  simp [joined, text]

lemma map_fst_endLast (b : Bool) (t : Text) (r : List (Text × Text)) :
    (endLast b t r).2.map Prod.fst = r.map Prod.fst := by
  induction r generalizing b t with
  | nil => rfl
  | cons s r ih => simp [endLast, ih]

lemma names_addStub (l : Layout) (name : Text) : (l.addStub name).names = l.names ++ [name] := by
  simp [names, addStub, map_fst_endLast]

@[simp] theorem names_addFirst (l : Layout) (name contents : Text) :
    (l.addFirst name contents).names = l.names := map_fst_addFirstIn name contents l.sections

/-- An insertion adds a name at the end if it is new, and changes no name otherwise. -/
theorem names_insert (l : Layout) (name contents : Text) :
    (l.insert name contents).names = if name ∈ l.names then l.names else l.names ++ [name] := by
  rw [insert_eq]
  split_ifs <;> simp [names_addStub]

end Layout

namespace AllowList

variable {allowed : AllowList}

lemma Chain.detached_endLast {b : Bool} {t : Text} (ht : t.Detached) (r : List (Text × Text)) :
    (Layout.endLast b t r).1.Detached := by
  cases r with
  | nil => exact ht.append (Text.detached_lineEnd b t)
  | cons s r => exact ht

lemma Chain.endLast {b : Bool} {t name : Text} {r : List (Text × Text)} (h : allowed.Chain b t r)
    (hn : name ∈ allowed.names) :
    allowed.Chain b (Layout.endLast b t r).1 ((Layout.endLast b t r).2 ++ [(name, [])]) := by
  induction h with
  | @last b t quiet =>
    change allowed.Chain b (t ++ t.lineEnd b) [(name, [])]
    refine .next ?_ (Text.opensLine_append_lineEnd b t) hn Text.detached_nil (.last (scan_nil _))
    rw [scan_append_of_no_colon b t (Text.colon_not_mem_lineEnd b t), quiet]
  | next quiet opens named apart _ ih =>
    exact .next quiet opens named (Chain.detached_endLast apart _) ih

lemma Chain.prepend (hl : allowed.LetterDigit) {contents u : Text} {r : List (Text × Text)}
    (h : allowed.Chain false u r) (hu : u.Detached) (hc : allowed.scan false contents = []) :
    allowed.Chain false (contents ++ u) r := by
  have hq : allowed.scan false (contents ++ u) = [] := by
    rw [scan_append_of_detached hl false contents hu, hc, h.quiet, List.append_nil]
  cases h with
  | last _ => exact .last hq
  | next _ opens named apart tail =>
    refine .next hq ?_ named apart tail
    have hne : u ≠ [] := fun he => by simp [he] at opens
    rw [Text.opensLine_append, Text.opensLine_of_ne_nil hne _ false, opens]

lemma Chain.addFirstIn (hl : allowed.LetterDigit) {b : Bool} {t contents : Text}
    {r : List (Text × Text)} (h : allowed.Chain b t r) (name : Text) (ha : contents.Detached)
    (hc : allowed.scan false contents = []) :
    allowed.Chain b t (Layout.addFirstIn name contents r) := by
  induction h with
  | last quiet => exact .last quiet
  | next quiet opens named apart tail ih =>
    unfold Layout.addFirstIn
    split_ifs
    · exact .next quiet opens named (ha.append apart) (tail.prepend hl apart hc)
    · exact .next quiet opens named apart ih

/-- A layout that is a chain: it is the layout of its own text. -/
def Settled (allowed : AllowList) (l : Layout) : Prop := allowed.Chain true l.preamble l.sections

lemma Settled.layout_text (hl : allowed.LetterDigit) {l : Layout} (h : allowed.Settled l) :
    allowed.layout l.text = l := Chain.layoutFrom hl h

/-- An insertion of a text that holds no header and stands apart keeps a layout settled. -/
theorem Settled.insert (hl : allowed.LetterDigit) {l : Layout} (h : allowed.Settled l)
    {name contents : Text} (hf : allowed.Fits (name, contents)) :
    allowed.Settled (l.insert name contents) := by
  rw [Layout.insert_eq]
  split_ifs
  · exact Chain.addFirstIn hl h name hf.apart hf.quiet
  · exact Chain.addFirstIn hl (Chain.endLast h hf.named) name hf.apart hf.quiet

lemma withHeader_of_mem {body name : Text} (hn : name ∈ allowed.sections body) :
    allowed.withHeader body name = body := if_pos hn

lemma withHeader_of_not_mem {body name : Text} (hn : name ∉ allowed.sections body) :
    allowed.withHeader body name = body ++ body.lineEnd true ++ headerText name := by
  have he : (if body = [] ∨ body.getLast? = some '\n' then [] else ['\n']) = body.lineEnd true := by
    unfold Text.lineEnd Text.opensLine
    cases hl : body.getLast? with
    | none => simp [List.getLast?_eq_none_iff.mp hl]
    | some c => simp [show body ≠ [] from fun h => by simp [h] at hl]
  rw [withHeader, if_neg hn]
  exact congrArg (body ++ · ++ headerText name) he

/-- Inserting into the text of a settled layout is inserting into the layout. -/
theorem Settled.insert?_text (hl : allowed.LetterDigit) {l : Layout} (h : allowed.Settled l)
    {name : Text} (contents : Text) (hn : name ∈ allowed.names) :
    allowed.insert? l.text name contents = some (l.insert name contents).text := by
  have hs : allowed.sections l.text = l.names := by rw [sections_eq_layout, h.layout_text hl]
  rw [Layout.insert_eq]
  by_cases hm : name ∈ l.names
  · have hw : allowed.withHeader l.text name = l.text := withHeader_of_mem (hs ▸ hm)
    rw [insert?_eq_layout contents (by rwa [hw, hs]), hw, h.layout_text hl, if_pos hm]
  · have hw : allowed.withHeader l.text name = (l.addStub name).text := by
      rw [withHeader_of_not_mem (hs ▸ hm), Layout.text_addStub]
    have hl' : allowed.layout (l.addStub name).text = l.addStub name :=
      Settled.layout_text hl (Chain.endLast h hn)
    have hn' : name ∈ allowed.sections (allowed.withHeader l.text name) := by
      rw [hw, sections_eq_layout, hl', Layout.names_addStub]
      simp
    rw [insert?_eq_layout contents hn', hw, hl', if_neg hm]

end AllowList
end TemplateSplice
