import Mathlib.Data.List.Forall2
import TemplateSplice.Proofs.Section.Growth
import TemplateSplice.Proofs.Section.Place
import TemplateSplice.Proofs.Text.LineEnds

/-! Sections of texts with other line ends. Headers of letter-digit names hold no line end, so both texts
have the same headers, and what stands between them is the same line by line. -/
namespace TemplateSplice

/-- Layouts with the same names, whose texts are the same line by line. -/
structure SameLayout (lone : Prop) (l l' : Layout) : Prop where
  preamble : SameLines lone l.preamble l'.preamble
  sections : List.Forall₂ (fun s s' => s.1 = s'.1 ∧ SameLines lone s.2 s'.2) l.sections l'.sections

namespace SameLayout

variable {lone : Prop} {l l' : Layout}

lemma names (h : SameLayout lone l l') : l.names = l'.names := by
  have hm := List.forall₂_map_right_iff.mpr (List.forall₂_map_left_iff.mpr
    (h.sections.imp fun _ _ hs => hs.1))
  exact List.forall₂_eq_eq_eq ▸ hm

lemma lookup (h : SameLayout lone l l') (name : Text) :
    Option.Rel (SameLines lone) (l.sections.lookup name) (l'.sections.lookup name) := by
  obtain ⟨_, hs⟩ := h
  generalize l.sections = r at hs
  generalize l'.sections = r' at hs
  induction hs with
  | nil => exact .none
  | @cons s s' r r' hs _ ih =>
    obtain ⟨n, t⟩ := s
    obtain ⟨n', t'⟩ := s'
    obtain ⟨rfl, ht⟩ := hs
    rw [List.lookup_cons, List.lookup_cons]
    cases name == n with
    | true => exact .some ht
    | false => exact ih

lemma joined {r r' : List (Text × Text)}
    (hn : ∀ s ∈ r, (AllowList.headerText s.1).OneLine)
    (h : List.Forall₂ (fun s s' => s.1 = s'.1 ∧ SameLines lone s.2 s'.2) r r') :
    SameLines lone (Layout.joined r) (Layout.joined r') := by
  induction h with
  | nil => exact .nil
  | @cons s s' r r' hs _ ih =>
    obtain ⟨n, t⟩ := s
    obtain ⟨n', t'⟩ := s'
    obtain ⟨rfl, ht⟩ := hs
    exact (SameLines.of_oneLine (hn _ List.mem_cons_self)).append
      (ht.append (ih fun s hs => hn s (List.mem_cons_of_mem _ hs)))

lemma addFirst (h : SameLayout lone l l') (name : Text) {contents contents' : Text}
    (hc : SameLines lone contents contents') :
    SameLayout lone (l.addFirst name contents) (l'.addFirst name contents') := by
  obtain ⟨hp, hs⟩ := h
  refine ⟨hp, ?_⟩
  unfold Layout.addFirst
  generalize l.sections = r at hs
  generalize l'.sections = r' at hs
  induction hs with
  | nil => exact .nil
  | @cons s s' r r' hs hr ih =>
    obtain ⟨n, t⟩ := s
    obtain ⟨n', t'⟩ := s'
    obtain ⟨rfl, ht⟩ := hs
    simp only [Layout.addFirstIn]
    split_ifs
    · exact .cons ⟨rfl, hc.append ht⟩ hr
    · exact .cons ⟨rfl, ht⟩ ih

end SameLayout

namespace AllowList

variable {allowed : AllowList} {lone : Prop} {t u : Text}

lemma LetterDigit.oneLine (h : allowed.LetterDigit) {name : Text} (hn : name ∈ allowed.names) :
    (headerText name).OneLine := by
  intro c hc
  have hh := h.isHeaderChar hn hc
  constructor
  · rintro rfl
    exact absurd hh (by decide)
  · rintro rfl
    exact absurd hh (by decide)

lemma nameAt?_eq_of_sameLines (hl : allowed.LetterDigit) (h : SameLines lone t u) :
    allowed.nameAt? t = allowed.nameAt? u :=
  nameAt?_congr fun _ hn => h.prefix_iff (hl.oneLine hn)

/-- Both texts have the same headers, and related texts between them. -/
lemma sameLayout_layoutFrom (hl : allowed.LetterDigit) (b : Bool) (h : SameLines lone t u) :
    SameLayout lone (allowed.layoutFrom 0 b t) (allowed.layoutFrom 0 b u) := by
  induction b, t using allowed.scan_induction generalizing u with
  | nil b =>
    cases h
    exact ⟨.nil, .nil⟩
  | plain b c r hn ih =>
    have hn' : b = true → allowed.nameAt? u = none := fun hb => by
      rw [← nameAt?_eq_of_sameLines hl h, hn hb]
    rw [layoutFrom_plain hn]
    cases h with
    | char solid rest =>
      rw [layoutFrom_plain hn']
      exact ⟨.char solid (ih rest).preamble, (ih rest).sections⟩
    | crlf rest =>
      rw [layoutFrom_plain hn', layoutFrom_plain (by simp)]
      exact ⟨.crlf (ih rest).preamble, (ih rest).sections⟩
    | lf hlone rest =>
      rw [layoutFrom_plain hn']
      exact ⟨.lf hlone (ih rest).preamble, (ih rest).sections⟩
  | header name v hn ih =>
    have hname := mem_names_of_nameAt? hn
    obtain ⟨v', rfl, hv⟩ := h.of_oneLine_append (hl.oneLine hname)
    have hn' : allowed.nameAt? (headerText name ++ v') = some name := by
      rw [← nameAt?_eq_of_sameLines hl h, hn]
    rw [layoutFrom_header hn, layoutFrom_header hn']
    exact ⟨.nil, .cons ⟨rfl, (ih hv).preamble⟩ (ih hv).sections⟩

lemma sections_eq_of_sameLines (hl : allowed.LetterDigit) (h : SameLines lone t u) :
    allowed.sections t = allowed.sections u := by
  rw [sections_eq_layout, sections_eq_layout]
  exact (sameLayout_layoutFrom hl true h).names

lemma section?_of_sameLines (hl : allowed.LetterDigit) (h : SameLines lone t u) (name : Text) :
    Option.Rel (SameLines lone) (allowed.section? t name) (allowed.section? u name) := by
  rw [section?_eq_lookup, section?_eq_lookup]
  exact (sameLayout_layoutFrom hl true h).lookup name

/-- A header that is added keeps bodies related, but the line feed before it stands alone. -/
lemma sameLines_withHeader (hl : allowed.LetterDigit) (h : SameLines lone t u) {name : Text}
    (hn : name ∈ allowed.names) (hopens : ¬ lone → Text.opensLine true t = true) :
    SameLines lone (allowed.withHeader t name) (allowed.withHeader u name) := by
  by_cases hm : name ∈ allowed.sections t
  · rwa [withHeader_of_mem hm, withHeader_of_mem (sections_eq_of_sameLines hl h ▸ hm)]
  · rw [withHeader_of_not_mem hm, withHeader_of_not_mem (sections_eq_of_sameLines hl h ▸ hm)]
    refine (h.append ?_).append (SameLines.of_oneLine (hl.oneLine hn))
    unfold Text.lineEnd
    rw [← h.opensLine]
    split_ifs with ht
    · exact .nil
    · exact .lf (by_contra fun hlone => ht (hopens hlone)) .nil

/-- Insertions of related texts into related bodies give related bodies. -/
theorem insert?_of_sameLines (hl : allowed.LetterDigit) (h : SameLines lone t u) {name : Text}
    (hn : name ∈ allowed.names) (hopens : ¬ lone → Text.opensLine true t = true)
    {contents contents' : Text} (hc : SameLines lone contents contents') :
    ∃ t' u', allowed.insert? t name contents = some t' ∧ allowed.insert? u name contents' = some u' ∧
      SameLines lone t' u' := by
  have hlayout := (sameLayout_layoutFrom hl true (sameLines_withHeader hl h hn hopens)).addFirst name hc
  refine ⟨_, _, insert?_eq_layout contents (mem_sections_withHeader hl.findable t hn),
    insert?_eq_layout contents' (mem_sections_withHeader hl.findable u hn), ?_⟩
  refine hlayout.preamble.append (SameLayout.joined (fun s hs => ?_) hlayout.sections)
  have hm := List.mem_map_of_mem (f := Prod.fst) hs
  rw [show List.map Prod.fst _ = _ from Layout.names_addFirst _ _ _] at hm
  rw [← sections_eq_layout] at hm
  exact hl.oneLine (mem_names_of_mem_sections hm)

/-- A header on a new line adds an empty section at the end. -/
lemma layoutFrom_append_header (hl : allowed.LetterDigit) {b : Bool} {name : Text}
    (hn : name ∈ allowed.names) (ht : Text.opensLine b t = true) :
    allowed.layoutFrom 0 b (t ++ headerText name) =
      ⟨(allowed.layoutFrom 0 b t).preamble, (allowed.layoutFrom 0 b t).sections ++ [(name, [])]⟩ := by
  induction b, t using allowed.scan_induction with
  | nil b =>
    obtain rfl : b = true := ht
    have hh := layoutFrom_header (nameAt?_headerText hl.colonFree hn [])
    rw [List.append_nil] at hh
    exact hh
  | plain b c r hp ih =>
    rw [Text.opensLine_cons] at ht
    have hr : Text.opensLine b (c :: r) = true := by rwa [Text.opensLine_cons]
    have hp' : b = true → allowed.nameAt? (c :: (r ++ headerText name)) = none := fun hb => by
      rw [← List.cons_append, nameAt?_append hl (List.cons_ne_nil c r) (.inr hr), hp hb]
    rw [List.cons_append, layoutFrom_plain hp', layoutFrom_plain hp, ih ht]
    rfl
  | header name' v hv ih =>
    rw [Text.opensLine_append, opensLine_headerText] at ht
    have hr : Text.opensLine true (headerText name' ++ v) = true := by
      rwa [Text.opensLine_append, opensLine_headerText]
    have hv' : allowed.nameAt? (headerText name' ++ (v ++ headerText name)) = some name' := by
      rw [← List.append_assoc, nameAt?_append hl (by simp [headerText]) (.inr hr), hv]
    rw [List.append_assoc, layoutFrom_header hv', layoutFrom_header hv, ih ht]
    rfl

lemma opensLine_joined {r : List (Text × Text)} (h : ∀ s ∈ r, Text.opensLine false s.2 = true) :
    Text.opensLine true (Layout.joined r) = true := by
  induction r with
  | nil => rfl
  | cons s r ih =>
    obtain ⟨n, t⟩ := s
    simp only [Layout.joined, Text.opensLine_append, opensLine_headerText]
    rw [h (n, t) List.mem_cons_self]
    exact ih fun s hs => h s (List.mem_cons_of_mem _ hs)

lemma opensLine_addFirstIn {name contents : Text} {r : List (Text × Text)}
    (h : ∀ s ∈ r, Text.opensLine false s.2 = true) :
    ∀ s ∈ Layout.addFirstIn name contents r, Text.opensLine false s.2 = true := by
  induction r with
  | nil => exact h
  | cons s r ih =>
    obtain ⟨n, t⟩ := s
    have ht := h (n, t) List.mem_cons_self
    have hr := fun s hs => h s (List.mem_cons_of_mem (n, t) hs)
    unfold Layout.addFirstIn
    split_ifs
    · refine List.forall_mem_cons.mpr ⟨?_, hr⟩
      have hne : t ≠ [] := fun he => by simp [he] at ht
      rwa [Text.opensLine_append, Text.opensLine_of_ne_nil hne _ false]
    · exact List.forall_mem_cons.mpr ⟨ht, ih hr⟩

/-- A body that ends its last line still does so after an insertion of a text that ends its own. -/
theorem opensLine_of_insert? (hl : allowed.LetterDigit) {body name contents body' : Text}
    (hn : name ∈ allowed.names) (hbody : Text.opensLine true body = true)
    (hc : Text.opensLine false contents = true)
    (h : allowed.insert? body name contents = some body') : Text.opensLine true body' = true := by
  rw [insert?_eq_layout contents (mem_sections_withHeader hl.findable body hn), Option.some.injEq] at h
  obtain ⟨hpre, hsections⟩ : Text.opensLine true (allowed.layoutFrom 0 true body).preamble = true ∧
      ∀ s ∈ (allowed.layoutFrom 0 true body).sections, Text.opensLine false s.2 = true :=
    opensLine_layoutFrom hbody
  rw [← h, Layout.text, Text.opensLine_append]
  by_cases hm : name ∈ allowed.sections body
  · rw [withHeader_of_mem hm]
    change Text.opensLine (Text.opensLine true (allowed.layout body).preamble) _ = true
    rw [show Text.opensLine true (allowed.layout body).preamble = true from hpre]
    exact opensLine_joined (opensLine_addFirstIn hsections)
  · have hend : body.lineEnd true = [] := if_pos hbody
    have hnames : name ∉ (allowed.layoutFrom 0 true body).sections.map Prod.fst := by
      rwa [sections_eq_layout] at hm
    rw [withHeader_of_not_mem hm, hend, List.append_nil, layout, layoutFrom_append_header hl hn hbody]
    change Text.opensLine (Text.opensLine true (allowed.layoutFrom 0 true body).preamble)
      (Layout.joined (Layout.addFirstIn name contents _)) = true
    rw [hpre, Layout.addFirstIn_concat contents [] hnames, List.append_nil]
    refine opensLine_joined fun s hs => ?_
    rcases List.mem_append.mp hs with hs | hs
    · exact hsections s hs
    · rw [List.mem_singleton.mp hs]
      exact hc

end AllowList
end TemplateSplice
