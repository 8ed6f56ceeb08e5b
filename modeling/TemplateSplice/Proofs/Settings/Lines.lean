import TemplateSplice.Proofs.Marker.Scan
import TemplateSplice.Proofs.Merge.Checked

/-! On how many lines the headers and markers of settings stand. The schema lets a line feed follow a name or
a token; and exactly where one does, the scans find headers or markers that stand on two lines. -/
namespace TemplateSplice

/-- Every header stands on one line. -/
def AllowList.OnOneLine (allowed : AllowList) : Prop :=
  ∀ body, ∀ header ∈ allowed.headers body, '\n' ∉ body.slice header.start header.stop

/-- Every marker stands on one line. -/
def MarkerStyle.OnOneLine (style : MarkerStyle) : Prop :=
  ∀ body, ∀ marker ∈ style.markers body, '\n' ∉ body.slice marker.start marker.stop

namespace AllowList

variable {allowed : AllowList}

lemma exists_mem_headers (hc : allowed.ColonFree) {name : Text} (hn : name ∈ allowed.names) :
    ∃ header ∈ allowed.headers (headerText name), header.name = name := by
  have hfound : allowed.nameAt? (headerText name ++ []) = some name := nameAt?_headerText hc hn []
  have hheaders := headersFrom_header 0 hfound
  rw [List.append_nil] at hheaders
  exact ⟨_, by rw [headers, hheaders]; exact List.mem_cons_self, rfl⟩

/-- Headers stand on one line exactly if no name holds a line feed. -/
theorem onOneLine_iff (hc : allowed.ColonFree) :
    allowed.OnOneLine ↔ ∀ name ∈ allowed.names, '\n' ∉ name := by
  constructor
  · intro h name hn hbreak
    obtain ⟨header, hm, rfl⟩ := exists_mem_headers hc hn
    apply h _ header hm
    rw [(slice_of_mem_headers hm).1]
    exact List.mem_append_left _ hbreak
  · intro h body header hm hbreak
    obtain ⟨hslice, hname⟩ := slice_of_mem_headers hm
    rw [hslice] at hbreak
    apply h _ hname
    simpa [headerText] using hbreak

end AllowList

namespace MarkerStyle

variable {style : MarkerStyle}

lemma slice_of_mem_markers {body : Text} {marker : Marker} (h : marker ∈ style.markers body) :
    body.slice marker.start marker.stop = style.opening ++ marker.resource ∧ '\n' ∉ marker.resource := by
  obtain ⟨before, rest, rfl, hstart, htext, -, hends, -⟩ := exists_of_mem_markersFrom h
  rw [Nat.zero_add] at hstart
  rw [Marker.stop, hstart, Text.slice_middle, htext]
  exact ⟨rfl, hends.one_line⟩

/-- A marker for a resource of one letter is found at the start of its body. -/
lemma exists_mem_markers (style : MarkerStyle) :
    ∃ marker ∈ style.markers (style.opening ++ ['x']), marker.text = style.opening ++ ['x'] := by
  have hfound : style.resourceHere? (style.opening ++ ['x'] ++ []) = some ['x'] := by
    unfold resourceHere?
    rw [List.append_nil, if_pos (List.isPrefixOf_iff_prefix.mpr (List.prefix_append _ _)), List.drop_left]
    decide
  have hmarkers := markersFrom_marker 0 hfound
  rw [List.append_nil] at hmarkers
  exact ⟨_, by rw [markers, hmarkers]; exact List.mem_cons_self, rfl⟩

/-- Markers stand on one line exactly if the token holds no line feed. -/
theorem onOneLine_iff : style.OnOneLine ↔ '\n' ∉ style.token := by
  constructor
  · intro h hbreak
    obtain ⟨marker, hm, -⟩ := exists_mem_markers style
    apply h _ marker hm
    rw [(slice_of_mem_markers hm).1]
    simp [opening, hbreak]
  · intro h body marker hm hbreak
    obtain ⟨hslice, hresource⟩ := slice_of_mem_markers hm
    rw [hslice] at hbreak
    rcases List.mem_append.mp hbreak with hbreak | hbreak
    · apply h
      simpa [opening] using hbreak
    · exact hresource hbreak

end MarkerStyle

/-- The names that settings give, if they satisfy the schema, are a letter with letters and digits after it,
and the token is characters of one line of which the last is not blank; but a line feed may follow each of
them. Headers stand on one line exactly if none follows a name, and markers exactly if none follows the
token. -/
theorem one_line_of_accepted_settings (settings : Value) (h : Schema.settings.accepts settings = true) :
    ∃ fields template rules,
      Settings.TemplateFields.ofSettings settings = .ok fields ∧ fields.texts? = some template ∧
      Rules.ofSettings template = .ok rules ∧
      (∀ name ∈ template.sections, ∃ word tail, name = word ++ tail ∧ Pattern.IsName word ∧
        Pattern.AtEnd tail) ∧
      (∃ word tail, template.style.token = word ++ tail ∧ Pattern.IsToken word ∧ Pattern.AtEnd tail) ∧
      (rules.allowed.OnOneLine ↔ ∀ name ∈ template.sections, Pattern.IsName name) ∧
      (rules.style.OnOneLine ↔ Pattern.IsToken template.style.token) := by
  obtain ⟨fields, template, hfields, htexts, hchecked⟩ :=
    Settings.exists_checked (Schema.admits_of_accepts h)
  obtain ⟨rules, hrules, hnames, hfindable, hstyle⟩ := hchecked.exists_rules
  refine ⟨fields, template, rules, hfields, htexts, hrules, ?_, ?_, ?_, ?_⟩
  · intro name hname
    exact Pattern.accepts_name_iff.mp (hchecked.names name hname)
  · exact Pattern.accepts_token_iff.mp hchecked.token
  · rw [AllowList.onOneLine_iff hfindable.colonFree, hnames]
    exact forall₂_congr fun name hname => (Pattern.isName_iff_of_accepts (hchecked.names name hname)).symm
  · rw [MarkerStyle.onOneLine_iff, hstyle]
    exact (Pattern.isToken_iff_of_accepts hchecked.token).symm

theorem one_line_of_bundled_settings :
    ∃ rules, Rules.ofSettings Settings.Template.default = .ok rules ∧
      rules.allowed.OnOneLine ∧ rules.style.OnOneLine := by
  obtain ⟨fields, template, rules, hfields, htexts, hrules, -, -, hnames, htoken⟩ :=
    one_line_of_accepted_settings Settings.bundled (by decide +kernel)
  cases hfields
  cases htexts
  have hclean : ∀ name ∈ Settings.Template.default.sections,
      Pattern.name.accepts name = true ∧ '\n' ∉ name := by decide +kernel
  refine ⟨rules, hrules, hnames.mpr ?_, htoken.mpr ?_⟩
  · intro name hname
    exact (Pattern.isName_iff_of_accepts (hclean name hname).1).mpr (hclean name hname).2
  · exact (Pattern.isToken_iff_of_accepts (by decide)).mpr (by decide)

/-- Settings with a line feed after a name and after the token. -/
def Settings.fed : Value :=
  .object
    [("template", .object
      [("sections", .strings ["A\n"]), ("import_token", .str "x\n"), ("section_delimiter", .str "#"),
       ("encoding", .str "utf-8")]),
     ("output", .object []), ("logging", .object [])]

/-- The schema accepts settings under which a name is not letters and digits only, the token is not on one
line, and headers and markers stand on two lines. -/
theorem not_one_line_of_accepted_settings :
    Schema.settings.accepts Settings.fed = true ∧
      ∃ fields template rules,
        Settings.TemplateFields.ofSettings Settings.fed = .ok fields ∧ fields.texts? = some template ∧
        Rules.ofSettings template = .ok rules ∧
        (∃ name ∈ template.sections, ¬ Pattern.IsName name) ∧ '\n' ∈ template.style.token ∧
        ¬ rules.allowed.OnOneLine ∧ ¬ rules.style.OnOneLine := by
  refine ⟨by decide +kernel, _, _, ⟨⟨["A\n".toList], by simp⟩, ⟨"x\n".toList, "#".toList⟩⟩, rfl, rfl, rfl,
    ⟨"A\n".toList, by simp, ?_⟩, by decide, ?_, ?_⟩
  · intro h
    exact h.newline_not_mem (by decide)
  · intro h
    exact h "A\n:".toList ⟨"A\n".toList, 0, 3⟩ (by decide +kernel) (by decide +kernel)
  · intro h
    exact h "x\n b".toList ⟨"x\n b".toList, "b".toList, 0, .wholeFile⟩ (by decide +kernel)
      (by decide +kernel)

end TemplateSplice
