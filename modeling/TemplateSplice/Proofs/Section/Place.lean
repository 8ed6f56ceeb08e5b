import TemplateSplice.Proofs.Section.Insertion

/-! Where an insertion goes. It cuts its body right after a header that stands at the start of a
line, whatever the names are. There always is such a header unless one that starts earlier can run over
the start of its line, which no header of letter-digit names can; so an insertion under an allowed name
never fails. -/
namespace TemplateSplice

lemma Text.slice_middle (before middle rest : Text) :
    (before ++ (middle ++ rest)).slice before.length (before.length + middle.length) = middle := by
  rw [slice, ← List.append_assoc, ← List.length_append, List.take_left, List.drop_left]

namespace AllowList

variable {allowed : AllowList}

/-- A header stands in its body as it was found, at the start of a line. -/
lemma exists_of_mem_headersFrom {p : Nat} {b : Bool} {t : Text} {h : Header}
    (hm : h ∈ allowed.headersFrom p 0 b t) :
    ∃ before rest, t = before ++ (headerText h.name ++ rest) ∧ h.start = p + before.length ∧
      h.stop = p + (before ++ headerText h.name).length ∧ Text.opensLine b before = true ∧
      h.name ∈ allowed.names := by
  induction b, t using allowed.scan_induction generalizing p with
  | nil b => simp [headersFrom] at hm
  | plain b c r hn ih =>
    rw [headersFrom_plain p hn] at hm
    obtain ⟨before, rest, rfl, hstart, hstop, hopens, hname⟩ := ih hm
    refine ⟨c :: before, rest, rfl, ?_, ?_, by rwa [Text.opensLine_cons], hname⟩
    · rw [hstart, List.length_cons]
      omega
    · rw [hstop, List.cons_append, List.length_cons]
      omega
  | header name u hn ih =>
    rw [headersFrom_header p hn] at hm
    rcases List.mem_cons.mp hm with rfl | hm
    · exact ⟨[], u, rfl, rfl, by simp [Nat.add_assoc], rfl, mem_names_of_nameAt? hn⟩
    · obtain ⟨before, rest, rfl, hstart, hstop, hopens, hname⟩ := ih hm
      refine ⟨headerText name ++ before, rest, by simp, ?_, ?_, by simpa using hopens, hname⟩
      · rw [hstart, List.length_append, length_headerText]
        omega
      · simp only [hstop, List.length_append, length_headerText]
        omega

/-- A header is its name and a colon wherever it is found. -/
lemma slice_of_mem_headers {body : Text} {header : Header} (h : header ∈ allowed.headers body) :
    body.slice header.start header.stop = headerText header.name ∧ header.name ∈ allowed.names := by
  obtain ⟨before, rest, rfl, hstart, hstop, -, hname⟩ := exists_of_mem_headersFrom h
  rw [Nat.zero_add] at hstart
  rw [Nat.zero_add, List.length_append] at hstop
  rw [hstart, hstop, Text.slice_middle]
  exact ⟨rfl, hname⟩

/-- A header ends before the next one starts. -/
lemma pairwise_headersFrom (p : Nat) (b : Bool) (t : Text) :
    (allowed.headersFrom p 0 b t).Pairwise fun h h' => h.stop ≤ h'.start := by
  induction b, t using allowed.scan_induction generalizing p with
  | nil b => simp [headersFrom]
  | plain b c r hn ih =>
    rw [headersFrom_plain p hn]
    exact ih (p + 1)
  | header name u hn ih =>
    rw [headersFrom_header p hn]
    refine List.pairwise_cons.mpr ⟨fun h' hm => ?_, ih _⟩
    obtain ⟨before, rest, -, hstart, -⟩ := exists_of_mem_headersFrom hm
    rw [hstart]
    exact Nat.le_add_right _ _

lemma mem_names_of_mem_sections {body name : Text} (h : name ∈ allowed.sections body) :
    name ∈ allowed.names := by
  obtain ⟨header, hm, rfl⟩ := List.mem_map.mp h
  obtain ⟨_, _, _, _, _, _, hn⟩ := exists_of_mem_headersFrom hm
  exact hn

lemma firstHeader?_eq_some {name : Text} {headers : List Header} {h : Header} {next : Option Nat}
    (hf : firstHeader? name headers = some (h, next)) : h ∈ headers ∧ h.name = name := by
  induction headers with
  | nil => simp [firstHeader?] at hf
  | cons h' headers ih =>
    unfold firstHeader? at hf
    split_ifs at hf with hn
    · cases hf
      exact ⟨List.mem_cons_self, hn⟩
    · obtain ⟨hm, hn'⟩ := ih hf
      exact ⟨List.mem_cons_of_mem h' hm, hn'⟩

/-- An insertion that succeeds puts its contents between a header of its name and what follows that
header in the body. -/
theorem exists_of_insert? {body name contents body' : Text}
    (h : allowed.insert? body name contents = some body') :
    ∃ before rest, allowed.withHeader body name = before ++ (headerText name ++ rest) ∧
      body' = before ++ (headerText name ++ (contents ++ rest)) ∧
      Text.opensLine true before = true ∧ name ∈ allowed.names := by
  obtain ⟨⟨header, next⟩, hf, hbody⟩ := Option.map_eq_some_iff.mp h
  obtain ⟨hm, rfl⟩ := firstHeader?_eq_some hf
  obtain ⟨before, rest, hb, _, hstop, hopens, hname⟩ := exists_of_mem_headersFrom hm
  refine ⟨before, rest, hb, ?_, hopens, hname⟩
  rw [Nat.zero_add] at hstop
  rw [← hbody, hb]
  change Text.splice _ header.stop header.stop contents = _
  rw [hstop, ← List.append_assoc before, Text.splice, List.take_left, List.drop_left]
  simp

/-- A header that is written on a line of its own is found there, whatever the lines before are: the names
hold no colon, and what a header has past a line feed is not what another one starts with. -/
structure Findable (allowed : AllowList) : Prop where
  colonFree : allowed.ColonFree
  seams : ∀ name ∈ allowed.names, ∀ name' ∈ allowed.names, ∀ front back,
    headerText name = front ++ '\n' :: back → ¬ back <+: headerText name'

lemma LetterDigit.findable (h : allowed.LetterDigit) : allowed.Findable where
  colonFree := h.colonFree
  seams name hn _ _ front back he := absurd (by rw [he]; simp) (h.newline_not_mem hn)

/-- A header on a line of its own completes no header of the lines before. -/
lemma nameAt?_append_headerText (hf : allowed.Findable) {b : Bool} {t name : Text} (ht : t ≠ [])
    (hopens : Text.opensLine b t = true) (hn : name ∈ allowed.names) :
    allowed.nameAt? (t ++ headerText name) = allowed.nameAt? t := by
  apply nameAt?_congr
  intro name' hn'
  refine ⟨fun hp => prefix_of_prefix_append hp ?_, fun hp => hp.trans (List.prefix_append t _)⟩
  intro v _ he hv
  rw [Text.opensLine_of_ne_nil ht b false] at hopens
  obtain ⟨front, rfl⟩ := List.getLast?_eq_some_iff.mp (Text.getLast?_of_opensLine hopens)
  exact hf.seams name' hn' name hn front v (by simpa using he) hv

/-- The scan of lines and a header on a line of its own finds that header after those of the lines. -/
lemma scan_append_headerText (hf : allowed.Findable) {b : Bool} {t name : Text}
    (hopens : Text.opensLine b t = true) (hn : name ∈ allowed.names) :
    allowed.scan b (t ++ headerText name) = allowed.scan b t ++ [name] := by
  induction b, t using allowed.scan_induction with
  | nil b =>
    obtain rfl : b = true := hopens
    have hfound : allowed.nameAt? (headerText name ++ []) = some name :=
      nameAt?_headerText hf.colonFree hn []
    simpa using scan_header hfound
  | plain b c r hp ih =>
    have hp' : b = true → allowed.nameAt? (c :: (r ++ headerText name)) = none := fun hb => by
      rw [← List.cons_append, nameAt?_append_headerText hf (List.cons_ne_nil c r) hopens hn, hp hb]
    rw [Text.opensLine_cons] at hopens
    rw [List.cons_append, scan_plain hp', scan_plain hp, ih hopens]
  | header name' v hn' ih =>
    have hn'' : allowed.nameAt? (headerText name' ++ (v ++ headerText name)) = some name' := by
      rw [← List.append_assoc, nameAt?_append_headerText hf (by simp [headerText]) hopens hn, hn']
    rw [Text.opensLine_append, opensLine_headerText] at hopens
    rw [List.append_assoc, scan_header hn'', scan_header hn', ih hopens, List.cons_append]

lemma mem_sections_withHeader (hf : allowed.Findable) (body : Text) {name : Text}
    (hn : name ∈ allowed.names) : name ∈ allowed.sections (allowed.withHeader body name) := by
  by_cases hm : name ∈ allowed.sections body
  · rwa [withHeader_of_mem hm]
  · have hopens : Text.opensLine true (body ++ body.lineEnd true) = true :=
      Text.opensLine_append_lineEnd true body
    rw [withHeader_of_not_mem hm, sections_eq_scan, scan_append_headerText hf hopens hn]
    simp

/-- An insertion under an allowed name never fails. -/
theorem exists_insert? (hf : allowed.Findable) (body contents : Text) {name : Text}
    (hn : name ∈ allowed.names) : ∃ body', allowed.insert? body name contents = some body' :=
  ⟨_, insert?_eq_layout contents (mem_sections_withHeader hf body hn)⟩

end AllowList
end TemplateSplice
