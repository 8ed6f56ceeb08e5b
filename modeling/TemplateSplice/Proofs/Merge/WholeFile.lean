import TemplateSplice.Proofs.Merge.Steps
import TemplateSplice.Proofs.Section.Growth

/-! The whole-file pass in closed form, over templates whose headers stand apart from what follows
them. -/
namespace TemplateSplice

lemma toNat_of_isHeaderChar {c : Char} (h : isHeaderChar c = true) :
    0x30 ≤ c.toNat ∧ c.toNat ≤ 0x7A := by
  change ((decide (c.val ≥ 'A'.val ∧ c.val ≤ 'Z'.val) || (c.val ≥ 'a'.val && c.val ≤ 'z'.val) ||
    (c.val ≥ '0'.val && c.val ≤ '9'.val)) || c == ':') = true at h
  simp only [UInt32.le_iff_toNat_le, Bool.or_eq_true, Bool.and_eq_true, decide_eq_true_eq,
    beq_iff_eq, ge_iff_le, Char.toNat_val] at h
  rcases h with h | rfl
  · simp at h
    omega
  · decide

lemma not_isHeaderChar_of_isBlank {c : Char} (h : isBlank c = true) : isHeaderChar c = false := by
  by_contra hc
  obtain ⟨hlow, hhigh⟩ := toNat_of_isHeaderChar (by simpa using hc)
  simp [isBlank] at h
  omega

namespace AllowList

variable {allowed : AllowList}

/-- Inserting into the text of a settled layout one text after the other is inserting into the
layout, which stays settled. -/
theorem Settled.insertAll? (hl : allowed.LetterDigit) {l : Layout} (h : allowed.Settled l)
    {cs : List (Text × Text)} (hcs : ∀ c ∈ cs, allowed.Fits c) :
    allowed.insertAll? l.text cs = some (l.insertAll cs).text ∧
      allowed.Settled (l.insertAll cs) := by
  induction cs generalizing l with
  | nil => exact ⟨rfl, h⟩
  | cons c cs ih =>
    have hc := hcs c List.mem_cons_self
    obtain ⟨he, hs⟩ := ih (h.insert hl hc) fun d hd => hcs d (List.mem_cons_of_mem c hd)
    refine ⟨?_, hs⟩
    rw [AllowList.insertAll?, List.foldlM_cons]
    change (allowed.insert? l.text c.1 c.2).bind _ = _
    rw [h.insert?_text hl c.2 hc.named]
    exact he

@[simp] lemma map_fst_contributions (document : Text) :
    (allowed.contributions document).map Prod.fst = allowed.sections document := by
  rw [contributions, List.map_map]
  exact List.map_id _

lemma mem_of_lookup {r : List (Text × Text)} {name t : Text} (h : r.lookup name = some t) :
    (name, t) ∈ r := by
  obtain ⟨r₁, r₂, rfl, _⟩ := List.lookup_eq_some_iff.mp h
  simp

/-- A template has a text for each of its names and for no other. -/
lemma isSome_section?_iff {document name : Text} :
    (allowed.section? document name).isSome = true ↔ name ∈ allowed.sections document := by
  rw [section?_eq_lookup, sections_eq_layout, List.lookup_isSome_iff, Layout.names, List.mem_map]
  simp only [beq_iff_eq, eq_comm (a := name)]

/-- What a template adds to others holds no header and stands apart from the header before it. -/
lemma Spaced.of_mem_contributions {p : Char → Bool}
    (hp : ∀ c, p c = true → isHeaderChar c = false) {document : Text}
    (h : allowed.Spaced p document) {c : Text × Text} (hc : c ∈ allowed.contributions document) :
    allowed.Fits c := by
  obtain ⟨name, hn, rfl⟩ := List.mem_map.mp hc
  obtain ⟨t, ht⟩ := Option.isSome_iff_exists.mp (isSome_section?_iff.mpr hn)
  rw [ht]
  rw [section?_eq_lookup] at ht
  exact (h.chain hp).of_mem (mem_of_lookup ht)

/-- A template without repeated headers adds one text of each of its names. -/
lemma stacked_contributions {document : Text} (h : (allowed.sections document).Nodup)
    (name : Text) : Layout.stacked (allowed.contributions document) name =
      (allowed.section? document name).getD [] := by
  by_cases hn : name ∈ allowed.sections document
  · unfold Layout.stacked contributions
    rw [List.filter_map]
    change (List.map _ ((allowed.sections document).filter (· = name))).reverse.flatMap _ = _
    rw [List.filter_eq, h.count, if_pos hn]
    simp
  · rw [Layout.stacked_of_not_mem (by simpa using hn)]
    rw [← isSome_section?_iff, Option.not_isSome_iff_eq_none] at hn
    rw [hn]
    rfl

lemma stacked_flatMap_contributions {documents : List Text}
    (h : ∀ d ∈ documents, (allowed.sections d).Nodup) (name : Text) :
    Layout.stacked (documents.flatMap allowed.contributions) name =
      documents.reverse.flatMap fun d => (allowed.section? d name).getD [] := by
  induction documents with
  | nil => rfl
  | cons d documents ih =>
    rw [List.flatMap_cons, Layout.stacked_append, stacked_contributions (h d List.mem_cons_self),
      ih fun d' hd' => h d' (List.mem_cons_of_mem d hd')]
    simp

end AllowList

namespace Merge

variable {s : Shelf} {rules : Rules} {root : Template}

lemma exists_gives_load {resource : Text} (h : (s.get? (root.target resource)).isSome = true)
    (t : Trail) : ∃ t', Gives (s.access.load root resource) t
      ⟨s.text (root.target resource), root.target resource⟩ t' :=
  s.outcome.load (Shelf.outcome_holds h) (s.outcome_read _) t

lemma addSections_of_insertAll? {allowed : AllowList} {imported : Template} {body body' : Text}
    {names : List Text} (hn : ∀ name ∈ names, name ∈ allowed.sections imported.body)
    (h : allowed.insertAll? body (names.map fun name =>
      (name, (allowed.section? imported.body name).getD [])) = some body') :
    addSections allowed imported body names = .ok body' := by
  induction names generalizing body with
  | nil =>
    cases h
    rfl
  | cons name names ih =>
    obtain ⟨contents, hc⟩ := Option.isSome_iff_exists.mp
      (AllowList.isSome_section?_iff.mpr (hn name List.mem_cons_self))
    rw [List.map_cons, hc] at h
    obtain ⟨body₁, h₁, h⟩ := Option.bind_eq_some_iff.mp h
    rw [addSections, sectionOf_eq_ok.mpr hc]
    change (addTo allowed body name contents >>= _) = _
    rw [addTo_eq_ok.mpr (by exact h₁)]
    exact ih (fun n hn' => hn n (List.mem_cons_of_mem name hn')) h

lemma wholeFilePath_of_strip {style : MarkerStyle} {resource : Text} (h : resource.strip ≠ [])
    (source : Option Text) : wholeFilePath style resource source = .ok resource.strip := by
  unfold wholeFilePath MarkerStyle.wholeFilePath
  cases hp : resource.strip with
  | nil => exact absurd hp h
  | cons c r => rfl

/-- The texts that whole-file markers of a template bring in, in order. -/
def documents (s : Shelf) (root : Template) (markers : List Marker) : List Text :=
  markers.map fun marker => s.text (root.target marker.resource.strip)

/-- The whole-file pass inserts what its documents add. -/
lemma insertAll?_of_wholeFilePass {body body' : Text} {markers : List Marker}
    {imports : List AppliedImport} {t t' : Trail}
    (h : Gives (wholeFilePass s.access rules root body markers) t (body', imports) t') :
    rules.allowed.insertAll? body
      ((documents s root markers).flatMap rules.allowed.contributions) = some body' := by
  obtain ⟨rfl, _, hi, _⟩ := gives_wholeFilePass h
  rw [← hi]
  simp [documents, List.flatMap_map, wholeImport]

/-- Over settled layouts nothing but a marker that refers to no template stops the whole-file
pass. -/
lemma exists_gives_wholeFilePass (hl : rules.allowed.LetterDigit) {l : Layout}
    (h : rules.allowed.Settled l) {markers : List Marker}
    (hm : ∀ marker ∈ markers, Refers s root marker)
    (hd : ∀ d ∈ documents s root markers, ∀ c ∈ rules.allowed.contributions d, rules.allowed.Fits c)
    (t : Trail) :
    ∃ r t', Gives (wholeFilePass s.access rules root l.text markers) t r t' := by
  induction markers generalizing l t with
  | nil => exact ⟨(l.text, []), t, rfl⟩
  | cons marker markers ih =>
    obtain ⟨hp, hs⟩ := hm marker List.mem_cons_self
    obtain ⟨u, hu⟩ := exists_gives_load hs t
    obtain ⟨hi, hl'⟩ := h.insertAll? hl (hd _ List.mem_cons_self)
    have hr := ih hl' (fun m hm' => hm m (List.mem_cons_of_mem marker hm'))
      (fun d hd' => hd d (List.mem_cons_of_mem _ hd'))
    have ha : addSections rules.allowed ⟨_, root.target marker.resource.strip⟩ l.text _ = .ok _ :=
      addSections_of_insertAll? (fun _ hn => hn) hi
    refine exists_gives_bind ((gives_lift _ _).mpr ⟨wholeFilePath_of_strip hp _, rfl⟩)
      (exists_gives_bind hu (exists_gives_bind ((gives_lift _ _).mpr ⟨ha, rfl⟩)
        (exists_gives_bind (a := ()) ((gives_note _ _).mpr rfl) ?_)))
    obtain ⟨⟨body, imports⟩, t', hr⟩ := hr _
    exact ⟨_, t', gives_bind.mpr ⟨_, _, hr, rfl⟩⟩

/-- The whole-file pass over well-spaced templates inserts the sections of its documents into the
layout of the body. -/
theorem layout_of_wholeFilePass (hl : rules.allowed.LetterDigit) {p : Char → Bool}
    (hp : ∀ c, p c = true → isHeaderChar c = false) {body body' : Text} {markers : List Marker}
    {imports : List AppliedImport} {t t' : Trail} (hb : rules.allowed.Spaced p body)
    (hd : ∀ d ∈ documents s root markers, rules.allowed.Spaced p d)
    (h : Gives (wholeFilePass s.access rules root body markers) t (body', imports) t') :
    rules.allowed.layout body' = (rules.allowed.layout body).insertAll
        ((documents s root markers).flatMap rules.allowed.contributions) ∧
      rules.allowed.Settled (rules.allowed.layout body') := by
  have hs : rules.allowed.Settled (rules.allowed.layout body) := hb.chain hp
  have hcs : ∀ c ∈ (documents s root markers).flatMap rules.allowed.contributions,
      rules.allowed.Fits c := fun c hc => by
    obtain ⟨d, hd', hc⟩ := List.mem_flatMap.mp hc
    exact (hd d hd').of_mem_contributions hp hc
  obtain ⟨hi', hs'⟩ := hs.insertAll? hl hcs
  rw [AllowList.text_layout, insertAll?_of_wholeFilePass h, Option.some.injEq] at hi'
  rw [hi', hs'.layout_text hl]
  exact ⟨rfl, hs'⟩

end Merge

/-- The whole-file pass in closed form, for letter-digit names, a well-spaced body and well-spaced
templates none of which repeats a header. It succeeds exactly if every whole-file marker refers to
a template. Then the new sections stand at the end, in the order in which their names first come.
The first section of a name holds what came in under the name, the last template first, then what it
held before, and then a line feed exactly if an empty section was added right after it while its
text, as it was then, did not end in one. Nothing else changes: the text before the first header and
the sections that repeat a name are the same up to such a line feed. -/
theorem wholeFiles_closed_form (s : Shelf) (rules : Rules) (root : Template) (t : Trail)
    (hl : rules.allowed.LetterDigit) (hroot : rules.allowed.Spaced isBlank root.body)
    (hd : ∀ d ∈ Merge.documents s root (rules.style.wholeFileMarkers root.body),
      rules.allowed.Spaced isBlank d ∧ (rules.allowed.sections d).Nodup) :
    ((∃ r t', Merge.Gives (Merge.wholeFiles s.access rules root) t r t') ↔
      ∀ marker ∈ rules.style.wholeFileMarkers root.body, Merge.Refers s root marker) ∧
    ∀ body imports t', Merge.Gives (Merge.wholeFiles s.access rules root) t (body, imports) t' →
      let allowed := rules.allowed
      let documents := Merge.documents s root (rules.style.wholeFileMarkers root.body)
      let incoming := documents.flatMap allowed.contributions
      let old := allowed.sections root.body
      let names := allowed.sections body
      names = old ++ ((incoming.map Prod.fst).filter (· ∉ old)).eraseDups ∧
      (∀ i name, names[i]? = some name → name ∉ names.take i →
        let own := (allowed.section? root.body name).getD []
        allowed.section? body name = some
          ((documents.reverse.flatMap fun d => (allowed.section? d name).getD []) ++ own ++
            Layout.lineEndBefore old incoming (fun cs => Layout.stacked cs name ++ own)
              names[i + 1]?)) ∧
      (∀ i name text, (allowed.layout root.body).sections[i]? = some (name, text) →
        name ∈ old.take i →
          (allowed.layout body).sections[i]? =
            some (name, text ++ Layout.lineEndBefore old incoming (fun _ => text) names[i + 1]?)) ∧
      (allowed.layout body).preamble = (allowed.layout root.body).preamble ++
        if old = [] ∧ incoming ≠ [] then (allowed.layout root.body).preamble.lineEnd true
        else [] := by
  constructor
  · refine ⟨fun ⟨(body, imports), t', h⟩ => (Merge.gives_wholeFilePass h).2.2.2, fun hm => ?_⟩
    have h := Merge.exists_gives_wholeFilePass hl (hroot.chain fun _ => not_isHeaderChar_of_isBlank)
      hm (fun d hd' _ hc => (hd d hd').1.of_mem_contributions
        (fun _ => not_isHeaderChar_of_isBlank) hc) t
    rwa [AllowList.text_layout] at h
  · intro body imports t' h allowed documents incoming old names
    obtain ⟨hlayout, _⟩ := Merge.layout_of_wholeFilePass hl (fun _ => not_isHeaderChar_of_isBlank)
      hroot (fun d hd' => (hd d hd').1) h
    have hnames : names = ((allowed.layout root.body).insertAll incoming).names := by
      rw [← hlayout]
      exact AllowList.sections_eq_layout body
    have hold : old = (allowed.layout root.body).names := AllowList.sections_eq_layout root.body
    refine ⟨?_, fun i name hi hf => ?_, fun i name text hi hr => ?_, ?_⟩
    · rw [hnames, Layout.names_insertAll, hold]
    · intro own
      have hown : own = ((allowed.layout root.body).sections.lookup name).getD [] :=
        congrArg (·.getD []) (AllowList.section?_eq_lookup root.body name)
      rw [hnames] at hi hf ⊢
      have hstacked : Layout.stacked incoming name =
          documents.reverse.flatMap fun d => (allowed.section? d name).getD [] :=
        AllowList.stacked_flatMap_contributions (fun d hd' => (hd d hd').2) name
      rw [AllowList.section?_eq_lookup body, hlayout, Layout.lookup_insertAll _ _ hi hf, hstacked,
        hown, hold]
    · rw [hnames, hlayout, hold]
      exact Layout.getElem?_insertAll_of_repeated _ _ hi (hold ▸ hr)
    · rw [hlayout, Layout.preamble_insertAll, hold]
      split_ifs
      · rfl
      · exact (List.append_nil _).symm

/-- A template that takes in another one and ends in a bare header. -/
def Template.sample : Template := ⟨"# @import b\nP:".toList, .ofText "/c".toList⟩

lemma letterDigit_sample : Rules.sample.allowed.LetterDigit := by decide +kernel

lemma documents_sample :
    ∀ d ∈ Merge.documents Shelf.sample .sample
        (Rules.sample.style.wholeFileMarkers Template.sample.body),
      Rules.sample.allowed.Spaced isBlank d ∧ (Rules.sample.allowed.sections d).Nodup := by
  decide +kernel

theorem wholeFiles_sample :
    ∃ body imports t',
      Merge.Gives (Merge.wholeFiles Shelf.sample.access Rules.sample .sample) .empty
        (body, imports) t' ∧
      Rules.sample.allowed.section? body "P".toList = some " y\n\n".toList := by
  obtain ⟨hsome, hclosed⟩ := wholeFiles_closed_form Shelf.sample Rules.sample .sample .empty
    letterDigit_sample (by decide +kernel) documents_sample
  obtain ⟨⟨body, imports⟩, t', h⟩ := hsome.mpr (by unfold Merge.Refers; decide +kernel)
  obtain ⟨hnames, hfirst, _⟩ := hclosed body imports t' h
  refine ⟨body, imports, t', h, ?_⟩
  have hnames' : Rules.sample.allowed.sections body = ["P".toList, "Q".toList] :=
    hnames.trans (by decide +kernel)
  rw [hnames'] at hfirst
  exact (hfirst 0 "P".toList rfl (by simp)).trans (by decide +kernel)

/-- A line feed can stand after a text that ends its line without it: what counts is the text as it
was when the header after it came, and texts that come later go in front. -/
theorem not_line_feed_only_after_open_line :
    ¬ ∀ (s : Shelf) (rules : Rules) (root : Template) (body : Text) (imports : List AppliedImport)
      (t t' : Trail), rules.allowed.LetterDigit → rules.allowed.Spaced isBlank root.body →
      (∀ d ∈ Merge.documents s root (rules.style.wholeFileMarkers root.body),
        rules.allowed.Spaced isBlank d ∧ (rules.allowed.sections d).Nodup) →
      Merge.Gives (Merge.wholeFiles s.access rules root) t (body, imports) t' →
      ∀ name ∈ rules.allowed.sections body,
        let documents := Merge.documents s root (rules.style.wholeFileMarkers root.body)
        let text := (documents.reverse.flatMap fun d => (rules.allowed.section? d name).getD []) ++
          (rules.allowed.section? root.body name).getD []
        rules.allowed.section? body name = some text ∨
          text.getLast? ≠ some '\n' ∧
            rules.allowed.section? body name = some (text ++ ['\n']) := by
  intro h
  obtain ⟨t', hg⟩ := Merge.exists_gives_of_toOption (t := .empty)
    (x := Merge.wholeFiles Shelf.sample.access Rules.sample .sample)
    (a := ("# @import b\nP: y\n\nQ: 2\n".toList,
      [⟨.wholeFile, "b".toList, .ofText "/b".toList, ["Q".toList, "P".toList]⟩]))
    (by decide +kernel)
  have hp := h _ _ _ _ _ _ _ letterDigit_sample (by decide +kernel) documents_sample hg "P".toList
    (by decide +kernel)
  revert hp
  decide +kernel

end TemplateSplice
