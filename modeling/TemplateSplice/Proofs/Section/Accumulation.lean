import TemplateSplice.Proofs.Merge.Steps
import TemplateSplice.Proofs.Section.Place

/-! Insertions under one name, one after another. Contents go right after the first header of their name,
and whatever they hold, that header stays the first one of its name; so what comes in later stands before
what came in earlier, as if both had come in at once. -/
namespace TemplateSplice
namespace AllowList

variable {allowed : AllowList} {before name rest : Text}

lemma firstHeader?_append {headers headers' : List Header} (h : name ∉ headers.map Header.name) :
    firstHeader? name (headers ++ headers') = firstHeader? name headers' := by
  induction headers with
  | nil => rfl
  | cons header headers ih =>
    rw [List.map_cons, List.mem_cons, not_or] at h
    rw [List.cons_append, firstHeader?, if_neg (Ne.symm h.1)]
    exact ih h.2

/-- A body is cut in front of the rest of a line that starts with a header, the first one of its name. -/
structure FirstCut (allowed : AllowList) (before name : Text) : Prop where
  named : name ∈ allowed.names
  opens : Text.opensLine true before = true
  first : name ∉ allowed.sections before

/-- The first header of a name is found where it is written, whatever comes after it. -/
lemma FirstCut.exists_firstHeader? (h : allowed.FirstCut before name) (hl : allowed.LetterDigit) (rest : Text) :
    ∃ next, firstHeader? name (allowed.headers (before ++ (headerText name ++ rest))) =
      some (⟨name, before.length, before.length + name.length + 1⟩, next) := by
  have hfound := nameAt?_headerText hl.colonFree h.named rest
  have hheaders : allowed.headers (before ++ (headerText name ++ rest)) =
      allowed.headers before ++ ⟨name, before.length, before.length + name.length + 1⟩ ::
        allowed.headersFrom (before.length + name.length + 1) 0 false rest := by
    rw [headers, headersFrom_append hl 0 (.inr h.opens), h.opens, headersFrom_header _ hfound,
      Nat.zero_add, headers]
  rw [hheaders, firstHeader?_append h.first]
  exact ⟨_, if_pos rfl⟩

/-- Contents go in right after the first header of their name. -/
lemma FirstCut.insert?_eq (h : allowed.FirstCut before name) (hl : allowed.LetterDigit)
    (contents rest : Text) :
    allowed.insert? (before ++ (headerText name ++ rest)) name contents =
      some (before ++ (headerText name ++ (contents ++ rest))) := by
  obtain ⟨next, hnext⟩ := h.exists_firstHeader? hl rest
  have hmem : name ∈ allowed.sections (before ++ (headerText name ++ rest)) := by
    have hheader := (firstHeader?_eq_some hnext).1
    exact List.mem_map.mpr ⟨_, hheader, rfl⟩
  have hstop : before.length + name.length + 1 = (before ++ headerText name).length := by
    rw [List.length_append, length_headerText, Nat.add_assoc]
  simp only [insert?, withHeader_of_mem hmem, hnext, Option.map_some]
  rw [hstop, ← List.append_assoc before, Text.splice, List.take_left, List.drop_left]
  simp

/-- A name that is found somewhere is found there for a first time. -/
lemma exists_firstCut_of_mem_scan (hc : allowed.ColonFree) {b : Bool} {t : Text}
    (h : name ∈ allowed.scan b t) :
    ∃ before rest, t = before ++ (headerText name ++ rest) ∧ name ∈ allowed.names ∧
      Text.opensLine b before = true ∧ name ∉ allowed.scan b before := by
  induction b, t using allowed.scan_induction with
  | nil b => simp at h
  | plain b c r hn ih =>
    rw [scan_plain hn] at h
    obtain ⟨before, rest, rfl, hname, hopens, hfirst⟩ := ih h
    refine ⟨c :: before, rest, rfl, hname, by rwa [Text.opensLine_cons], ?_⟩
    -- A shorter text completes no header that the longer one does not.
    have hn' : b = true → allowed.nameAt? (c :: before) = none := fun hb =>
      nameAt?_eq_none_iff.mpr fun name' hname' hp =>
        nameAt?_eq_none_iff.mp (hn hb) name' hname' (hp.trans (List.prefix_append (c :: before) _))
    rwa [scan_plain hn']
  | header name' u hn ih =>
    have hname' := mem_names_of_nameAt? hn
    by_cases he : name = name'
    · subst he
      exact ⟨[], u, rfl, hname', rfl, by simp⟩
    · rw [scan_header hn, List.mem_cons] at h
      obtain ⟨before, rest, rfl, hname, hopens, hfirst⟩ := ih (h.resolve_left he)
      refine ⟨headerText name' ++ before, rest, by simp, hname, by simpa using hopens, ?_⟩
      rw [scan_header (nameAt?_headerText hc hname' before), List.mem_cons, not_or]
      exact ⟨he, hfirst⟩

/-- A body with a header for an allowed name is cut at the first one: at the one that it has, or at the
bare one added at its end. -/
lemma exists_firstCut (hl : allowed.LetterDigit) (body : Text) (hn : name ∈ allowed.names) :
    ∃ before rest, allowed.withHeader body name = before ++ (headerText name ++ rest) ∧
      allowed.FirstCut before name := by
  by_cases hm : name ∈ allowed.sections body
  · obtain ⟨before, rest, hbody, -, hopens, hfirst⟩ := exists_firstCut_of_mem_scan hl.colonFree hm
    exact ⟨before, rest, by rw [withHeader_of_mem hm, hbody], hn, hopens, hfirst⟩
  · refine ⟨body ++ body.lineEnd true, [], by rw [withHeader_of_not_mem hm]; simp, hn,
      Text.opensLine_append_lineEnd true body, ?_⟩
    rwa [sections_eq_scan, scan_append_of_no_colon true body (Text.colon_not_mem_lineEnd true body)]

lemma insert?_withHeader (hl : allowed.LetterDigit) (body contents : Text) (hn : name ∈ allowed.names) :
    allowed.insert? (allowed.withHeader body name) name contents = allowed.insert? body name contents := by
  have hm := mem_sections_withHeader hl.findable body hn
  rw [insert?, withHeader_of_mem hm, insert?]

end AllowList

namespace Merge

variable {allowed : AllowList} {name : Text}

lemma addTo_eq_error (hn : name ∉ allowed.names) (body contents : Text) :
    addTo allowed body name contents = .error (.sectionMissing name none) := by
  unfold addTo
  cases h : allowed.insert? body name contents with
  | none => rfl
  | some body' =>
    obtain ⟨_, _, -, -, -, hname⟩ := AllowList.exists_of_insert? h
    exact absurd hname hn

end Merge

/-- Contents come in right after the first header of an allowed name, at a place of the body that does not
depend on them; so a second insertion puts its contents before those of the first one. No insertion under an
allowed name fails, and every insertion under another name does. -/
theorem insertions_accumulate (allowed : AllowList) (hl : allowed.LetterDigit) (body name : Text) :
    (name ∈ allowed.names →
      (∃ before rest, allowed.withHeader body name = before ++ (AllowList.headerText name ++ rest) ∧
        name ∉ allowed.sections before ∧
        ∀ contents, Merge.addTo allowed body name contents =
          .ok (before ++ (AllowList.headerText name ++ (contents ++ rest)))) ∧
      ∀ first second,
        (Merge.addTo allowed body name first).bind (Merge.addTo allowed · name second) =
          Merge.addTo allowed body name (second ++ first)) ∧
    (name ∉ allowed.names →
      ∀ contents, Merge.addTo allowed body name contents = .error (.sectionMissing name none)) := by
  refine ⟨fun hn => ?_, fun hn => Merge.addTo_eq_error hn body⟩
  obtain ⟨before, rest, hbody, hcut⟩ := AllowList.exists_firstCut hl body hn
  have hadd : ∀ contents, Merge.addTo allowed body name contents =
      .ok (before ++ (AllowList.headerText name ++ (contents ++ rest))) := fun contents => by
    rw [Merge.addTo_eq_ok, ← AllowList.insert?_withHeader hl body contents hn, hbody]
    exact hcut.insert?_eq hl contents rest
  refine ⟨⟨before, rest, hbody, hcut.first, hadd⟩, fun first second => ?_⟩
  have hagain : Merge.addTo allowed (before ++ (AllowList.headerText name ++ (first ++ rest))) name second =
      .ok (before ++ (AllowList.headerText name ++ (second ++ (first ++ rest)))) :=
    Merge.addTo_eq_ok.mpr (hcut.insert?_eq hl second (first ++ rest))
  rw [hadd, hadd, List.append_assoc]
  exact hagain

/-- Contents that hold a header and a marker come in under a name that is missing, and other contents under a
name that is not allowed. -/
theorem insertions_accumulate_missing :
    Rules.sample.allowed.LetterDigit ∧
      (Merge.addTo Rules.sample.allowed "P: 1".toList "Q".toList "\nQ: 2\n# @import b".toList).bind
          (Merge.addTo Rules.sample.allowed · "Q".toList " 3\nP:\n".toList) =
        .ok "P: 1\nQ: 3\nP:\n\nQ: 2\n# @import b".toList ∧
      Merge.addTo Rules.sample.allowed "P: 1".toList "S".toList "\n".toList =
        .error (.sectionMissing "S".toList none) := by
  have hl : Rules.sample.allowed.LetterDigit := by decide
  obtain ⟨hallowed, -⟩ := insertions_accumulate Rules.sample.allowed hl "P: 1".toList "Q".toList
  obtain ⟨-, hother⟩ := insertions_accumulate Rules.sample.allowed hl "P: 1".toList "S".toList
  obtain ⟨-, hboth⟩ := hallowed (by decide)
  refine ⟨hl, ?_, hother (by decide) _⟩
  rw [hboth, Merge.addTo_eq_ok]
  decide +kernel

end TemplateSplice
