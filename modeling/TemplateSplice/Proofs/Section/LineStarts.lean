import Mathlib.Data.List.Perm.Basic
import TemplateSplice.Proofs.Section.Place

/-! Headers by lines. For letter-digit names a scan finds a header at every start of a line where one is
written and nowhere else; at most one name can stand there with its colon, so the order in which names are
tried does not matter. -/
namespace TemplateSplice

namespace Text

/-- A line starts at a position: at the start of the text, or just after a line feed. -/
def StartsLineAt (t : Text) (p : Nat) : Prop := p = 0 ∨ ∃ q, p = q + 1 ∧ t[q]? = some '\n'

/-- A line starts where a text is cut exactly if the part before the cut opens one. -/
lemma startsLineAt_length_iff (before rest : Text) :
    StartsLineAt (before ++ rest) before.length ↔ opensLine true before = true := by
  rcases List.eq_nil_or_concat before with rfl | ⟨front, c, rfl⟩
  · exact iff_of_true (.inl rfl) rfl
  · simp [StartsLineAt, opensLine]

lemma StartsLineAt.le_length {t : Text} {p : Nat} (h : StartsLineAt t p) : p ≤ t.length := by
  rcases h with rfl | ⟨q, rfl, hq⟩
  · exact Nat.zero_le _
  · obtain ⟨hlt, -⟩ := List.getElem?_eq_some_iff.mp hq
    exact hlt

end Text

namespace AllowList

variable {allowed : AllowList}

/-- A header that is written at the start of a line is found: no header before it runs into its line. -/
lemma mem_headersFrom (hl : allowed.LetterDigit) {b : Bool} {before name : Text} (p : Nat)
    (hopens : Text.opensLine b before = true) (hn : name ∈ allowed.names) (rest : Text) :
    ⟨name, p + before.length, p + before.length + name.length + 1⟩ ∈
      allowed.headersFrom p 0 b (before ++ (headerText name ++ rest)) := by
  generalize ht : before ++ (headerText name ++ rest) = t
  induction b, t using allowed.scan_induction generalizing p before with
  | nil b => simp [headerText] at ht
  | plain b c r hplain ih =>
    cases before with
    | nil =>
      have hnone := hplain hopens
      rw [← ht, List.nil_append, nameAt?_headerText hl.colonFree hn] at hnone
      cases hnone
    | cons d before =>
      obtain ⟨rfl, rfl⟩ := List.cons.inj ht
      rw [Text.opensLine_cons] at hopens
      have hmem := ih (p + 1) hopens rfl
      rw [headersFrom_plain p hplain, List.length_cons]
      rwa [Nat.add_assoc p 1, Nat.add_comm 1] at hmem
  | header name' u hfound ih =>
    rw [headersFrom_header p hfound]
    rcases List.append_eq_append_iff.mp ht with ⟨w, hw, -⟩ | ⟨w, hbefore, hu⟩
    · -- The header found covers the start of the line, so it starts there itself.
      have hnil : before = [] := by
        by_contra hne
        rw [Text.opensLine_of_ne_nil hne true false] at hopens
        have hbreak := List.mem_of_getLast? (Text.getLast?_of_opensLine hopens)
        refine hl.newline_not_mem (mem_names_of_nameAt? hfound) ?_
        rw [hw]
        exact List.mem_append_left w hbreak
      subst hnil
      rw [← ht, List.nil_append, nameAt?_headerText hl.colonFree hn] at hfound
      obtain rfl := Option.some.inj hfound
      exact List.mem_cons_self
    · rw [hbefore, Text.opensLine_append, opensLine_headerText] at hopens
      have hmem := ih (p + name'.length + 1) hopens hu.symm
      rw [hbefore, List.length_append, length_headerText]
      refine List.mem_cons_of_mem _ ?_
      simpa only [Nat.add_assoc, Nat.add_left_comm, Nat.add_comm] using hmem

/-- A header is found exactly if its name stands there with its colon at the start of a line. -/
lemma mem_headers_iff (hl : allowed.LetterDigit) {body : Text} {h : Header} :
    h ∈ allowed.headers body ↔ h.name ∈ allowed.names ∧ body.StartsLineAt h.start ∧
      headerText h.name <+: body.drop h.start ∧ h.stop = h.start + h.name.length + 1 := by
  constructor
  · intro hm
    obtain ⟨before, rest, rfl, hstart, hstop, hopens, hname⟩ := exists_of_mem_headersFrom hm
    rw [Nat.zero_add] at hstart hstop
    rw [hstart, List.drop_left]
    refine ⟨hname, (Text.startsLineAt_length_iff _ _).mpr hopens, List.prefix_append _ _, ?_⟩
    rw [hstop, List.length_append, length_headerText, Nat.add_assoc]
  · rintro ⟨hname, hline, ⟨rest, hrest⟩, hstop⟩
    obtain ⟨name, start, stop⟩ := h
    dsimp only at hname hline hrest hstop
    have hcut : body.take start ++ (headerText name ++ rest) = body := by
      rw [hrest, List.take_append_drop]
    have hlength : (body.take start).length = start := List.length_take_of_le hline.le_length
    have hopens : Text.opensLine true (body.take start) = true := by
      rw [← Text.startsLineAt_length_iff _ (headerText name ++ rest), hcut, hlength]
      exact hline
    have hmem := mem_headersFrom hl 0 hopens hname rest
    rw [hcut, hlength, Nat.zero_add, ← hstop] at hmem
    exact hmem

/-- The headers of a body start one after another. -/
lemma increasing_headers (body : Text) :
    (allowed.headers body).Pairwise fun h h' => h.start < h'.start := by
  refine (pairwise_headersFrom 0 true body).imp_of_mem fun {h h'} hm _ hle => ?_
  obtain ⟨before, _, _, hstart, hstop, -⟩ := exists_of_mem_headersFrom hm
  rw [List.length_append, length_headerText] at hstop
  omega

/-- Headers that start one after another are given by which of them there are. -/
lemma eq_of_increasing {xs ys : List Header} (hx : xs.Pairwise fun h h' => h.start < h'.start)
    (hy : ys.Pairwise fun h h' => h.start < h'.start) (hmem : ∀ h, h ∈ xs ↔ h ∈ ys) : xs = ys := by
  have hnodup : ∀ {zs : List Header}, zs.Pairwise (fun h h' => h.start < h'.start) → zs.Nodup :=
    fun hz => hz.imp fun hlt he => by
      subst he
      exact Nat.lt_irrefl _ hlt
  exact ((List.perm_ext_iff_of_nodup (hnodup hx) (hnodup hy)).mpr hmem).eq_of_pairwise
    (fun _ _ _ _ hlt hgt => absurd hgt (Nat.lt_asymm hlt)) hx hy

end AllowList

/-- For letter-digit names the headers of a body are those written at starts of lines: an allowed name and
its colon, one at most for each start, in increasing order. Names in another order, or listed more often,
give the same headers. -/
theorem headers_at_line_starts (allowed : AllowList) (hl : allowed.LetterDigit) (body : Text) :
    (allowed.headers body).Pairwise (fun h h' => h.start < h'.start) ∧
      (∀ h : Header, h ∈ allowed.headers body ↔ h.name ∈ allowed.names ∧
        body.StartsLineAt h.start ∧ AllowList.headerText h.name <+: body.drop h.start ∧
        h.stop = h.start + h.name.length + 1) ∧
      ∀ other : AllowList, (∀ name, name ∈ other.names ↔ name ∈ allowed.names) →
        other.headers body = allowed.headers body := by
  refine ⟨AllowList.increasing_headers body, fun h => AllowList.mem_headers_iff hl, fun other hsame => ?_⟩
  have hother : other.LetterDigit := fun name hn => hl name ((hsame name).mp hn)
  refine AllowList.eq_of_increasing (AllowList.increasing_headers body)
    (AllowList.increasing_headers body) fun h => ?_
  rw [AllowList.mem_headers_iff hl, AllowList.mem_headers_iff hother, hsame]

/-- An allow-list with a name twice and another name that starts with it. -/
def AllowList.nested : AllowList := ⟨["A".toList, "AB".toList, "A".toList], by simp⟩

/-- A body with headers of both names, and a name that is indented. -/
def nestedBody : Text := "AB: 1\n A:\nA:".toList

theorem headers_at_line_starts_nested :
    AllowList.nested.LetterDigit ∧
      (∀ h : Header, h ∈ [⟨"AB".toList, 0, 3⟩, ⟨"A".toList, 10, 12⟩] ↔
        h.name ∈ AllowList.nested.names ∧ nestedBody.StartsLineAt h.start ∧
        AllowList.headerText h.name <+: nestedBody.drop h.start ∧
        h.stop = h.start + h.name.length + 1) ∧
      AllowList.headers ⟨["AB".toList, "A".toList], by simp⟩ nestedBody =
        [⟨"AB".toList, 0, 3⟩, ⟨"A".toList, 10, 12⟩] := by
  have hl : AllowList.nested.LetterDigit := by decide
  have hheaders : AllowList.nested.headers nestedBody = [⟨"AB".toList, 0, 3⟩, ⟨"A".toList, 10, 12⟩] := by
    decide +kernel
  obtain ⟨-, hmem, hother⟩ := headers_at_line_starts AllowList.nested hl nestedBody
  rw [hheaders] at hmem hother
  refine ⟨hl, hmem, hother _ fun name => ?_⟩
  simp only [AllowList.nested, List.mem_cons, List.not_mem_nil, or_false]
  tauto

end TemplateSplice
