import Mathlib.Tactic.Lemma
import TemplateSplice.Encoding.Codec
import TemplateSplice.Proofs.Section.Scan

/-! Texts with other line ends. A text goes over into one with a carriage return before its line feeds,
line by line; what holds no line end is the same on both sides. -/
namespace TemplateSplice

/-- The text with a carriage return before every line feed. -/
def Text.returned (t : Text) : Text := t.flatMap fun c => if c = '\n' then ['\r', '\n'] else [c]

/-- The text without the line end that it ends in. -/
def Text.dropLineEnd (t : Text) : Text :=
  match t.reverse with
  | '\n' :: '\r' :: r => r.reverse
  | '\n' :: r => r.reverse
  | _ => t

namespace Text

@[simp] theorem dropLineEnd_nil : dropLineEnd [] = [] := rfl

lemma dropLineEnd_crlf (t : Text) : dropLineEnd (t ++ ['\r', '\n']) = t := by simp [dropLineEnd]

lemma dropLineEnd_lf {t : Text} (h : t.getLast? ≠ some '\r') : dropLineEnd (t ++ ['\n']) = t := by
  rw [← List.head?_reverse] at h
  unfold dropLineEnd
  rw [List.reverse_append]
  cases hr : t.reverse with
  | nil => simp [List.reverse_eq_nil_iff.mp hr]
  | cons c r =>
    rw [hr] at h
    have hc : c ≠ '\r' := by simpa using h
    have ht : t = (c :: r).reverse := by rw [← hr, List.reverse_reverse]
    simp [ht, hc]

lemma exists_dropLineEnd_append (t : Text) : ∃ e, t = t.dropLineEnd ++ e := by
  have ht : t.reverse.reverse = t := List.reverse_reverse t
  unfold dropLineEnd
  split
  · next r hr => exact ⟨['\r', '\n'], by rw [hr] at ht; simp [← ht]⟩
  · next r _ hr => exact ⟨['\n'], by rw [hr] at ht; simp [← ht]⟩
  · exact ⟨[], (List.append_nil t).symm⟩

lemma dropLineEnd_of_ne {t : Text} {c : Char} (h : c ≠ '\n') : dropLineEnd (t ++ [c]) = t ++ [c] := by
  simp [dropLineEnd, h]

end Text

/-- A text with line feeds only, and the same text with carriage returns before them. Some line feeds
may still stand alone if that is allowed. -/
inductive SameLines (lone : Prop) : Text → Text → Prop
  | nil : SameLines lone [] []
  | char {c : Char} {t u : Text} (solid : c ≠ '\r' ∧ c ≠ '\n') (rest : SameLines lone t u) :
      SameLines lone (c :: t) (c :: u)
  | crlf {t u : Text} (rest : SameLines lone t u) : SameLines lone ('\n' :: t) ('\r' :: '\n' :: u)
  | lf {t u : Text} (allowed : lone) (rest : SameLines lone t u) :
      SameLines lone ('\n' :: t) ('\n' :: u)

/-- A text without a line end. -/
def Text.OneLine (t : Text) : Prop := ∀ c ∈ t, c ≠ '\r' ∧ c ≠ '\n'

namespace SameLines

variable {lone : Prop} {t u t' u' : Text}

lemma returned (h : '\r' ∉ t) : SameLines lone t t.returned := by
  induction t with
  | nil => exact .nil
  | cons c t ih =>
    have hc : c ≠ '\r' := fun hc => h (by simp [hc])
    have hrest := ih fun ht => h (List.mem_cons_of_mem c ht)
    by_cases hn : c = '\n'
    · subst hn
      exact .crlf hrest
    · have he : Text.returned (c :: t) = c :: Text.returned t := by simp [Text.returned, hn]
      rw [he]
      exact .char ⟨hc, hn⟩ hrest

lemma eq_returned (h : SameLines False t u) : u = t.returned := by
  induction h with
  | nil => rfl
  | char solid _ ih => simp [Text.returned, solid.2, ih]
  | crlf _ ih => simp [Text.returned, ih]
  | lf allowed => exact allowed.elim

lemma unifyLineEnds (h : SameLines lone t u) : u.unifyLineEnds = t := by
  induction h with
  | nil => rfl
  | char solid _ ih =>
    rw [Text.unifyLineEnds, ih]
    · exact fun _ hc => absurd hc solid.1
    · exact solid.1
  | crlf _ ih => rw [Text.unifyLineEnds, ih]
  | lf _ _ ih =>
    rw [Text.unifyLineEnds, ih]
    · simp
    · simp

lemma append (h : SameLines lone t u) (h' : SameLines lone t' u') :
    SameLines lone (t ++ t') (u ++ u') := by
  induction h with
  | nil => exact h'
  | char solid _ ih => exact .char solid ih
  | crlf _ ih => exact .crlf ih
  | lf allowed _ ih => exact .lf allowed ih

/-- A text that is cut in two is related part by part. -/
lemma exists_of_append (h : SameLines lone (t ++ t') u) :
    ∃ u₁ u₂, u = u₁ ++ u₂ ∧ SameLines lone t u₁ ∧ SameLines lone t' u₂ := by
  induction t generalizing u with
  | nil => exact ⟨[], u, rfl, .nil, h⟩
  | cons c t ih =>
    cases h with
    | char solid rest =>
      obtain ⟨u₁, u₂, rfl, h₁, h₂⟩ := ih rest
      exact ⟨c :: u₁, u₂, rfl, .char solid h₁, h₂⟩
    | crlf rest =>
      obtain ⟨u₁, u₂, rfl, h₁, h₂⟩ := ih rest
      exact ⟨'\r' :: '\n' :: u₁, u₂, rfl, .crlf h₁, h₂⟩
    | lf allowed rest =>
      obtain ⟨u₁, u₂, rfl, h₁, h₂⟩ := ih rest
      exact ⟨'\n' :: u₁, u₂, rfl, .lf allowed h₁, h₂⟩

/-- Related parts in front leave related rests. -/
lemma cancel (h : SameLines lone t u) (h' : SameLines lone (t ++ t') (u ++ u')) :
    SameLines lone t' u' := by
  induction h with
  | nil => exact h'
  | char solid _ ih =>
    cases h' with
    | char _ rest => exact ih rest
    | lf => exact absurd rfl solid.2
  | crlf _ ih =>
    cases h' with
    | crlf rest => exact ih rest
  | lf _ _ ih =>
    cases h' with
    | char solid => exact absurd rfl solid.2
    | lf _ rest => exact ih rest

lemma of_oneLine {o : Text} (ho : o.OneLine) : SameLines lone o o := by
  induction o with
  | nil => exact .nil
  | cons c o ih => exact .char (ho c List.mem_cons_self) (ih fun e he => ho e (List.mem_cons_of_mem c he))

lemma eq_of_oneLine_left {o : Text} (ho : o.OneLine) (h : SameLines lone o u) : u = o := by
  induction h with
  | nil => rfl
  | char _ _ ih => rw [ih fun e he => ho e (List.mem_cons_of_mem _ he)]
  | crlf => exact absurd rfl (ho '\n' List.mem_cons_self).2
  | lf => exact absurd rfl (ho '\n' List.mem_cons_self).2

/-- What holds no line end stands in front of both texts or of neither. -/
lemma prefix_iff {o : Text} (ho : o.OneLine) (h : SameLines lone t u) : o <+: t ↔ o <+: u := by
  induction o generalizing t u with
  | nil => simp
  | cons c o ih =>
    have hc := ho c List.mem_cons_self
    cases h with
    | nil => simp
    | char _ rest =>
      rw [List.cons_prefix_cons, List.cons_prefix_cons,
        ih (fun e he => ho e (List.mem_cons_of_mem c he)) rest]
    | crlf => simp [List.cons_prefix_cons, hc.1, hc.2]
    | lf => simp [List.cons_prefix_cons, hc.2]

/-- The rest after what holds no line end. -/
lemma of_oneLine_append {o : Text} (ho : o.OneLine) (h : SameLines lone (o ++ t) u) :
    ∃ u', u = o ++ u' ∧ SameLines lone t u' := by
  obtain ⟨u₁, u₂, rfl, h₁, h₂⟩ := h.exists_of_append
  rw [eq_of_oneLine_left ho h₁]
  exact ⟨u₂, rfl, h₂⟩

lemma opensLine (h : SameLines lone t u) (b : Bool) : Text.opensLine b t = Text.opensLine b u := by
  induction h generalizing b with
  | nil => rfl
  | char _ _ ih => rw [Text.opensLine_cons, Text.opensLine_cons, ih]
  | crlf _ ih =>
    rw [Text.opensLine_cons, Text.opensLine_cons, Text.opensLine_cons, ih]
  | lf _ _ ih => rw [Text.opensLine_cons, Text.opensLine_cons, ih]

lemma return_not_mem (h : SameLines lone t u) : '\r' ∉ t := by
  induction h with
  | nil => simp
  | char solid _ ih => simp [ih, solid.1.symm]
  | crlf _ ih => simp [ih]
  | lf _ _ ih => simp [ih]

/-- No line end is cut in two. -/
lemma getLast?_ne_return (h : SameLines lone t u) : u.getLast? ≠ some '\r' := by
  induction h with
  | nil => simp
  | @char c t u solid rest ih =>
    cases u with
    | nil => simpa using solid.1
    | cons e u => simpa using ih
  | @crlf t u rest ih =>
    cases u with
    | nil => simp
    | cons e u => simpa using ih
  | @lf t u allowed rest ih =>
    cases u with
    | nil => simp
    | cons e u => simpa using ih

/-- Related texts without the line ends that they end in. -/
lemma dropLineEnd (h : SameLines lone t u) : SameLines lone t.dropLineEnd u.dropLineEnd := by
  cases ht : t.getLast? with
  | none =>
    rw [List.getLast?_eq_none_iff.mp ht] at h ⊢
    cases h
    exact .nil
  | some c =>
    obtain ⟨t, rfl⟩ := List.getLast?_eq_some_iff.mp ht
    obtain ⟨u, e, rfl, hu, he⟩ := h.exists_of_append
    have hlast : t.getLast? ≠ some '\r' := fun hr => hu.return_not_mem (List.mem_of_getLast? hr)
    cases he with
    | char solid rest =>
      cases rest
      rwa [Text.dropLineEnd_of_ne solid.2, Text.dropLineEnd_of_ne solid.2]
    | crlf rest =>
      cases rest
      rwa [Text.dropLineEnd_lf hlast, Text.dropLineEnd_crlf]
    | lf _ rest =>
      cases rest
      rwa [Text.dropLineEnd_lf hlast, Text.dropLineEnd_lf hu.getLast?_ne_return]

/-- Related texts line by line: the last line, or a line with its end and the lines after it. -/
@[elab_as_elim]
theorem lines_induction {motive : Text → Text → Prop}
    (last : ∀ line : Text, line.OneLine → motive line line)
    (crlf : ∀ line t u : Text, line.OneLine → SameLines lone t u → motive t u →
      motive (line ++ '\n' :: t) (line ++ ['\r'] ++ '\n' :: u))
    (lf : ∀ line t u : Text, line.OneLine → lone → SameLines lone t u → motive t u →
      motive (line ++ '\n' :: t) (line ++ '\n' :: u))
    (h : SameLines lone t u) : motive t u := by
  suffices hline : ∀ line : Text, line.OneLine → motive (line ++ t) (line ++ u) from
    hline [] (by simp [Text.OneLine])
  induction h with
  | nil =>
    intro line hline
    rw [List.append_nil]
    exact last line hline
  | @char c t u solid _ ih =>
    intro line hline
    have hlonger : Text.OneLine (line ++ [c]) := fun e he => by
      rcases List.mem_append.mp he with he | he
      · exact hline e he
      · exact List.mem_singleton.mp he ▸ solid
    simpa using ih (line ++ [c]) hlonger
  | crlf rest ih =>
    intro line hline
    simpa using crlf line _ _ hline rest (ih [] (by simp [Text.OneLine]))
  | lf allowed rest ih =>
    intro line hline
    exact lf line _ _ hline allowed rest (ih [] (by simp [Text.OneLine]))

end SameLines
end TemplateSplice
