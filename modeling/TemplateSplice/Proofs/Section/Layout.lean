import TemplateSplice.Proofs.Section.Scan

/-! The layout of a body: the text before the first header, and every section with its name and its
text. A body is its layout written out, and where its headers stand, what a section holds and where
an insertion goes can all be read off the layout. -/
namespace TemplateSplice

structure Layout where
  /-- What stands before the first header. -/
  preamble : Text
  /-- The names and the texts of the sections, in order. -/
  sections : List (Text × Text)
  deriving DecidableEq, Repr

namespace Layout

def names (l : Layout) : List Text := l.sections.map Prod.fst

/-- Sections written out, each after its header. -/
def joined : List (Text × Text) → Text
  | [] => []
  | (name, t) :: r => AllowList.headerText name ++ (t ++ joined r)

def text (l : Layout) : Text := l.preamble ++ joined l.sections

/-- The headers of sections that are written out from a position on. -/
def headersAt : Nat → List (Text × Text) → List Header
  | _, [] => []
  | p, (name, t) :: r =>
    ⟨name, p, p + name.length + 1⟩ :: headersAt (p + name.length + 1 + t.length) r

def headers (l : Layout) : List Header := headersAt l.preamble.length l.sections

/-- The sections with contents put in front of the first text of a name. -/
def addFirstIn (name contents : Text) : List (Text × Text) → List (Text × Text)
  | [] => []
  | (n, t) :: r =>
    if n = name then (n, contents ++ t) :: r else (n, t) :: addFirstIn name contents r

def addFirst (l : Layout) (name contents : Text) : Layout :=
  ⟨l.preamble, addFirstIn name contents l.sections⟩

/-- The layout with a character more in front. -/
def push (c : Char) (l : Layout) : Layout := ⟨c :: l.preamble, l.sections⟩

/-- The layout with a header in front, which makes the preamble a section. -/
def under (name : Text) (l : Layout) : Layout := ⟨[], (name, l.preamble) :: l.sections⟩

@[simp] theorem text_push (c : Char) (l : Layout) : (l.push c).text = c :: l.text := rfl

@[simp] theorem text_under (name : Text) (l : Layout) :
    (l.under name).text = AllowList.headerText name ++ l.text := rfl

@[simp] theorem joined_append (r r' : List (Text × Text)) :
    joined (r ++ r') = joined r ++ joined r' := by
  induction r with
  | nil => rfl
  | cons s r ih => simp [joined, ih]

@[simp] theorem map_name_headersAt (p : Nat) (r : List (Text × Text)) :
    (headersAt p r).map Header.name = r.map Prod.fst := by
  induction r generalizing p with
  | nil => rfl
  | cons s r ih => simp [headersAt, ih]

@[simp] theorem map_fst_addFirstIn (name contents : Text) (r : List (Text × Text)) :
    (addFirstIn name contents r).map Prod.fst = r.map Prod.fst := by
  induction r with
  | nil => rfl
  | cons s r ih =>
    obtain ⟨n, t⟩ := s
    unfold addFirstIn
    split_ifs <;> simp [ih]

/-- What stands in a body before the first of its headers. -/
def textBefore (body : Text) (headers : List Header) : Text :=
  body.take ((headers.head?.map Header.start).getD body.length)

/-- The names of headers of a body with the texts after them. Each text goes from the colon up to the
next header, and the last one up to the end of the body. -/
def pieces (body : Text) : List Header → List (Text × Text)
  | [] => []
  | h :: r =>
    (h.name, body.slice h.stop ((r.head?.map Header.start).getD body.length)) :: pieces body r

/-- The first header of a name goes with the first piece of that name. -/
lemma lookup_pieces (body name : Text) (headers : List Header) :
    (pieces body headers).lookup name =
      (AllowList.firstHeader? name headers).map fun (h, next) =>
        body.slice h.stop (next.getD body.length) := by
  induction headers with
  | nil => rfl
  | cons h r ih =>
    rw [pieces, AllowList.firstHeader?]
    by_cases hn : h.name = name
    · subst hn
      rw [List.lookup_cons_self, if_pos rfl]
      rfl
    · rw [List.lookup_cons, beq_eq_false_iff_ne.mpr (Ne.symm hn), if_neg hn]
      exact ih

/-- A body up to the first of the headers that are written out in it. -/
lemma textBefore_headersAt (before : Text) (r : List (Text × Text)) :
    textBefore (before ++ joined r) (headersAt before.length r) = before := by
  cases r with
  | nil => simp [textBefore, headersAt, joined]
  | cons s r => simp [textBefore, headersAt]

/-- The pieces of a body at the headers that are written out in it are the sections written. -/
lemma pieces_headersAt (before : Text) (r : List (Text × Text)) :
    pieces (before ++ joined r) (headersAt before.length r) = r := by
  induction r generalizing before with
  | nil => rfl
  | cons s r ih =>
    obtain ⟨n, t⟩ := s
    have hbody : before ++ joined ((n, t) :: r) = before ++ AllowList.headerText n ++ t ++ joined r := by
      simp [joined]
    have hstart : before.length + n.length + 1 + t.length =
        (before ++ AllowList.headerText n ++ t).length := by simp [Nat.add_assoc]
    have hstop : before.length + n.length + 1 = (before ++ AllowList.headerText n).length := by
      simp [Nat.add_assoc]
    -- The text before the next header ends in the text of the section.
    have htext := textBefore_headersAt (before ++ AllowList.headerText n ++ t) r
    rw [textBefore] at htext
    rw [headersAt, pieces, hbody, hstart, ih, hstop, Text.slice, htext, List.drop_left]

/-- The first header of a name cuts the text of the first section of that name out of the body. -/
lemma slice_firstHeader (name before : Text) (r : List (Text × Text)) :
    ((AllowList.firstHeader? name (headersAt before.length r)).map fun (h, next) =>
      (before ++ joined r).slice h.stop (next.getD (before ++ joined r).length)) =
        r.lookup name := by
  rw [← lookup_pieces, pieces_headersAt]

/-- Contents put after the first header of a name go in front of the text of its section. -/
lemma splice_firstHeader {name : Text} (contents before : Text) (r : List (Text × Text))
    (hn : name ∈ r.map Prod.fst) :
    ((AllowList.firstHeader? name (headersAt before.length r)).map fun (h, _) =>
      (before ++ joined r).splice h.stop h.stop contents) =
        some (before ++ joined (addFirstIn name contents r)) := by
  induction r generalizing before with
  | nil => simp at hn
  | cons s r ih =>
    obtain ⟨n, t⟩ := s
    simp only [headersAt, AllowList.firstHeader?, addFirstIn]
    by_cases h : n = name
    · have hstop : before.length + n.length + 1 = (before ++ AllowList.headerText n).length := by
        simp [Nat.add_assoc]
      rw [if_pos h, if_pos h, Option.map_some, hstop]
      simp only [joined, Text.splice, ← List.append_assoc]
      rw [List.append_assoc _ t, List.take_left, List.drop_left, List.append_assoc _ t]
    · have hr : name ∈ r.map Prod.fst := by simpa [Ne.symm h] using hn
      have := ih (before ++ AllowList.headerText n ++ t) hr
      rw [if_neg h, if_neg h]
      simpa [joined, Nat.add_assoc] using this

end Layout

namespace AllowList

variable {allowed : AllowList}

/-- The layout of the rest of a body. Some characters may still belong to the header before; a
header starts only at the start of a line. -/
def layoutFrom (allowed : AllowList) : Nat → Bool → Text → Layout
  | _, _, [] => ⟨[], []⟩
  | pending + 1, _, c :: r => allowed.layoutFrom pending (c == '\n') r
  | 0, false, c :: r => (allowed.layoutFrom 0 (c == '\n') r).push c
  | 0, true, c :: r =>
    match allowed.nameAt? (c :: r) with
    | some name => (allowed.layoutFrom name.length (c == '\n') r).under name
    | none => (allowed.layoutFrom 0 (c == '\n') r).push c

def layout (allowed : AllowList) (body : Text) : Layout := allowed.layoutFrom 0 true body

lemma layoutFrom_append_colon (k : Nat) (b : Bool) (h u : Text) (hk : h.length + 1 = k) :
    allowed.layoutFrom k b (h ++ ':' :: u) = allowed.layoutFrom 0 false u := by
  subst hk
  induction h generalizing b with
  | nil => simp [layoutFrom]
  | cons c h ih =>
    rw [List.cons_append, List.length_cons, layoutFrom, ih]

lemma layoutFrom_plain {b : Bool} {c : Char} {r : Text}
    (h : b = true → allowed.nameAt? (c :: r) = none) :
    allowed.layoutFrom 0 b (c :: r) = (allowed.layoutFrom 0 (c == '\n') r).push c := by
  cases b with
  | false => rw [layoutFrom]
  | true => rw [layoutFrom, h rfl]

lemma layoutFrom_header {name u : Text}
    (h : allowed.nameAt? (headerText name ++ u) = some name) :
    allowed.layoutFrom 0 true (headerText name ++ u) =
      (allowed.layoutFrom 0 false u).under name := by
  cases name with
  | nil =>
    change allowed.layoutFrom 0 true (':' :: u) = _
    change allowed.nameAt? (':' :: u) = _ at h
    rw [layoutFrom, h]
    rfl
  | cons c name =>
    have he : headerText (c :: name) ++ u = c :: (name ++ ':' :: u) := by simp [headerText]
    rw [he] at h ⊢
    rw [layoutFrom, h]
    simp only [layoutFrom_append_colon (c :: name).length (c == '\n') name u rfl]

lemma text_layoutFrom (b : Bool) (t : Text) : (allowed.layoutFrom 0 b t).text = t := by
  induction b, t using allowed.scan_induction with
  | nil b => rfl
  | plain b c r h ih => rw [layoutFrom_plain h, Layout.text_push, ih]
  | header name u h ih => rw [layoutFrom_header h, Layout.text_under, ih]

/-- A body is its layout written out, whatever the names are. -/
@[simp] theorem text_layout (body : Text) : (allowed.layout body).text = body :=
  text_layoutFrom true body

lemma headersFrom_eq_headersAt (p : Nat) (b : Bool) (t : Text) :
    allowed.headersFrom p 0 b t =
      Layout.headersAt (p + (allowed.layoutFrom 0 b t).preamble.length)
        (allowed.layoutFrom 0 b t).sections := by
  induction b, t using allowed.scan_induction generalizing p with
  | nil b => rfl
  | plain b c r h ih =>
    rw [headersFrom_plain p h, layoutFrom_plain h, ih]
    simp only [Layout.push, List.length_cons]
    congr 1
    omega
  | header name u h ih =>
    rw [headersFrom_header p h, layoutFrom_header h, ih]
    rfl

/-- The headers of a body stand where its layout puts them. -/
theorem headers_eq_layout (body : Text) :
    allowed.headers body = (allowed.layout body).headers := by
  rw [headers, headersFrom_eq_headersAt, Nat.zero_add]
  rfl

theorem sections_eq_layout (body : Text) :
    allowed.sections body = (allowed.layout body).names := by
  rw [sections, headers_eq_layout, Layout.headers, Layout.map_name_headersAt]
  rfl

/-- The text of a section is the first one of its name in the layout. -/
theorem section?_eq_lookup (body name : Text) :
    allowed.section? body name = (allowed.layout body).sections.lookup name := by
  have h := Layout.slice_firstHeader name (allowed.layout body).preamble
    (allowed.layout body).sections
  have ht : (allowed.layout body).preamble ++ Layout.joined (allowed.layout body).sections = body :=
    text_layout body
  rw [ht] at h
  rw [section?, headers_eq_layout]
  exact h

/-- Contents go in front of the first text of a name in the layout that has a header for it. -/
theorem insert?_eq_layout {body name : Text} (contents : Text)
    (hn : name ∈ allowed.sections (allowed.withHeader body name)) :
    allowed.insert? body name contents =
      some ((allowed.layout (allowed.withHeader body name)).addFirst name contents).text := by
  let l := allowed.layout (allowed.withHeader body name)
  have h := Layout.splice_firstHeader contents l.preamble l.sections
    (by rwa [sections_eq_layout] at hn)
  have ht : l.preamble ++ Layout.joined l.sections = allowed.withHeader body name :=
    text_layout _
  rw [ht] at h
  rw [insert?, headers_eq_layout]
  exact h

/-- The sections of a text that ends its last line end theirs. -/
lemma opensLine_layoutFrom {b : Bool} {t : Text} (h : Text.opensLine b t = true) :
    Text.opensLine b (allowed.layoutFrom 0 b t).preamble = true ∧
      ∀ s ∈ (allowed.layoutFrom 0 b t).sections, Text.opensLine false s.2 = true := by
  induction b, t using allowed.scan_induction with
  | nil b => simpa [layoutFrom] using h
  | plain b c r hn ih =>
    rw [layoutFrom_plain hn]
    simpa [Layout.push] using ih (by simpa using h)
  | header name u hn ih =>
    rw [layoutFrom_header hn]
    obtain ⟨hpre, hsections⟩ := ih (by simpa using h)
    exact ⟨rfl, List.forall_mem_cons.mpr ⟨hpre, hsections⟩⟩

end AllowList
end TemplateSplice
