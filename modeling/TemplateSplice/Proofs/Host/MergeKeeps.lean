import TemplateSplice.Proofs.Host.Log
import TemplateSplice.Proofs.Host.Merge
import TemplateSplice.Proofs.Host.MergeFailing
import TemplateSplice.Proofs.Merge.Characters

/-! What merges of files keep, what they give, and how they fail. In whatever states records can be made, a
merge stays in them. Since every text in it was read in an encoding, the result is made of characters of that
encoding; and it fails with problems of the templates only. -/
namespace TemplateSplice

/-- The name of an encoding that texts can be read in. -/
def Equipment.Reads (equipment : Equipment) (encoding : Text) : Prop :=
  '\x00' ∉ encoding ∧ ∃ codec, equipment.codecOf? encoding = some codec

/-- The encoding of a name has a character, if it is one of the program's own encodings. -/
def Encoding.Covers (name : Text) (c : Char) : Prop := ∀ e, ofName? name = some e → e.Has c

lemma Encoding.covers_newline (name : Text) : Covers name '\n' := fun e _ => e.has_newline

namespace Machine

variable {α β : Type} {S : States} {equipment : Equipment} {encoding : Text} {rules : Rules}
  {root : Template} {body : Text} {markers : List Marker} {E : Problem → Prop}

/-- A text that was read in one of the program's own encodings can be written in it. -/
lemma exists_encoded {content : Text} {e : Encoding} (he : Encoding.ofName? encoding = some e)
    (h : Text.Only (Encoding.Covers encoding) content) : ∃ bytes, Encoded encoding content bytes := by
  obtain ⟨bytes, hb⟩ := Encoding.exists_encode_of_only fun c hc => h c hc e he
  exact ⟨bytes, e, he, hb⟩

/-- Only a codec that is not one of the program's own fails on a text that its encoding covers. -/
lemma ofName?_eq_none_of_stream {content : Text} {codec : Codec} {fault : CodecFault EncodeFault}
    (h : Text.Only (Encoding.Covers encoding) content)
    (hcodec : equipment.codecOf? encoding = some codec)
    (hfails : codec.stream [content] = .error fault) : Encoding.ofName? encoding = none := by
  by_contra hown
  obtain ⟨e, he⟩ := Option.ne_none_iff_exists'.mp hown
  obtain ⟨bytes, hbytes⟩ := exists_encoded he h
  obtain ⟨codec', hcodec', hstreamed⟩ := hbytes.streamed equipment
  obtain rfl := Option.some.inj (hcodec.symm.trans hcodec')
  cases hstreamed.symm.trans hfails

section Reading

lemma keeps_holds (p : Path) :
    Keeps S (host.holds p) (fun there => there = true → '\x00' ∉ p.text) fun e =>
      e.report.kind.isSystem = true := by
  unfold Host.holds
  refine ((keeps_directory? p.text).imp_error ?_).bind fun answer hclean => keeps_pure fun hthere => ?_
  · rintro _ ⟨rfl, -⟩
    rfl
  · obtain ⟨a, ha⟩ := Option.isSome_iff_exists.mp hthere
    exact hclean a ha

lemma keeps_holdsFile (p : Path) :
    Keeps S (host.holdsFile p) (fun _ => True) fun e =>
      e = .disk (.refused .nameTooLong p.text none) ∧ FileTree.TooLong p.text := by
  unfold Host.holdsFile
  exact (keeps_directory? _).bind fun _ _ => keeps_pure trivial

lemma keeps_read {p : Path} (hclean : '\x00' ∉ p.text) :
    Keeps S (Host.attempt (host.read p.text)) (fun _ => True) fun e =>
      e.report.kind.isSystem = true := by
  have hread : Keeps S (Host.run (host.read p.text)) (fun r => ∀ fault, r = .error fault →
      FileTree.Refuses p.text fault) fun e => e.report.kind.isSystem = true :=
    keeps_run fun journal machine hs => ⟨hs, fun fault h => FileTree.refuses_of_readFile h⟩
  unfold Host.attempt
  refine hread.bind fun r hrefuses => ?_
  cases r with
  | ok bytes => exact keeps_pure trivial
  | error fault =>
    obtain ⟨kind, target, rfl⟩ := (hrefuses fault rfl).eq_refused hclean
    exact keeps_throw rfl

/-- What is read in an encoding is made of its characters. Reading fails because the system refuses it, or
the bytes or the encoding are none. -/
lemma keeps_readText (hframe : Frame equipment S) (p : Path) (encoding : Text) :
    Keeps S (host.readText p encoding)
      (fun t => equipment.Reads encoding ∧ Text.Only (Encoding.Covers encoding) t)
      fun e => (∃ fault, e = .undecodable fault) ∨ Problem.OfTemplate equipment encoding e := by
  unfold Host.readText
  refine ((keeps_holds p).imp_error fun _ he => .inr (.printed (.inr he))).bind fun there hthere => ?_
  split_ifs with hmissing
  · exact keeps_throw (.inr (.printed (.inr rfl)))
  have hclean : '\x00' ∉ p.text := hthere (by simpa using hmissing)
  refine ((keeps_checkEncodingName encoding).imp_error ?_).bind fun _ hnull =>
    ((keeps_read hclean).imp_error fun _ he => .inr (.printed (.inr he))).bind fun bytes _ =>
      ((keeps_codecOf hframe.equipped encoding).imp_error ?_).bind fun codec hcodec => ?_
  · rintro _ ⟨hnull, rfl⟩
    exact .inr (.nullInEncoding hnull)
  · rintro _ ⟨hunknown, rfl⟩
    exact .inr (.unknownEncoding hunknown)
  · cases hd : codec.decode bytes with
    | error fault =>
      refine keeps_throw ?_
      cases fault with
      | usual fault => exact .inl ⟨fault, rfl⟩
      | foreign fault => exact .inr (.codec hcodec hd)
    | ok t =>
      refine keeps_pure ⟨⟨hnull, codec, hcodec⟩, fun c hc e he => ?_⟩
      have hown := equipment.codecOf?_of_ofName? he
      obtain rfl := Option.some.inj (hcodec.symm.trans hown)
      have honly : Text.Only e.Has t.unifyLineEnds :=
        (Encoding.only_of_decode (Encoding.decode_codec.mp hd)).unifyLineEnds e.has_newline
      exact honly c hc

lemma keeps_readTemplate (hframe : Frame equipment S) (p : Path) (encoding : Text) :
    Keeps S (host.readTemplate encoding p)
      (fun t => equipment.Reads encoding ∧ Text.Only (Encoding.Covers encoding) t)
      (Problem.OfTemplate equipment encoding) := by
  unfold Host.readTemplate
  refine (keeps_readText hframe p encoding).observe_bind (fun t ht => keeps_pure ht) fun e he =>
    keeps_throw ?_
  rcases he with ⟨fault, rfl⟩ | he
  · exact .printed (.inl rfl)
  · cases he with
    | printed printed =>
      unfold Host.templateProblem
      split
      · exact .printed (.inl rfl)
      · exact .printed printed
    | unknownEncoding unknown => exact .unknownEncoding unknown
    | nullInEncoding null => exact .nullInEncoding null
    | codec named fails => exact .codec named fails

end Reading

section Merging

lemma keeps_lift {r : Except Problem α} (h : ∀ e, r = .error e → E e) :
    Keeps S (Merge.lift r : Action (StateM Machine) α) (fun a => r = .ok a) E :=
  fun _ _ hs => ⟨hs, fun _ ha => ha, h⟩

/-- Following a reference fails because there is no template there, or because its path is too long. -/
lemma keeps_resolve (hframe : Frame equipment S) (root : Template) (resource : Text) :
    Keeps S ((host.templates encoding).resolve root.path.text resource) (fun _ => True) fun e =>
      e.report.kind.isOwn = true ∨
        e = .disk (.refused .nameTooLong (root.target resource).text none) ∧
          FileTree.TooLong (root.target resource).text := by
  unfold Access.resolve
  refine ((keeps_holdsFile _).imp_error fun e he => .inr he).bind fun there _ => ?_
  split_ifs
  · exact (hframe.note _).keeps.bind fun _ _ => keeps_pure trivial
  · exact keeps_throw (.inl rfl)

lemma keeps_load (hframe : Frame equipment S) (root : Template) (resource : Text) :
    Keeps S ((host.templates encoding).load root resource)
      (fun imported => Text.Only (Encoding.Covers encoding) imported.body)
      (Problem.OfTemplate equipment encoding) := by
  unfold Access.load
  refine ((keeps_resolve hframe _ _).imp_error ?_).bind fun p _ =>
    (keeps_readTemplate hframe p encoding).bind fun body hbody => keeps_pure hbody.2
  rintro e (he | ⟨rfl, -⟩)
  · exact .printed (.inl he)
  · exact .printed (.inr rfl)

lemma keeps_openTemplate (hframe : Frame equipment S) (name : TemplateName) :
    Keeps S ((host.templates encoding).openTemplate name)
      (fun root => equipment.Reads encoding ∧ Text.Only (Encoding.Covers encoding) root.body)
      (Problem.OfTemplate equipment encoding) := by
  unfold Access.openTemplate
  split_ifs
  · exact keeps_throw (.printed (.inl rfl))
  · refine ((keeps_holdsFile _).imp_error ?_).bind fun there _ => ?_
    · rintro _ ⟨rfl, -⟩
      exact .printed (.inr rfl)
    · split_ifs
      · exact (keeps_readTemplate hframe _ encoding).bind fun body hbody => keeps_pure hbody
      · exact keeps_throw (.printed (.inl rfl))

/-- The whole-file pass puts in nothing but characters of the encoding. -/
lemma keeps_wholeFilePass (hframe : Frame equipment S)
    (hbody : Text.Only (Encoding.Covers encoding) body) :
    Keeps S (Merge.wholeFilePass (host.templates encoding) rules root body markers)
      (fun r => Text.Only (Encoding.Covers encoding) r.1) (Problem.OfTemplate equipment encoding) := by
  induction markers generalizing body with
  | nil => exact keeps_pure hbody
  | cons marker markers ih =>
    unfold Merge.wholeFilePass
    refine (keeps_lift fun _ h => .printed (.inl (Merge.isOwn_of_wholeFilePath h))).bind
      fun resource _ => (keeps_load hframe _ _).bind fun imported himported =>
        (keeps_lift fun _ h => .printed (.inl (Merge.isOwn_of_addSections h))).bind fun body₁ hadd =>
          (hframe.note _).keeps.bind fun _ _ => ?_
    have hbody₁ := Merge.only_addSections (Encoding.covers_newline encoding) hbody himported hadd
    exact (ih hbody₁).bind fun r hr => keeps_pure hr

/-- So do the replacements of the inline pass. It fails because of a template, if there is a delimiter. -/
lemma keeps_inlinePass (hframe : Frame equipment S) :
    Keeps S (Merge.inlinePass (host.templates encoding) rules root body markers)
      (fun r => ∀ replacement ∈ r.1, Text.Only (Encoding.Covers encoding) replacement.text)
      fun e => rules.style.delimiter ≠ [] → Problem.OfTemplate equipment encoding e := by
  induction markers with
  | nil => exact keeps_pure (by simp)
  | cons marker markers ih =>
    unfold Merge.inlinePass
    refine (keeps_lift fun _ h hdelimiter => .printed (.inl (Merge.isOwn_of_inlineParts hdelimiter h))).bind
      fun parts _ => ((keeps_load hframe _ _).imp_error fun _ he _ => he).bind fun imported himported =>
        (keeps_lift fun _ h _ => .printed (.inl (Merge.isOwn_of_sectionOf h))).bind
          fun contents hcontents => ih.bind fun r hr => keeps_pure ?_
    exact List.forall_mem_cons.mpr ⟨Merge.only_sectionOf himported hcontents, hr⟩

lemma keeps_inlines (hframe : Frame equipment S)
    (hbody : Text.Only (Encoding.Covers encoding) body) :
    Keeps S (Merge.inlines (host.templates encoding) rules root body)
      (fun r => Text.Only (Encoding.Covers encoding) r.1)
      fun e => rules.style.delimiter ≠ [] → Problem.OfTemplate equipment encoding e := by
  unfold Merge.inlines
  exact (keeps_inlinePass hframe).bind fun r hr => keeps_pure (Merge.only_replaceAll hbody hr)

lemma keeps_during (hframe : Frame equipment S) {stage next : Stage} {P : α → Prop} {P' : β → Prop}
    {work : Action (StateM Machine) α}
    {rest : α → StateT Journal (StateM Machine) (Except Problem β)} (hwork : Keeps S work P E)
    (hrest : ∀ a, P a → Keeps S (ExceptT.mk (rest a)) P' E) :
    Keeps S (ExceptT.mk (Merge.during (host.templates encoding) stage next work rest)) P' E := by
  rw [mk_during]
  exact hwork.observe_bind (fun a ha => (hframe.log _).keeps.bind fun _ _ => hrest a ha) fun e he =>
    (hframe.log _).keeps.bind fun _ _ => keeps_throw he

/-- A merge stays in states that making records does not leave. What it gives is made of characters of the
encoding that it reads in, and it fails because of a template, if there is a delimiter. -/
theorem keeps_merge (hframe : Frame equipment S) (stage : Stage) (name : TemplateName) :
    Keeps S (ExceptT.mk (merge (host.templates encoding) rules stage name))
      (fun result => equipment.Reads encoding ∧ Text.Only (Encoding.Covers encoding) result.content)
      fun e => rules.style.delimiter ≠ [] → Problem.OfTemplate equipment encoding e := by
  unfold merge
  rw [mk_bind]
  refine (hframe.log _).keeps.bind fun _ _ =>
    keeps_during hframe ((keeps_openTemplate hframe name).imp_error fun _ he _ => he) fun root hroot =>
      keeps_during hframe ((keeps_wholeFilePass hframe hroot.2).imp_error fun _ he _ => he) fun r hr =>
        keeps_during hframe (keeps_inlines hframe hr) fun r hr => ?_
  dsimp only
  rw [mk_bind]
  exact (hframe.log _).keeps.bind fun _ _ => keeps_pure ⟨hroot.1, hr⟩

end Merging

end Machine
end TemplateSplice
