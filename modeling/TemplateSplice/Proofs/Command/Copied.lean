import TemplateSplice.Proofs.Command.Written
import TemplateSplice.Proofs.Encoding.RoundTrip
import TemplateSplice.Proofs.Host.Reading

/-! Merging a template without markers. What comes of it is the text of the template with its line ends
unified, as a codec writes it. In the program's own encodings that is the template byte for byte unless there
are carriage returns in it, or a signature is missing that the encoding writes. -/
namespace TemplateSplice

open Machine Command

/-- The template of a request holds some bytes, which are a text in the encoding of the settings. -/
structure Command.Request.Holds (machine : Machine) (request : Request) (template : Settings.Template)
    (codec : Codec) (bytes : Bytes) (text : Text) : Prop where
  settings : ∃ settings, Answers machine (Command.loadSettings host request) (.ok settings) ∧
    Answers machine (templateSettings settings) (.ok template)
  named : Text.strip (request.file.getD []) ≠ []
  file : machine.tree.readFile machine.cwd
    (absolutePath machine.cwd (request.file.getD [])).text = .ok bytes
  encoding : '\x00' ∉ template.encoding ∧ machine.equipment.codecOf? template.encoding = some codec
  text : codec.decode bytes = .ok text

/-- What merging the template of a request gives if its text has no markers. -/
def Command.Request.copied (machine : Machine) (request : Request) (text : Text) : Merged :=
  ⟨text.unifyLineEnds, absolutePath machine.cwd (request.file.getD []), []⟩

section

variable {machine after : Machine} {request : Request} {template : Settings.Template} {codec : Codec}
  {bytes : Bytes} {text : Text} {settings : Value} {result : Merged} {out : Path}
  {answer : Except Problem Nat} {journal : Journal}

/-- A template without markers is merged into its text. -/
lemma answers_mergeRequested_of_no_markers (hlog : givenPath request.logFile = none)
    (h : request.Holds machine template codec bytes text)
    (hmarkers : template.style.markers text.unifyLineEnds = []) :
    ∃ settings, Answers machine (mergeRequested host request)
      (.ok (settings, template, request.copied machine text)) := by
  obtain ⟨settings, hsettings, htemplate⟩ := h.settings
  obtain ⟨rules, hrules, hstyle⟩ := exists_rules_of_templateSettings htemplate
  have hname := answers_templateName (S := At machine) (fun _ _ hs => hs.cwd) (request.file.getD [])
  have hnormal := normal_templateNameIn h.named machine.cwd
  have hreads : machine.ReadsAs template.encoding _ text.unifyLineEnds :=
    ⟨bytes, codec, text, h.file, h.encoding.1, h.encoding.2, h.text, rfl⟩
  have hoffers := hreads.offers
  unfold Request.copied
  rw [← hnormal] at hoffers ⊢
  exact ⟨settings, answers_mergeRequested hlog hsettings htemplate hrules hname
    (answers_merge_of_no_markers .init (not_isBlank_templateNameIn h.named _) hoffers (hstyle ▸ hmarkers))⟩

/-- A text is in the file at a path, as a codec writes it, and no other file has changed. -/
def Copied (machine : Machine) (codec : Codec) (text : Text) (out : Path) (l : Location)
    (written : Bytes) (after : FileTree) : Prop :=
  codec.stream [text] = .ok written ∧ after.HasFile machine.cwd out.text l written ∧
    machine.tree.Kept (· = l) after

lemma not_isLog (hlog : givenPath request.logFile = none) (l : Location) : ¬ IsLog machine request l := by
  rintro ⟨p, hp, _⟩
  rw [hlog] at hp
  cases hp

lemma Machine.Stored.exists_copied {place : Option Path}
    (h : Stored (IsLog machine request) machine request template.encoding result place after.tree)
    (hlog : givenPath request.logFile = none) (hout : givenPath request.output = some out)
    (hcodec : machine.equipment.codecOf? template.encoding = some codec) :
    place = some out ∧ ∃ l written, Copied machine codec result.content out l written after.tree := by
  obtain ⟨hplace, l, written, hplaced⟩ := h.file out hout
  obtain ⟨codec', hcodec', hwritten⟩ := hplaced.streamed
  obtain rfl := Option.some.inj (hcodec.symm.trans hcodec')
  exact ⟨hplace, l, written, hwritten, hplaced.hasFile,
    hplaced.kept.imp fun k hk => hk.resolve_right (not_isLog hlog k)⟩

end

/-- Merging a template without markers writes its text, with its line ends unified and as its codec writes it,
to the file that is asked for. In one of the program's own encodings the file holds the bytes of the template
then exactly if the template has no carriage returns, and starts with the signature if its encoding writes
one. -/
theorem merge_copies_text (machine after : Machine) (dialect : Dialect) (line : List Text) (call : Call)
    (out : Path) (template : Settings.Template) (codec : Codec) (bytes : Bytes) (text : Text)
    (answer : Except Problem Nat) (journal : Journal) (hline : Call.ofLine dialect line = .ok call)
    (hverb : call.verb = .merge) (hout : givenPath call.request.output = some out)
    (hlog : givenPath call.request.logFile = none)
    (hfile : call.request.Holds machine template codec bytes text)
    (hmarkers : template.style.markers text.unifyLineEnds = [])
    (hrun : ending (run host dialect line) .fresh machine = ((answer, journal), after)) :
    let told := machine.equipment.outputLimit machine.output
      (notice call.request (.ofMode call.request.asJson) (call.request.copied machine text) (some out))
    (∀ written, machine.Replaceable out → codec.stream [text.unifyLineEnds] = .ok written →
        machine.HasRoom out written → told = none → answer = .ok 0) ∧
      (answer ≠ .ok 0 → machine.tree.Kept (fun _ => False) after.tree ∨
        told.isSome = true ∧ ∃ l written, Copied machine codec text.unifyLineEnds out l written after.tree) ∧
      (answer = .ok 0 → ∃ l written, Copied machine codec text.unifyLineEnds out l written after.tree ∧
        ∀ e, Encoding.ofName? template.encoding = some e →
          (written = bytes ↔ '\r' ∉ text ∧ (e = .utf8Signed → Utf8.signature <+: bytes))) := by
  intro told
  rw [run_of_verb_merge hline hverb] at hrun
  obtain ⟨settings, hm⟩ := answers_mergeRequested_of_no_markers hlog hfile hmarkers
  obtain ⟨_, _, hending⟩ := hm.exists_ending
  have hfinished := ensures_runMerge machine call.request
  unfold Ensures at hfinished
  rw [hrun, hending] at hfinished
  refine ⟨fun written hr hwritten hroom htold => ?_, fun h0 => ?_, fun h0 => ?_⟩
  · have hanswer := answer_runMerge hm hout hr ⟨codec, hfile.encoding.2, hwritten⟩ hroom htold
    rwa [hrun] at hanswer
  · cases hfinished.1 h0 with
    | untouched kept => exact .inl (kept.imp (not_isLog hlog))
    | untold merged untold =>
      rw [hending] at merged
      cases merged
      obtain ⟨place, count, fault, hstored, hlimit, -⟩ := untold
      obtain ⟨rfl, hcopied⟩ := hstored.exists_copied hlog hout hfile.encoding.2
      exact .inr ⟨Option.isSome_of_eq_some hlimit, hcopied⟩
    | begun merged file =>
      rw [hout] at file
      cases file
  · obtain ⟨settings', template', result, hmerged, place, hstored, -⟩ := hfinished.2 h0
    cases hmerged
    obtain ⟨-, l, written, hcopied⟩ := hstored.exists_copied hlog hout hfile.encoding.2
    refine ⟨l, written, hcopied, fun e he => ?_⟩
    have hown := machine.equipment.codecOf?_of_ofName? he
    obtain rfl := Option.some.inj (hfile.encoding.2.symm.trans hown)
    have hwritten := (Encoding.stream_eq_ok (List.cons_ne_nil _ _)).mp (Encoding.stream_codec.mp hcopied.1)
    rw [List.flatten_singleton] at hwritten
    exact Encoding.encode_unified_eq_iff (Encoding.decode_codec.mp hfile.text) hwritten

/-- A machine with one template. -/
def Machine.single (bytes : Bytes) : Machine :=
  { Machine.paired with tree := ⟨[(["a.yml".toList], .file bytes)]⟩ }

/-- The request for that template, its result to be put beside it. -/
def Command.Request.single : Command.Request :=
  { empty with file := some "a.yml".toList, output := some "out.yml".toList }

lemma holds_single {bytes : Bytes} {text : Text} (h : Utf8.decode bytes = .ok text) :
    Request.single.Holds (.single bytes) .default Encoding.utf8.codec bytes text where
  settings := ⟨Settings.bundled, answers_requestedSettings rfl rfl, answers_pure _⟩
  named := by decide
  file := rfl
  encoding := ⟨by decide, rfl⟩
  text := Encoding.decode_codec.mpr h

lemma replaceable_single (bytes : Bytes) : (Machine.single bytes).Replaceable (.ofText "out.yml".toList) where
  parent := rfl
  target := ⟨⟨[], some "out.yml".toList, false⟩, ["out.yml".toList], rfl, rfl, rfl, nofun⟩
  beside := by
    have hname : (Machine.single bytes).besideName (.ofText "out.yml".toList) =
        "/.out.yml.rand0000".toList := by
      change Machine.paired.besideName (.ofText "out.yml".toList) = _
      decide +kernel
    rw [hname]
    exact ⟨(Machine.single bytes).tree.set [".out.yml.rand0000".toList] (.file []), rfl⟩

theorem merge_copies_text_single :
    ∃ journal after l,
      ending (run host .late ["merge".toList, "a.yml".toList, "-o".toList, "out.yml".toList]) .fresh
        (.single (Utf8.encode "A: 1\n".toList)) = ((.ok 0, journal), after) ∧
      after.tree.HasFile [] "out.yml".toList l (Utf8.encode "A: 1\n".toList) := by
  obtain ⟨⟨⟨answer, journal⟩, after⟩, hrun⟩ : ∃ e, ending (run host .late
      ["merge".toList, "a.yml".toList, "-o".toList, "out.yml".toList]) .fresh
        (.single (Utf8.encode "A: 1\n".toList)) = e := ⟨_, rfl⟩
  obtain ⟨hanswer, _, hdone⟩ := merge_copies_text _ after .late _ ⟨.merge, .single, false⟩
    (.ofText "out.yml".toList) .default Encoding.utf8.codec _ "A: 1\n".toList answer journal rfl rfl rfl
    rfl (holds_single rfl) (by decide) hrun
  obtain rfl := hanswer _ (replaceable_single _) rfl (fun _ => rfl) rfl
  obtain ⟨l, written, ⟨_, hhas, _⟩, hsame⟩ := hdone rfl
  obtain rfl := (hsame .utf8 (by decide)).mpr ⟨by decide, nofun⟩
  exact ⟨journal, after, l, hrun, hhas⟩

/-- A template with a carriage return is not copied byte for byte. -/
theorem merge_returned_not_copied :
    Request.single.Holds (.single (Utf8.encode "A: 1\r\n".toList)) .default Encoding.utf8.codec
      (Utf8.encode "A: 1\r\n".toList) "A: 1\r\n".toList ∧
    Settings.Template.default.style.markers "A: 1\r\n".toList = [] ∧
    ∃ journal after,
      ending (run host .late ["merge".toList, "a.yml".toList, "-o".toList, "out.yml".toList]) .fresh
        (.single (Utf8.encode "A: 1\r\n".toList)) = ((.ok 0, journal), after) ∧
      ¬ ∃ l, after.tree.HasFile [] "out.yml".toList l (Utf8.encode "A: 1\r\n".toList) := by
  have hholds : Request.single.Holds (.single (Utf8.encode "A: 1\r\n".toList)) .default
      Encoding.utf8.codec (Utf8.encode "A: 1\r\n".toList) "A: 1\r\n".toList := holds_single rfl
  refine ⟨hholds, by decide, ?_⟩
  obtain ⟨settings, hm⟩ := answers_mergeRequested_of_no_markers rfl hholds (by decide)
  obtain ⟨_, _, hmerged⟩ := hm.exists_ending
  obtain ⟨⟨⟨answer, journal⟩, after⟩, hrun⟩ : ∃ e, ending (runMerge host .single) .fresh
      (.single (Utf8.encode "A: 1\r\n".toList)) = e := ⟨_, rfl⟩
  have hanswer := answer_runMerge hm rfl (replaceable_single _)
    ⟨Encoding.utf8.codec, rfl, rfl⟩ (fun _ => rfl) rfl
  have hfinished := (ensures_runMerge (.single (Utf8.encode "A: 1\r\n".toList)) .single).2
  rw [hrun] at hanswer hfinished
  obtain rfl : answer = .ok 0 := hanswer
  obtain ⟨_, _, _, hmerged', place, hstored, -⟩ := hfinished rfl
  rw [hmerged] at hmerged'
  cases hmerged'
  obtain ⟨-, l, written, hplaced⟩ := hstored.file (.ofText "out.yml".toList) rfl
  obtain rfl := Except.ok.inj (hplaced.encoded .utf8 (by decide))
  refine ⟨journal, after, hrun, fun ⟨l', hhas⟩ => ?_⟩
  have hsame := Except.ok.inj (hplaced.hasFile.readFile.symm.trans hhas.readFile)
  revert hsame
  decide +kernel

end TemplateSplice
