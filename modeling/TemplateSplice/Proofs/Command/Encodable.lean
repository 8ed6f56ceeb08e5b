import TemplateSplice.Proofs.Command.Written
import TemplateSplice.Proofs.Host.Failing

/-! Merged templates have bytes in their encoding. All that is merged was decoded, and a header that is added
stands in a text that was decoded as well; so writing what a merge gives never meets a character that the
encoding lacks, wherever it is written and whatever has happened to the machine since. -/
namespace TemplateSplice

open Machine Command

/-- A text has no bytes in an encoding. -/
def Problem.IsUnencodable (e : Problem) : Prop := ∃ fault, e = .unencodable fault

lemma Problem.OfDisk.not_isUnencodable {P : Prop} {e : Problem} (h : Problem.OfDisk P e) :
    ¬ e.IsUnencodable := by
  rintro ⟨fault, rfl⟩
  cases h with
  | system system => cases system

/-- A text that has bytes in its encoding is written, or something else prevents it. -/
lemma Problem.OfWriting.not_isUnencodable {equipment : Equipment} {encoding : Text} {parts : List Text}
    {P : Prop} {e : Problem} {bytes : Bytes} (h : Problem.OfWriting equipment encoding parts P e)
    (hb : Streamed equipment encoding parts bytes) : ¬ e.IsUnencodable := by
  obtain ⟨codec, hcodec, hb⟩ := hb
  cases h with
  | disk disk => exact disk.not_isUnencodable
  | nullInEncoding => exact nofun
  | unknownEncoding => exact nofun
  | codec named fails =>
    obtain rfl := Option.some.inj (hcodec.symm.trans named)
    cases hb.symm.trans fails

namespace Machine

variable {machine after : Machine} {journal journal' : Journal} {request : Request} {encoding : Text}
  {result : Merged} {bytes : Bytes} {rules : Rules} {stage : Stage} {name : TemplateName}

/-- What a merge gives has bytes in the encoding that it reads in, whatever log it keeps. -/
lemma exists_encoded_of_ending {e : Encoding} (he : Encoding.ofName? encoding = some e)
    (h : ending (ExceptT.mk (merge (host.templates encoding) rules stage name)) journal machine =
      ((.ok result, journal'), after)) : ∃ bytes, Encoded encoding result.content bytes := by
  have hkeeps : Keeps (Equipped machine.equipment)
      (ExceptT.mk (merge (host.templates encoding) rules stage name)) _ _ :=
    keeps_merge (frame_equipped _) stage name
  have hresult := (hkeeps journal machine rfl).2.1
  rw [h] at hresult
  exact exists_encoded he (hresult result rfl).2

/-- Writing a text that has bytes in its encoding does not fail because of a character. -/
lemma ensures_writeMerged_encodable (hb : Streamed machine.equipment encoding [result.content] bytes)
    (request : Request) (output : Output) (settings : Value) :
    Ensures journal machine (writeMerged host request output settings encoding result)
      fun r _ _ => ∀ e, r = .error e → ¬ e.IsUnencodable := by
  refine (ensures_writeMerged_error (P := True) output result (fun _ _ _ => trivial) (fun _ => trivial)
    (fun _ => trivial) fun _ _ _ _ => trivial).imp fun r j u h e he => ?_
  rcases h e he with h | ⟨_, _, _, _, rfl⟩
  · cases h with
    | view => exact nofun
    | writing writing => exact writing.not_isUnencodable hb
  · exact nofun

end Machine

/-- What a merge of files in an encoding gives has bytes in that encoding, by whatever name the encoding goes
and whatever the files and the section names are. So no later attempt to write it, to a file or to a temporary
file, fails because of a character. -/
theorem merge_encodable (machine after : Machine) (journal journal' : Journal) (rules : Rules)
    (stage : Stage) (name : TemplateName) (encoding : Text) (e : Encoding) (result : Merged)
    (he : Encoding.ofName? encoding = some e)
    (h : ending (ExceptT.mk (merge (host.templates encoding) rules stage name)) journal machine =
      ((.ok result, journal'), after)) :
    (∃ bytes, e.encode result.content = .ok bytes) ∧
      ∀ (request : Request) (output : Output) (settings : Value) (j : Journal) (u : Machine)
        (fault : EncodeFault),
        (ending (writeMerged host request output settings encoding result) j u).1.1 ≠
          .error (.unencodable fault) := by
  obtain ⟨bytes, hbytes⟩ := exists_encoded_of_ending he h
  constructor
  · obtain ⟨e', he', hencode⟩ := hbytes
    obtain rfl := Option.some.inj (he.symm.trans he')
    exact ⟨bytes, hencode⟩
  · intro request output settings j u fault hfails
    have hwritten : Ensures j u (writeMerged host request output settings encoding result) _ :=
      ensures_writeMerged_encodable (hbytes.streamed u.equipment) request output settings
    exact hwritten _ hfails ⟨fault, rfl⟩

/-- A machine with a template that refers to one with a character of two bytes in UTF-8, stored as one. -/
def Machine.accented : Machine where
  tree :=
    ⟨[(["a".toList], .file (Utf8.encode "# @import b\n".toList)),
      (["b".toList], .file (Utf8.encode "Outputs: ".toList ++ [0xE9]))]⟩
  cwd := []
  temporary := []
  environment := []
  freshNames := 0
  output := []
  errors := []
  equipment := .standard

theorem merge_accented_encodable :
    ∃ result journal after,
      ending (ExceptT.mk (merge (host.templates "ISO-8859-1".toList) Rules.standard .init
        (.text "/a".toList))) .fresh Machine.accented = ((.ok result, journal), after) ∧
      result.content = "# @import b\nOutputs: é".toList ∧
      ∃ bytes, Encoding.latin1.encode result.content = .ok bytes := by
  obtain ⟨⟨⟨r, journal⟩, after⟩, hrun⟩ : ∃ end_, ending (ExceptT.mk (merge
      (host.templates "ISO-8859-1".toList) Rules.standard .init (.text "/a".toList))) .fresh
      Machine.accented = end_ := ⟨_, rfl⟩
  have hcontent : (ending (ExceptT.mk (merge (host.templates "ISO-8859-1".toList) Rules.standard .init
      (.text "/a".toList))) .fresh Machine.accented).1.1.toOption.map Merged.content =
        some "# @import b\nOutputs: é".toList := by decide +kernel
  rw [hrun] at hcontent
  cases r with
  | error e => cases hcontent
  | ok result =>
    refine ⟨result, journal, after, hrun, Option.some.inj hcontent, ?_⟩
    exact (merge_encodable Machine.accented after .fresh journal Rules.standard .init (.text "/a".toList)
      "ISO-8859-1".toList .latin1 result (by decide +kernel) hrun).1

end TemplateSplice
