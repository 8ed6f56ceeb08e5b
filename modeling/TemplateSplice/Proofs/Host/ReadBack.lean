import TemplateSplice.Proofs.Encoding.Decoding
import TemplateSplice.Proofs.Host.Reading
import TemplateSplice.Proofs.Host.Replace
import TemplateSplice.Proofs.Text.Replaced

/-! Reading what was written. A text that was written to a file in an encoding is read back in that
encoding, and only its line ends are other than they were: a file keeps carriage returns, but no text
that is read holds them. -/
namespace TemplateSplice.Machine

variable {journal j : Journal} {machine u : Machine} {path : Path} {content encoding : Text}

/-- Nothing is written in an encoding whose name cannot even be looked up. -/
lemma null_notMem_of_replaceFile (path : Path) (writing : Host.Writing) (encoding : Text) :
    Ensures journal machine (host.replaceFile path writing encoding) fun r _ _ =>
      r = .ok () → '\x00' ∉ encoding := by
  by_cases hnull : '\x00' ∈ encoding
  · unfold Host.replaceFile Host.checkEncodingName
    rw [if_pos hnull]
    refine (builds_ensureParent path).bind (fun _ j u _ => ?_) fun e j u _ => by simp
    have hthrow : Ensures j u (throw Problem.nullInEncoding : Action (StateM Machine) Unit)
        fun r _ _ => r = .error .nullInEncoding := ensures_throw rfl
    refine hthrow.bind (fun _ j u h => ?_) fun e j u _ => by simp
    cases h
  · intro _
    exact hnull

/-- A text that was written is read back with its line ends unified. -/
lemma ending_readTemplate_of_writeText {e : Encoding} (he : Encoding.ofName? encoding = some e)
    (h : ending (host.writeText path content encoding) journal machine = ((.ok (), j), u))
    (j' : Journal) : ending (host.readTemplate encoding path) j' u =
      ((.ok content.unifyLineEnds, j'), u) := by
  have hname : Ensures journal machine (host.replaceFile path (.ofText content) encoding) _ :=
    null_notMem_of_replaceFile path (.ofText content) encoding
  have hfile : Ensures journal machine (host.replaceFile path (.ofText content) encoding) _ :=
    ensures_replaceFile path (.ofText content) encoding
  change ending (host.replaceFile path (.ofText content) encoding) journal machine = _ at h
  unfold Ensures at hname hfile
  rw [h] at hname hfile
  obtain ⟨-, bytes, l, hstreamed, hwritten⟩ := hfile
  have hbytes := (streamed_iff he machine.equipment (List.cons_ne_nil content [])).mp hstreamed
  rw [List.flatten_singleton] at hbytes
  exact ending_readTemplate hwritten.hasFile.readFile (hname rfl) (u.equipment.codecOf?_of_ofName? he)
    (Encoding.decode_codec.mpr (Encoding.decode_of_encode hbytes))

/-- A text that was written to a file in one of the program's own encodings is read back in that encoding
with every carriage return with a line feed, and every other carriage return, as a line feed. So a text
without carriage returns is read back as it was. -/
theorem writeText_read_back (journal j j' : Journal) (machine after : Machine) (path : Path)
    (content encoding : Text) (e : Encoding) (he : Encoding.ofName? encoding = some e)
    (h : ending (host.writeText path content encoding) journal machine = ((.ok (), j), after)) :
    ending (host.readTemplate encoding path) j' after =
        ((.ok (.replaced ['\r'] ['\n'] (.replaced ['\r', '\n'] ['\n'] content)), j'), after) ∧
      ('\r' ∉ content →
        ending (host.readTemplate encoding path) j' after = ((.ok content, j'), after)) := by
  have hread := ending_readTemplate_of_writeText he h j'
  constructor
  · rw [hread, Text.unifyLineEnds_eq_replaced]
  · intro hreturn
    rw [hread, Text.unifyLineEnds_of_notMem hreturn]

lemma exists_ending_writeText_bare (content encoding : Text) {bytes : Bytes} (hname : '\x00' ∉ encoding)
    (hbytes : Encoded encoding content bytes) :
    ∃ j after, ending (host.writeText (.ofText "a".toList) content encoding) .fresh bare =
      ((.ok (), j), after) :=
  ⟨_, _, Prod.ext (Prod.ext (ending_replaceFile replaceable_bare hname (hbytes.streamed _) fun _ => rfl)
    rfl) rfl⟩

/-- A text that starts with the character of a signature, in an encoding that writes one more in front of
it, and a text with both kinds of line ends that are not kept. -/
theorem writeText_read_back_signed :
    (∃ j after,
      ending (host.writeText (.ofText "a".toList) "\uFEFFé\n".toList "UTF-8-SIG".toList) .fresh bare =
          ((.ok (), j), after) ∧
        ending (host.readTemplate "UTF-8-SIG".toList (.ofText "a".toList)) .fresh after =
          ((.ok "\uFEFFé\n".toList, .fresh), after)) ∧
      ∃ j after,
        ending (host.writeText (.ofText "a".toList) "é\r\n\r".toList "latin-1".toList) .fresh bare =
            ((.ok (), j), after) ∧
          ending (host.readTemplate "latin-1".toList (.ofText "a".toList)) .fresh after =
            ((.ok "é\n\n".toList, .fresh), after) := by
  constructor
  · obtain ⟨j, after, h⟩ := exists_ending_writeText_bare "\uFEFFé\n".toList
      "UTF-8-SIG".toList (by decide +kernel) ⟨.utf8Signed, by decide +kernel, rfl⟩
    exact ⟨j, after, h, (writeText_read_back _ _ .fresh _ _ _ _ _ .utf8Signed (by decide +kernel) h).2
      (by decide +kernel)⟩
  · obtain ⟨j, after, h⟩ := exists_ending_writeText_bare "é\r\n\r".toList
      "latin-1".toList (by decide +kernel) ⟨.latin1, by decide +kernel, rfl⟩
    refine ⟨j, after, h, ?_⟩
    have hunified : Text.replaced ['\r'] ['\n'] (.replaced ['\r', '\n'] ['\n'] "é\r\n\r".toList) =
        "é\n\n".toList := by decide +kernel
    rw [← hunified]
    exact (writeText_read_back _ _ .fresh _ _ _ _ _ .latin1 (by decide +kernel) h).1

end TemplateSplice.Machine
