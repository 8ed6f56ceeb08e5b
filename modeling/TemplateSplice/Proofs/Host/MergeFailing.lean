import TemplateSplice.Proofs.Host.Look
import TemplateSplice.Proofs.Merge.Fault

/-! What may go wrong with templates. It is a problem of the templates or of the system, which is printed,
unless there is no codec of the name that the settings give, or the codec itself fails. -/
namespace TemplateSplice

namespace Problem

/-- A problem of the program's own or of the system. -/
def IsPrinted (e : Problem) : Prop := e.report.kind.isOwn = true ∨ e.report.kind.isSystem = true

/-- What may go wrong with a template in an encoding. -/
inductive OfTemplate (equipment : Equipment) (encoding : Text) : Problem → Prop
  | printed {e : Problem} (printed : e.IsPrinted) : OfTemplate equipment encoding e
  | unknownEncoding (unknown : equipment.codecOf? encoding = none) :
      OfTemplate equipment encoding (.unknownEncoding encoding)
  | nullInEncoding (null : '\x00' ∈ encoding) : OfTemplate equipment encoding .nullInEncoding
  /-- The codec cannot read some bytes, and does not call them undecodable. -/
  | codec {codec : Codec} {bytes : Bytes} {fault : Foreign}
      (named : equipment.codecOf? encoding = some codec)
      (fails : codec.decode bytes = .error (.foreign fault)) :
      OfTemplate equipment encoding (.foreign fault)

end Problem

namespace Merge

variable {style : MarkerStyle} {resource : Text} {source : Option Text} {e : Problem}

/-- A resource that is no reference is a problem of the program's own, if there is a delimiter. -/
lemma isOwn_badReference {fault : ReferenceFault} (h : fault ≠ .emptyDelimiter) :
    (Problem.badReference fault resource style.delimiter source).report.kind.isOwn = true := by
  cases fault with
  | emptyDelimiter => exact absurd rfl h
  | _ => rfl

lemma isOwn_of_wholeFilePath (h : wholeFilePath style resource source = .error e) :
    e.report.kind.isOwn = true := by
  obtain ⟨-, rfl⟩ := wholeFilePath_eq_error h
  rfl

lemma isOwn_of_inlineParts (hdelimiter : style.delimiter ≠ [])
    (h : inlineParts style resource source = .error e) : e.report.kind.isOwn = true := by
  obtain ⟨fault, hfault, rfl⟩ := inlineParts_eq_error h
  refine isOwn_badReference ?_
  rintro rfl
  unfold MarkerStyle.inlineParts at hfault
  rw [if_neg hdelimiter] at hfault
  split at hfault
  · split at hfault <;> cases hfault
  · cases hfault

lemma isOwn_of_sectionOf {allowed : AllowList} {imported : Template} {name : Text}
    (h : sectionOf allowed imported name = .error e) : e.report.kind.isOwn = true := by
  obtain ⟨-, rfl⟩ := sectionOf_eq_error h
  rfl

lemma isOwn_of_addSections {allowed : AllowList} {imported : Template} {body : Text} {names : List Text}
    (h : addSections allowed imported body names = .error e) : e.report.kind.isOwn = true := by
  induction names generalizing body with
  | nil => cases h
  | cons name names ih =>
    unfold addSections at h
    cases hs : sectionOf allowed imported name with
    | error e' =>
      rw [hs] at h
      cases h
      exact isOwn_of_sectionOf hs
    | ok contents =>
      rw [hs] at h
      change (addTo allowed body name contents >>= _) = _ at h
      cases ha : addTo allowed body name contents with
      | error e' =>
        rw [ha] at h
        cases h
        unfold addTo at ha
        split at ha <;> cases ha
        rfl
      | ok body' =>
        rw [ha] at h
        exact ih h

end Merge

end TemplateSplice
