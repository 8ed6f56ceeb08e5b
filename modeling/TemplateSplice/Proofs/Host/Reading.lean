import TemplateSplice.Proofs.Disk.Effect
import TemplateSplice.Proofs.Host.Merge
import TemplateSplice.Proofs.Merge.Report

/-! Reading of templates from the disk of a machine. A file whose bytes are a text in an encoding is a
template that the machine offers, with its line ends unified. Without markers it is merged as it is. -/
namespace TemplateSplice.Machine

variable {machine : Machine} {journal : Journal} {encoding : Text} {rules : Rules} {p : Path}
  {bytes : Bytes}

section Files

lemma answers_look {α : Type} (machine : Machine) (op : FileTree → Location → Except Fault α) :
    Answers machine (Host.run (look op)) (.ok (op machine.tree machine.cwd)) :=
  answers_of_ending_eq fun _ _ => rfl

lemma ending_look {α : Type} (journal : Journal) (machine : Machine)
    (op : FileTree → Location → Except Fault α) :
    ending (Host.run (look op)) journal machine =
      ((.ok (op machine.tree machine.cwd), journal), machine) := rfl

lemma ending_directory? (h : machine.tree.readFile machine.cwd p.text = .ok bytes) :
    ending (host.directory? p.text) journal machine = ((.ok (some false), journal), machine) := by
  have hlook := ending_look journal machine fun t cwd =>
    (t.lookup cwd p.text).map fun entry => decide (entry = Entry.directory)
  rw [FileTree.lookup_of_readFile h] at hlook
  exact (ending_bind_of_ok hlook _).trans rfl

/-- The text of a file that is there is read, its line ends unified. -/
lemma ending_readText {codec : Codec} {t : Text}
    (h : machine.tree.readFile machine.cwd p.text = .ok bytes) (hnull : '\x00' ∉ encoding)
    (hcodec : machine.equipment.codecOf? encoding = some codec) (hd : codec.decode bytes = .ok t) :
    ending (host.readText p encoding) journal machine =
      ((.ok t.unifyLineEnds, journal), machine) := by
  have hholds : ending (host.holds p) journal machine = ((.ok true, journal), machine) :=
    (ending_bind_of_ok (ending_directory? h) _).trans rfl
  have hread := ending_look journal machine fun t cwd => t.readFile cwd p.text
  rw [h] at hread
  have hattempt : ending (Host.attempt (host.read p.text)) journal machine =
      ((.ok bytes, journal), machine) := (ending_bind_of_ok hread _).trans rfl
  have hfound := ending_codecOf encoding journal machine
  rw [hcodec] at hfound
  unfold Host.readText Host.checkEncodingName
  rw [ending_bind_of_ok hholds, if_neg hnull]
  refine (ending_bind_of_ok rfl _).trans ((ending_bind_of_ok hattempt _).trans ?_)
  rw [ending_bind_of_ok hfound, hd]
  rfl

/-- It is read as a template. -/
lemma ending_readTemplate {codec : Codec} {t : Text}
    (h : machine.tree.readFile machine.cwd p.text = .ok bytes) (hnull : '\x00' ∉ encoding)
    (hcodec : machine.equipment.codecOf? encoding = some codec) (hd : codec.decode bytes = .ok t) :
    ending (host.readTemplate encoding p) journal machine =
      ((.ok t.unifyLineEnds, journal), machine) :=
  (ending_bind_of_ok (ending_observe (ending_readText h hnull hcodec hd)) _).trans rfl

/-- The file at a path of a machine reads as a text in an encoding. -/
def ReadsAs (machine : Machine) (encoding : Text) (p : Path) (text : Text) : Prop :=
  ∃ bytes codec t, machine.tree.readFile machine.cwd p.text = .ok bytes ∧ '\x00' ∉ encoding ∧
    machine.equipment.codecOf? encoding = some codec ∧ codec.decode bytes = .ok t ∧ t.unifyLineEnds = text

/-- A file that reads as a text in all of some states is offered in them. -/
lemma offersIn_of_readsAs {S : States} {text : Text} (h : ∀ j u, S j u → u.ReadsAs encoding p text) :
    OffersIn S encoding p text where
  holds := answersIn_of_ending_eq fun j u hs => by
    obtain ⟨_, _, _, hfile, -⟩ := h j u hs
    exact (ending_bind_of_ok (ending_directory? hfile) _).trans rfl
  reads := answersIn_of_ending_eq fun j u hs => by
    obtain ⟨_, _, _, hfile, hnull, hcodec, hd, rfl⟩ := h j u hs
    exact ending_readTemplate hfile hnull hcodec hd

/-- A machine offers what its files read as. -/
theorem ReadsAs.offers {text : Text} (h : machine.ReadsAs encoding p text) :
    Offers machine encoding p text :=
  offersIn_of_readsAs fun _ _ ⟨_, _, hu⟩ => hu ▸ h

end Files

section Names

/-- The path in normal form that a name means in a working directory. -/
def absolutePath (cwd : Location) (t : Text) : Path :=
  ((Path.ofText (locationText cwd)).join (.ofText t)).normalize

lemma isPlace_absolutePath (cwd : Location) (t : Text) : (absolutePath cwd t).IsPlace where
  normal := ((Path.plain_ofText (locationText cwd)).join (Path.plain_ofText t)).isNormal_normalize
  absolute := Path.anchor_join (anchor_locationText cwd) (Path.ofText t)

/-- The name of the template that a text means in a working directory. -/
def templateNameIn (cwd : Location) (t : Text) : TemplateName :=
  if Text.strip t = [] then .text t else .text (absolutePath cwd t).text

lemma answers_templateName {S : States} {cwd : Location} (h : ∀ j u, S j u → u.cwd = cwd) (t : Text) :
    AnswersIn S (Command.templateName host t) (.ok (templateNameIn cwd t)) := by
  have hcwd : AnswersIn S (Host.run host.workingDirectory) (.ok (locationText cwd)) :=
    answersIn_of_ending_eq fun j u hs => by
      rw [← h j u hs]
      rfl
  have habsolute : AnswersIn S (host.absolute (.ofText t)) (.ok (absolutePath cwd t)) :=
    hcwd.bind (answers_pure _)
  unfold Command.templateName templateNameIn
  split_ifs
  · exact answers_pure _
  · exact habsolute.bind (answers_pure _)

/-- A template that is no blank is looked for at its absolute path. -/
lemma normal_templateNameIn {t : Text} (h : Text.strip t ≠ []) (cwd : Location) :
    (templateNameIn cwd t).normal = absolutePath cwd t := by
  unfold templateNameIn
  rw [if_neg h]
  exact ((Path.plain_ofText (locationText cwd)).join (Path.plain_ofText t)).normalize_ofText_text

lemma not_isBlank_templateNameIn {t : Text} (h : Text.strip t ≠ []) (cwd : Location) :
    ¬ (templateNameIn cwd t).isBlank = true := by
  refine TemplateName.not_isBlank ?_
  rw [normal_templateNameIn h]
  exact (isPlace_absolutePath cwd t).absolute

lemma isPlace_normal_templateNameIn {t : Text} {cwd : Location} (h : ¬ (templateNameIn cwd t).isBlank = true) :
    (templateNameIn cwd t).normal.IsPlace := by
  by_cases ht : Text.strip t = []
  · refine absurd ?_ h
    simp [templateNameIn, ht, TemplateName.isBlank, TemplateName.shown]
  · rw [normal_templateNameIn ht]
    exact isPlace_absolutePath cwd t

end Names

section Merging

variable {α β : Type} {stage next : Stage}

lemma answers_during {work : Action (StateM Machine) α} {a : α} {r : Except Problem β}
    {rest : α → StateT Journal (StateM Machine) (Except Problem β)}
    (hwork : Answers machine work (.ok a)) (hrest : Answers machine (ExceptT.mk (rest a)) r) :
    Answers machine (ExceptT.mk (Merge.during (host.templates encoding) stage next work rest)) r := by
  rw [mk_during]
  exact (answers_observe hwork).bind ((answers_log _).bind hrest)

/-- A template without markers is merged as it is. -/
theorem answers_merge_of_no_markers {name : TemplateName} {text : Text} (before : Stage)
    (hnamed : ¬ name.isBlank = true) (h : Offers machine encoding name.normal text)
    (hm : rules.style.markers text = []) :
    Answers machine (ExceptT.mk (merge (host.templates encoding) rules before name))
      (.ok ⟨text, name.normal, []⟩) := by
  have hwhole : Answers machine
      (Merge.wholeFiles (host.templates encoding) rules ⟨text, name.normal⟩) (.ok (text, [])) := by
    unfold Merge.wholeFiles MarkerStyle.wholeFileMarkers
    rw [hm]
    exact answers_pure _
  have hinline : Answers machine
      (Merge.inlines (host.templates encoding) rules ⟨text, name.normal⟩ text) (.ok (text, [])) := by
    unfold Merge.inlines MarkerStyle.inlineMarkers
    rw [hm]
    exact (answers_pure ([], [])).bind (answers_pure _)
  unfold merge
  rw [mk_bind]
  refine (answers_log _).bind (answers_during (answers_openTemplate hnamed h)
    (answers_during hwhole (answers_during hinline ?_)))
  dsimp only
  rw [mk_bind]
  exact (answers_log _).bind (answers_pure _)

end Merging

end TemplateSplice.Machine
