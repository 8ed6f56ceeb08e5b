import TemplateSplice.Command.Merge
import TemplateSplice.Proofs.Host.Look
import TemplateSplice.Proofs.Schema.Names

/-! What a command does before it prints or writes anything. Unless it is given a log file it only looks
at the machine, and the settings that it goes by satisfy the schema. -/
namespace TemplateSplice

namespace Journal

variable {journal : Journal}

lemma Unfiled.prepare (h : journal.Unfiled) (level : Int) : (journal.prepare level).Unfiled :=
  fun handler hh => h handler (mem_of_mem_prepare hh)

lemma Unfiled.install (h : journal.Unfiled) (level : Int) :
    (journal.install ⟨.standardError, level⟩).Unfiled := by
  intro handler hh
  rcases mem_of_mem_install hh with hh | rfl
  · exact h handler hh
  · simp

lemma Unfiled.muteIfBare (h : journal.Unfiled) : journal.muteIfBare.Unfiled := by
  intro handler hh
  rcases mem_of_mem_muteIfBare hh with hh | rfl
  · exact h handler hh
  · simp [mute]

end Journal

namespace Machine

variable {machine : Machine} {request : Command.Request}

/-- Without a log file the configuration of the journal changes nothing but the journal. -/
lemma answers_configure (hlog : Command.givenPath request.logFile = none) (settings : Value) :
    Answers machine (Command.configure host request settings) (.ok ()) := by
  unfold Command.configure
  rw [hlog]
  dsimp only
  split
  · exact answers_modify _ fun _ hj => hj.muteIfBare
  · unfold Host.configureJournal
    exact (answers_modify _ fun _ hj => hj.prepare _).bind
      ((answers_pure _).bind (answers_modify _ fun _ hj => hj.install _))

lemma looks_requestedSettings (request : Command.Request) :
    Looks machine (Command.loadSettings host request) := by
  unfold Command.loadSettings
  exact answers_environment.looks.bind fun environment => looks_loadSettings environment _ true

lemma answers_templateSettings {S : States} {settings : Value} {fields : Settings.TemplateFields}
    (hf : Settings.TemplateFields.ofSettings settings = .ok fields) :
    AnswersIn S (Command.templateSettings settings) (.ok (fields.texts?.getD .default)) := by
  unfold Command.templateSettings
  rw [hf]
  exact answers_pure _

lemma exists_of_templateSettings {S : States} {settings : Value} {template : Settings.Template}
    (h : Gets S (Command.templateSettings settings) template) :
    ∃ fields, Settings.TemplateFields.ofSettings settings = .ok fields ∧
      fields.texts?.getD .default = template := by
  unfold Command.templateSettings at h
  split at h
  · next fields hf => exact ⟨fields, hf, h.eq_of_pure⟩
  · exact absurd h (not_gets_throw _ _)

/-- Under settings of a command there are rules to merge by. -/
lemma exists_rules_of_templateSettings {settings : Value} {template : Settings.Template}
    (h : Answers machine (Command.templateSettings settings) (.ok template)) :
    ∃ rules, Rules.ofSettings template = .ok rules ∧ rules.style = template.style := by
  obtain ⟨fields, hf, rfl⟩ := exists_of_templateSettings h.yields
  refine ⟨⟨⟨_, Settings.texts_sections_ne_nil hf⟩, (fields.texts?.getD .default).style⟩, ?_, rfl⟩
  unfold Rules.ofSettings AllowList.ofList?
  rw [dif_neg (Settings.texts_sections_ne_nil hf)]

lemma Yields.of_liftExcept {α : Type} {r : Except Problem α} {a : α}
    (h : Yields machine (Host.liftExcept r) a) : r = .ok a :=
  (answers_liftExcept r).unique (h.answers (looks_liftExcept r))

/-- Settings that a command goes by satisfy the schema. -/
lemma admits_of_requestedSettings {settings : Value}
    (h : Yields machine (Command.loadSettings host request) settings) :
    Schema.settings.Admits settings := by
  obtain ⟨environment, _, h⟩ := h.of_bind answers_environment.looks
  unfold Host.loadSettings at h
  obtain ⟨p, _, h⟩ := h.of_bind (looks_settingsFile _ _)
  obtain ⟨layered, _, h⟩ := h.of_bind (looks_layeredSettings p)
  split at h
  · exact absurd h (not_gets_throw _ _)
  · have hchecked := Yields.of_liftExcept h
    unfold Host.checkSettings at hchecked
    split at hchecked
    · next hnone =>
      cases hchecked
      exact Schema.admits_of_violations hnone
    · cases hchecked

/-- Without a settings file and variables the settings are those that come with the program. -/
lemma answers_requestedSettings (hfile : Command.givenPath request.settings = none)
    (henvironment : machine.environment = []) :
    Answers machine (Command.loadSettings host request) (.ok Settings.bundled) := by
  have hvalid : Host.checkSettings Settings.bundled none = .ok Settings.bundled := by
    have hnone : Schema.settings.violations Settings.bundled = [] := by
      unfold Schema.violations
      rw [show Schema.settings.violationsAt [] Settings.bundled = [] by decide +kernel]
      exact List.mergeSort_nil
    unfold Host.checkSettings
    rw [hnone]
  have hown : Answers machine (Host.run host.environment) (.ok []) := henvironment ▸ answers_environment
  have hnone : Settings.override Settings.bundled [] = (Settings.bundled, none) := by
    unfold Settings.override Settings.overrides
    rw [List.filter_nil, List.mergeSort_nil]
    rfl
  unfold Command.loadSettings Host.loadSettings
  rw [hfile]
  refine hown.bind ((answers_pure none).bind ((answers_pure _).bind ?_))
  rw [hnone]
  exact hvalid ▸ answers_liftExcept _

section Merging

variable {settings : Value} {template : Settings.Template} {rules : Rules} {name : TemplateName}
  {result : Merged}

lemma lift_bind_liftExcept {α β : Type} (x : StateT Journal (StateM Machine) (Except Problem α))
    (f : α → Action (StateM Machine) β) :
    (ExceptT.lift x >>= fun outcome => Host.liftExcept outcome >>= f) = ExceptT.mk x >>= f := by
  refine ExceptT.ext ?_
  simp only [ExceptT.run_bind, ExceptT.run_lift, ExceptT.run_mk, bind_map_left]
  refine bind_congr fun r => ?_
  cases r <;> rfl

/-- A merge that is asked for takes place under the settings of the request. -/
lemma answers_mergeRequested (hlog : Command.givenPath request.logFile = none)
    (hs : Answers machine (Command.loadSettings host request) (.ok settings))
    (ht : Answers machine (Command.templateSettings settings) (.ok template))
    (hr : Rules.ofSettings template = .ok rules)
    (hn : Answers machine (Command.templateName host (request.file.getD [])) (.ok name))
    (hm : Answers machine (ExceptT.mk (merge (host.templates template.encoding) rules .init name))
      (.ok result)) :
    Answers machine (Command.mergeRequested host request) (.ok (settings, template, result)) := by
  have hrules : Answers machine (Host.liftExcept (Rules.ofSettings template)) (.ok rules) :=
    hr ▸ answers_liftExcept _
  unfold Command.mergeRequested
  refine hs.bind ((answers_configure hlog settings).bind (ht.bind (hrules.bind (hn.bind ?_))))
  rw [lift_bind_liftExcept]
  exact hm.bind (answers_pure _)

end Merging

end Machine
end TemplateSplice
