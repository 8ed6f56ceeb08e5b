import Mathlib.Tactic.Lemma
import TemplateSplice.Host.Files
import TemplateSplice.Host.Machine

/-! Actions that only look at a machine. Such an action has one answer for a machine, whatever was
noted before, and leaves nothing behind but records: in the journal, or printed where errors go. So
what several of them find out on one machine fits together, and a sequence of them has the answer that
its steps give one after the other. A command that only looks may print what it found out. -/
namespace TemplateSplice

/-- A journal that takes records to no file. -/
def Journal.Unfiled (journal : Journal) : Prop := ∀ h ∈ journal.handlers, ∀ p, h.sink ≠ .file p

lemma Journal.unfiled_fresh : Journal.fresh.Unfiled := by simp [Unfiled, fresh]

namespace Journal

variable {journal : Journal} {handler handler' : Handler}

lemma mem_of_mem_prepare {level : Int} (h : handler ∈ (journal.prepare level).handlers) :
    handler ∈ journal.handlers := by
  unfold prepare withoutConfigured at h
  split at h
  · exact h
  · exact List.mem_of_mem_erase h

lemma mem_of_mem_install (h : handler ∈ (journal.install handler').handlers) :
    handler ∈ journal.handlers ∨ handler = handler' :=
  (List.mem_append.mp h).imp_right List.mem_singleton.mp

lemma mem_of_mem_muteIfBare (h : handler ∈ journal.muteIfBare.handlers) :
    handler ∈ journal.handlers ∨ handler = mute := by
  unfold muteIfBare at h
  split at h
  · exact .inl h
  · exact .inr (List.mem_singleton.mp h)

end Journal

namespace Machine

variable {α β : Type} {machine : Machine}

/-- How an action ends: its result, the journal and the machine. -/
def ending (x : Action (StateM Machine) α) (journal : Journal) (machine : Machine) :
    (Except Problem α × Journal) × Machine := (x.run.run journal).run machine

lemma ending_bind (x : Action (StateM Machine) α) (f : α → Action (StateM Machine) β)
    (journal : Journal) (machine : Machine) :
    ending (x >>= f) journal machine =
      match ending x journal machine with
      | ((.ok a, journal), machine) => ending (f a) journal machine
      | ((.error e, journal), machine) => ((.error e, journal), machine) := by
  change (match (x.run.run journal).run machine with
    | ((r, j), u) => ((ExceptT.bindCont f r).run j).run u) = _
  unfold ending
  cases (x.run.run journal).run machine with
  | mk p u =>
    cases p with
    | mk r j => cases r <;> rfl

/-- After a first step that succeeds a sequence ends as the rest does. -/
lemma ending_bind_of_ok {x : Action (StateM Machine) α} {a : α} {journal j : Journal} {u : Machine}
    (h : ending x journal machine = ((.ok a, j), u)) (f : α → Action (StateM Machine) β) :
    ending (x >>= f) journal machine = ending (f a) j u := by rw [ending_bind, h]

lemma ending_observe {x : Action (StateM Machine) α} {r : Except Problem α} {journal j : Journal}
    {u : Machine} (h : ending x journal machine = ((r, j), u)) :
    ending (Host.observe x) journal machine = ((.ok r, j), u) := by
  change ((Except.ok (ending x journal machine).1.1, (ending x journal machine).1.2),
    (ending x journal machine).2) = _
  rw [h]

/-- The states of a run: what the journal may be, and the machine. -/
abbrev States := Journal → Machine → Prop

/-- An action has an answer from some states on: wherever among them it starts, it ends with the answer and
in one of the states after. -/
def AnswersFrom (S S' : States) (x : Action (StateM Machine) α) (answer : Except Problem α) : Prop :=
  ∀ journal machine, S journal machine → ∃ journal' machine', S' journal' machine' ∧
    ending x journal machine = ((answer, journal'), machine')

/-- An action has an answer in some states: it has the answer from them on, and stays in them. -/
abbrev AnswersIn (S : States) (x : Action (StateM Machine) α) (answer : Except Problem α) : Prop :=
  AnswersFrom S S x answer

/-- The states in which a machine is as it was but for the text of the errors, and no record goes to a file. -/
def At (machine : Machine) : States :=
  fun journal u => journal.Unfiled ∧ ∃ errors, u = { machine with errors := errors }

lemma at_fresh (machine : Machine) : At machine .fresh machine :=
  ⟨Journal.unfiled_fresh, machine.errors, rfl⟩

lemma At.cwd {journal : Journal} {u : Machine} (h : At machine journal u) : u.cwd = machine.cwd := by
  obtain ⟨_, _, rfl⟩ := h
  rfl

/-- An action answers a machine: it ends with the answer whatever was noted before, and changes nothing
but the journal and the text of the errors. -/
abbrev Answers (machine : Machine) (x : Action (StateM Machine) α) (answer : Except Problem α) : Prop :=
  AnswersIn (At machine) x answer

/-- An action only looks at a machine: it has an answer. -/
def Looks (machine : Machine) (x : Action (StateM Machine) α) : Prop :=
  ∃ answer, Answers machine x answer

lemma AnswersFrom.looks {x : Action (StateM Machine) α} {answer : Except Problem α}
    (h : Answers machine x answer) : Looks machine x := ⟨answer, h⟩

lemma AnswersFrom.exists_ending {x : Action (StateM Machine) α} {answer : Except Problem α}
    (h : Answers machine x answer) :
    ∃ j errors, ending x .fresh machine = ((answer, j), { machine with errors := errors }) := by
  obtain ⟨j, _, ⟨_, errors, rfl⟩, he⟩ := h .fresh machine (at_fresh machine)
  exact ⟨j, errors, he⟩

/-- An action has one answer. -/
lemma AnswersFrom.unique {x : Action (StateM Machine) α} {a a' : Except Problem α}
    (h : Answers machine x a) (h' : Answers machine x a') : a = a' := by
  obtain ⟨j, e, he⟩ := h.exists_ending
  obtain ⟨j', e', he'⟩ := h'.exists_ending
  rw [he] at he'
  injection he' with he' _
  injection he'

section AnswersFrom

variable {S S' S'' : States}

lemma answersIn_of_ending_eq {x : Action (StateM Machine) α} {answer : Except Problem α}
    (h : ∀ journal u, S journal u → ending x journal u = ((answer, journal), u)) :
    AnswersIn S x answer :=
  fun journal u hs => ⟨journal, u, hs, h journal u hs⟩

lemma answers_of_ending_eq {x : Action (StateM Machine) α} {answer : Except Problem α}
    (h : ∀ journal errors, ending x journal { machine with errors := errors } =
      ((answer, journal), { machine with errors := errors })) : Answers machine x answer := by
  refine answersIn_of_ending_eq fun journal u hs => ?_
  obtain ⟨_, errors, rfl⟩ := hs
  exact h journal errors

lemma answers_pure (a : α) : AnswersIn S (pure a) (.ok a) := answersIn_of_ending_eq fun _ _ _ => rfl

lemma answers_throw (e : Problem) : AnswersIn S (throw e : Action (StateM Machine) α) (.error e) :=
  answersIn_of_ending_eq fun _ _ _ => rfl

lemma answers_liftExcept (r : Except Problem α) : AnswersIn S (Host.liftExcept r) r := by
  cases r with
  | ok a => exact answers_pure a
  | error e => exact answers_throw e

lemma answers_observe {x : Action (StateM Machine) α} {answer : Except Problem α}
    (h : AnswersFrom S S' x answer) : AnswersFrom S S' (Host.observe x) (.ok answer) := by
  intro journal machine hs
  obtain ⟨journal', machine', hs', he⟩ := h journal machine hs
  exact ⟨journal', machine', hs', ending_observe he⟩

lemma AnswersFrom.bind {x : Action (StateM Machine) α} {f : α → Action (StateM Machine) β} {a : α}
    {answer : Except Problem β} (h : AnswersFrom S S' x (.ok a)) (hf : AnswersFrom S' S'' (f a) answer) :
    AnswersFrom S S'' (x >>= f) answer := by
  intro journal machine hs
  obtain ⟨j, u, hs', he⟩ := h journal machine hs
  obtain ⟨j', u', hs'', he'⟩ := hf j u hs'
  exact ⟨j', u', hs'', by rw [ending_bind, he, ← he']⟩

lemma AnswersFrom.bind_error {x : Action (StateM Machine) α} {e : Problem}
    (h : AnswersFrom S S' x (.error e)) (f : α → Action (StateM Machine) β) :
    AnswersFrom S S' (x >>= f) (.error e) := by
  intro journal machine hs
  obtain ⟨j, u, hs', he⟩ := h journal machine hs
  exact ⟨j, u, hs', by rw [ending_bind, he]⟩

end AnswersFrom

lemma Looks.bind {x : Action (StateM Machine) α} {f : α → Action (StateM Machine) β}
    (hx : Looks machine x) (hf : ∀ a, Looks machine (f a)) : Looks machine (x >>= f) := by
  obtain ⟨answer, hx⟩ := hx
  cases answer with
  | error e => exact (hx.bind_error f).looks
  | ok a =>
    obtain ⟨answer, hf⟩ := hf a
    exact (hx.bind hf).looks

/-- An action gives a value in some states: there is one among them from which it ends so. -/
def Gets (S : States) (x : Action (StateM Machine) α) (a : α) : Prop :=
  ∃ journal machine, S journal machine ∧ (ending x journal machine).1.1 = .ok a

/-- An action yields a value on a machine, for what was noted before in some run. -/
abbrev Yields (machine : Machine) (x : Action (StateM Machine) α) (a : α) : Prop := Gets (At machine) x a

lemma Yields.answers {x : Action (StateM Machine) α} {a : α} (h : Yields machine x a)
    (hx : Looks machine x) : Answers machine x (.ok a) := by
  obtain ⟨journal, u, hs, h⟩ := h
  obtain ⟨answer, hx⟩ := hx
  obtain ⟨_, _, _, he⟩ := hx journal u hs
  rw [he] at h
  exact h ▸ hx

lemma AnswersFrom.yields {x : Action (StateM Machine) α} {a : α} (h : Answers machine x (.ok a)) :
    Yields machine x a := by
  obtain ⟨_, _, he⟩ := h.exists_ending
  exact ⟨.fresh, machine, at_fresh machine, by rw [he]⟩

lemma yields_of_toOption {x : Action (StateM Machine) α} {a : α}
    (h : (ending x .fresh machine).1.1.toOption = some a) : Yields machine x a := by
  refine ⟨.fresh, machine, at_fresh machine, ?_⟩
  cases hx : (ending x .fresh machine).1.1 with
  | error e =>
    rw [hx] at h
    cases h
  | ok b =>
    rw [hx] at h
    exact congrArg Except.ok (Option.some.inj h)

lemma Gets.eq_of_pure {S : States} {a b : α} (h : Gets S (pure a) b) : a = b := by
  obtain ⟨_, _, _, h⟩ := h
  exact Except.ok.inj h

lemma not_gets_throw {S : States} (e : Problem) (a : α) : ¬ Gets S (throw e) a := by
  rintro ⟨_, _, _, h⟩
  cases h

lemma Gets.mono {S S' : States} {x : Action (StateM Machine) α} {a : α} (h : Gets S x a)
    (hs : ∀ j u, S j u → S' j u) : Gets S' x a := by
  obtain ⟨journal, u, hstate, h⟩ := h
  exact ⟨journal, u, hs journal u hstate, h⟩

/-- A sequence that gives a value has a first step that succeeds, if that has an answer, and the rest goes on
from where the first step ends. -/
lemma Gets.of_bind_answers {S S' : States} {x : Action (StateM Machine) α}
    {f : α → Action (StateM Machine) β} {r : Except Problem α} {b : β} (h : Gets S (x >>= f) b)
    (hx : AnswersFrom S S' x r) : ∃ a, r = .ok a ∧ Gets S' (f a) b := by
  obtain ⟨journal, u, hs, h⟩ := h
  obtain ⟨journal', u', hs', he⟩ := hx journal u hs
  rw [Machine.ending_bind, he] at h
  cases r with
  | error e => cases h
  | ok a => exact ⟨a, rfl, journal', u', hs', h⟩

/-- A sequence whose first step only looks goes on from the same machine with what that step answers. -/
lemma Yields.of_bind {x : Action (StateM Machine) α} {f : α → Action (StateM Machine) β} {b : β}
    (h : Yields machine (x >>= f) b) (hx : Looks machine x) :
    ∃ a, Answers machine x (.ok a) ∧ Yields machine (f a) b := by
  obtain ⟨answer, hx⟩ := hx
  obtain ⟨a, rfl, h⟩ := h.of_bind_answers hx
  exact ⟨a, hx, h⟩

lemma Gets.of_map {S : States} {x : Action (StateM Machine) α} {f : α → β} {b : β}
    (h : Gets S (x >>= fun a => pure (f a)) b) : ∃ a, Gets S x a ∧ f a = b := by
  obtain ⟨journal, u, hs, h⟩ := h
  rw [Machine.ending_bind] at h
  cases hx : ending x journal u with
  | mk p u' =>
    rw [hx] at h
    obtain ⟨r, journal'⟩ := p
    cases r with
    | error e => cases h
    | ok a => exact ⟨a, ⟨journal, u, hs, by rw [hx]⟩, Except.ok.inj h⟩

/-- An action prints a text from some states on: it gives a value and adds the text to the output, and but for
that it ends in one of the states after. -/
def PrintsFrom (S S' : States) (x : Action (StateM Machine) α) (a : α) (t : Text) : Prop :=
  ∀ journal machine, S journal machine → ∃ journal' machine', S' journal' machine' ∧
    ending x journal machine = ((.ok a, journal'), { machine' with output := machine'.output ++ t })

/-- A text is printed as far as the output takes it, and what it does not take is a problem. -/
lemma ending_print (t : Text) (journal : Journal) (u : Machine) :
    ending (Host.attemptPrint (host.print t)) journal u =
      match u.equipment.outputLimit u.output t with
      | none => ((.ok (), journal), { u with output := u.output ++ t })
      | some (count, fault) =>
        ((.error (.stream fault), journal), { u with output := u.output ++ t.take count }) := by
  have hprint : ending (Host.run (host.print t)) journal u =
      ((.ok (taken u.output t (u.equipment.outputLimit u.output t)).2, journal),
        { u with output := (taken u.output t (u.equipment.outputLimit u.output t)).1 }) := rfl
  unfold Host.attemptPrint
  rw [ending_bind_of_ok hprint]
  cases u.equipment.outputLimit u.output t <;> rfl

/-- The same holds of the text of the errors. -/
lemma ending_printError (t : Text) (journal : Journal) (u : Machine) :
    ending (Host.attemptPrint (host.printError t)) journal u =
      match u.equipment.errorLimit u.errors t with
      | none => ((.ok (), journal), { u with errors := u.errors ++ t })
      | some (count, fault) =>
        ((.error (.stream fault), journal), { u with errors := u.errors ++ t.take count }) := by
  have hprint : ending (Host.run (host.printError t)) journal u =
      ((.ok (taken u.errors t (u.equipment.errorLimit u.errors t)).2, journal),
        { u with errors := (taken u.errors t (u.equipment.errorLimit u.errors t)).1 }) := rfl
  unfold Host.attemptPrint
  rw [ending_bind_of_ok hprint]
  cases u.equipment.errorLimit u.errors t <;> rfl

/-- What the output takes is printed. -/
lemma ending_print_of_taken {t : Text} {journal : Journal} {u : Machine}
    (h : u.equipment.outputLimit u.output t = none) :
    ending (Host.attemptPrint (host.print t)) journal u =
      ((.ok (), journal), { u with output := u.output ++ t }) := by rw [ending_print, h]

lemma prints_print {S : States} {t : Text}
    (h : ∀ journal u, S journal u → u.equipment.outputLimit u.output t = none) (a : α) :
    PrintsFrom S S (Host.attemptPrint (host.print t) >>= fun _ => pure a) a t := by
  intro journal u hs
  exact ⟨journal, u, hs, (ending_bind_of_ok (ending_print_of_taken (h journal u hs)) _).trans rfl⟩

/-- After an action that has an answer, the rest prints what it prints. -/
lemma AnswersFrom.prints_bind {S S' S'' : States} {x : Action (StateM Machine) α}
    {f : α → Action (StateM Machine) β} {a : α} {b : β} {t : Text} (h : AnswersFrom S S' x (.ok a))
    (hf : PrintsFrom S' S'' (f a) b t) : PrintsFrom S S'' (x >>= f) b t := by
  intro journal machine hs
  obtain ⟨j, u, hs', he⟩ := h journal machine hs
  obtain ⟨j', u', hs'', he'⟩ := hf j u hs'
  exact ⟨j', u', hs'', by rw [Machine.ending_bind, he, ← he']⟩

end Machine
end TemplateSplice
