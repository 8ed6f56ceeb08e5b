import TemplateSplice.Proofs.Host.Answer

/-! What holds of the end of an action, whether it succeeds or not: rules for the steps that actions are
made of, from one state and from all of some states. -/
namespace TemplateSplice.Machine

variable {α β : Type} {journal : Journal} {machine : Machine}

/-- However an action ends, started with a journal on a machine, a condition holds of its end. -/
def Ensures (journal : Journal) (machine : Machine) (x : Action (StateM Machine) α)
    (Q : Except Problem α → Journal → Machine → Prop) : Prop :=
  Q (ending x journal machine).1.1 (ending x journal machine).1.2 (ending x journal machine).2

variable {Q Q' : Except Problem α → Journal → Machine → Prop}
  {R : Except Problem β → Journal → Machine → Prop}

lemma ensures_pure {a : α} (h : Q (.ok a) journal machine) : Ensures journal machine (pure a) Q := h

lemma ensures_throw {e : Problem} (h : Q (.error e) journal machine) :
    Ensures journal machine (throw e) Q := h

lemma Ensures.imp {x : Action (StateM Machine) α} (h : Ensures journal machine x Q)
    (hQ : ∀ r j u, Q r j u → Q' r j u) : Ensures journal machine x Q' := hQ _ _ _ h

lemma Ensures.and {x : Action (StateM Machine) α} (h : Ensures journal machine x Q)
    (h' : Ensures journal machine x Q') :
    Ensures journal machine x fun r j u => Q r j u ∧ Q' r j u := ⟨h, h'⟩

/-- Of a sequence holds what holds of the rest after a first step that succeeds, and what holds after one
that fails. -/
lemma Ensures.bind {x : Action (StateM Machine) α} {f : α → Action (StateM Machine) β}
    (h : Ensures journal machine x Q) (hok : ∀ a j u, Q (.ok a) j u → Ensures j u (f a) R)
    (herror : ∀ e j u, Q (.error e) j u → R (.error e) j u) :
    Ensures journal machine (x >>= f) R := by
  unfold Ensures at h ⊢
  rw [ending_bind]
  cases hx : ending x journal machine with
  | mk p u =>
    obtain ⟨r, j⟩ := p
    rw [hx] at h
    cases r with
    | error e => exact herror e j u h
    | ok a => exact hok a j u h

lemma ensures_bind_of_ok {x : Action (StateM Machine) α} {f : α → Action (StateM Machine) β} {a : α}
    {j : Journal} {u : Machine} (h : ending x journal machine = ((.ok a, j), u))
    (hf : Ensures j u (f a) R) : Ensures journal machine (x >>= f) R := by
  unfold Ensures
  rw [ending_bind_of_ok h]
  exact hf

lemma ensures_run {op : StateM Machine α}
    (h : Q (.ok (op.run machine).1) journal (op.run machine).2) :
    Ensures journal machine (Host.run op) Q := h

lemma ensures_modify (f : Journal → Journal) :
    Ensures journal machine (modify f : Action (StateM Machine) Unit) fun r j u =>
      r = .ok () ∧ j = f journal ∧ u = machine := ⟨rfl, rfl, rfl⟩

/-- After something is looked up the rest goes on with what was found. -/
lemma ensures_look_bind {γ : Type} {op : FileTree → Location → Except Fault γ}
    {f : Except Fault γ → Action (StateM Machine) β}
    (h : Ensures journal machine (f (op machine.tree machine.cwd)) R) :
    Ensures journal machine (Host.run (look op) >>= f) R := ensures_bind_of_ok rfl h

lemma run_change (machine : Machine) (op : FileTree → Location → Except Fault FileTree) :
    (change op).run machine =
      match op machine.tree machine.cwd with
      | .ok t => (.ok (), { machine with tree := t })
      | .error fault => (.error fault, machine) := by
  change (match op machine.tree machine.cwd with
    | .ok tree => do
      set { machine with tree }
      pure (.ok ())
    | .error fault => pure (.error fault) : StateM Machine (Except Fault Unit)).run machine = _
  cases op machine.tree machine.cwd with
  | ok t => rfl
  | error fault => rfl

/-- A file that takes some bytes is written as a whole. -/
lemma run_write_of_taken {name : Text} {bytes : Bytes}
    (h : machine.equipment.fileLimit machine.tree name bytes = none) :
    (write name bytes).run machine = (change fun t cwd => t.writeFile cwd name bytes).run machine := by
  unfold write
  simp only [StateT.run_bind, StateT.run_get, pure_bind, h]

/-- Another one is written as far as its disk takes it. -/
lemma run_write_of_limit {name : Text} {bytes : Bytes} {count : Nat} {kind : FaultKind}
    (h : machine.equipment.fileLimit machine.tree name bytes = some (count, kind)) :
    (write name bytes).run machine =
      ((change fun t cwd => t.writeFile cwd name (bytes.take count)).run machine).map
        (fun r => r.bind fun () => .error (.stopped kind)) id := by
  unfold write
  simp only [StateT.run_bind, StateT.run_get, pure_bind, h]
  cases (change fun t cwd => t.writeFile cwd name (bytes.take count)).run machine with
  | mk r u => cases r <;> rfl

lemma ending_change (op : FileTree → Location → Except Fault FileTree) {t : FileTree}
    (h : op machine.tree machine.cwd = .ok t) :
    ending (Host.run (change op)) journal machine =
      ((.ok (.ok ()), journal), { machine with tree := t }) := by
  have hrun := run_change machine op
  rw [h] at hrun
  change ((Except.ok ((change op).run machine).1, journal), ((change op).run machine).2) = _
  rw [hrun]

lemma ending_change_error (op : FileTree → Location → Except Fault FileTree) {fault : Fault}
    (h : op machine.tree machine.cwd = .error fault) :
    ending (Host.run (change op)) journal machine = ((.ok (.error fault), journal), machine) := by
  have hrun := run_change machine op
  rw [h] at hrun
  change ((Except.ok ((change op).run machine).1, journal), ((change op).run machine).2) = _
  rw [hrun]

/-- An operation of the disk changes the tree, or it fails and changes nothing. -/
lemma ensures_change_bind {op : FileTree → Location → Except Fault FileTree}
    {f : Except Fault Unit → Action (StateM Machine) β}
    (hok : ∀ t, op machine.tree machine.cwd = .ok t →
      Ensures journal { machine with tree := t } (f (.ok ())) R)
    (herror : ∀ fault, op machine.tree machine.cwd = .error fault →
      Ensures journal machine (f (.error fault)) R) :
    Ensures journal machine (Host.run (change op) >>= f) R := by
  have hrun : Ensures journal machine (Host.run (change op)) fun r j u =>
      j = journal ∧ r = .ok ((change op).run machine).1 ∧ u = ((change op).run machine).2 :=
    ⟨rfl, rfl, rfl⟩
  refine hrun.bind (fun r j u h => ?_) fun e j u h => by simp at h
  obtain ⟨rfl, hr, rfl⟩ := h
  obtain rfl := Except.ok.inj hr
  rw [run_change]
  cases hop : op machine.tree machine.cwd with
  | ok t => exact hok t hop
  | error fault => exact herror fault hop

/-- After an action is observed the rest goes on from how it ended. -/
lemma Ensures.observe_bind {x : Action (StateM Machine) α}
    {f : Except Problem α → Action (StateM Machine) β} (h : Ensures journal machine x Q)
    (hf : ∀ r j u, Q r j u → Ensures j u (f r) R) :
    Ensures journal machine (Host.observe x >>= f) R := by
  have hobserved : Ensures journal machine (Host.observe x) fun r j u => ∃ a, r = .ok a ∧ Q a j u :=
    ⟨_, rfl, h⟩
  refine hobserved.bind (fun r j u h => ?_) fun e j u h => ?_
  · obtain ⟨a, ha, h⟩ := h
    obtain rfl := Except.ok.inj ha
    exact hf r j u h
  · obtain ⟨a, ha, _⟩ := h
    cases ha

lemma ensures_attempt_change {op : FileTree → Location → Except Fault FileTree}
    {Q : Except Problem Unit → Journal → Machine → Prop}
    (hok : ∀ t, op machine.tree machine.cwd = .ok t →
      Q (.ok ()) journal { machine with tree := t })
    (herror : ∀ fault, op machine.tree machine.cwd = .error fault →
      Q (.error (.disk fault)) journal machine) :
    Ensures journal machine (Host.attempt (change op)) Q :=
  ensures_change_bind hok herror

/-- A file is written as a whole, or as far as its disk takes it, or it is refused. -/
lemma ensures_attempt_write {name : Text} {bytes : Bytes}
    {Q : Except Problem Unit → Journal → Machine → Prop}
    (hok : ∀ t, machine.equipment.fileLimit machine.tree name bytes = none →
      machine.tree.writeFile machine.cwd name bytes = .ok t →
        Q (.ok ()) journal { machine with tree := t })
    (hcut : ∀ count kind t, machine.equipment.fileLimit machine.tree name bytes = some (count, kind) →
      machine.tree.writeFile machine.cwd name (bytes.take count) = .ok t →
        Q (.error (.disk (.stopped kind))) journal { machine with tree := t })
    (herror : ∀ bytes' fault, machine.tree.writeFile machine.cwd name bytes' = .error fault →
      Q (.error (.disk fault)) journal machine) :
    Ensures journal machine (Host.attempt (host.write name bytes)) Q := by
  have hrun : Ensures journal machine (Host.run (host.write name bytes)) fun r j u =>
      j = journal ∧ r = .ok ((write name bytes).run machine).1 ∧ u = ((write name bytes).run machine).2 :=
    ⟨rfl, rfl, rfl⟩
  refine hrun.bind (fun r j u h => ?_) fun e j u h => by cases h.2.1
  obtain ⟨rfl, hr, rfl⟩ := h
  obtain rfl := Except.ok.inj hr
  cases hlimit : machine.equipment.fileLimit machine.tree name bytes with
  | none =>
    rw [run_write_of_taken hlimit, run_change]
    cases hop : machine.tree.writeFile machine.cwd name bytes with
    | ok t => exact hok t hlimit hop
    | error fault => exact herror bytes fault hop
  | some limit =>
    obtain ⟨count, kind⟩ := limit
    rw [run_write_of_limit hlimit, run_change]
    cases hop : machine.tree.writeFile machine.cwd name (bytes.take count) with
    | ok t => exact hcut count kind t hlimit hop
    | error fault => exact herror _ fault hop

/-- Printing fails only if the output does not take the text. -/
lemma ensures_print_error (t : Text) :
    Ensures journal machine (Host.attemptPrint (host.print t)) fun r _ _ => ∀ e, r = .error e →
      ∃ count fault, machine.equipment.outputLimit machine.output t = some (count, fault) ∧
        e = .stream fault := by
  unfold Ensures
  rw [ending_print]
  cases machine.equipment.outputLimit machine.output t with
  | none => exact nofun
  | some limit => exact fun e he => ⟨limit.1, limit.2, rfl, (Except.error.inj he).symm⟩

/-- Printing an error changes nothing but the text of the errors. -/
lemma ensures_printError (t : Text) :
    Ensures journal machine (Host.attemptPrint (host.printError t)) fun _ j u =>
      j = journal ∧ ∃ errors, u = { machine with errors := errors } := by
  unfold Ensures
  rw [ending_printError]
  split <;> exact ⟨rfl, _, rfl⟩

section Keeping

variable {S : States} {P P' : α → Prop} {E E' : Problem → Prop}

/-- Wherever among some states an action starts, it ends in one of them. What it gives satisfies a
condition, and so do the problems that it fails with. -/
def Keeps (S : States) (x : Action (StateM Machine) α) (P : α → Prop) (E : Problem → Prop) : Prop :=
  ∀ journal machine, S journal machine → Ensures journal machine x fun r j u =>
    S j u ∧ (∀ a, r = .ok a → P a) ∧ ∀ e, r = .error e → E e

lemma keeps_pure {a : α} (h : P a) : Keeps S (pure a) P E :=
  fun _ _ hs => ensures_pure ⟨hs, fun _ ha => Except.ok.inj ha ▸ h, nofun⟩

lemma keeps_throw {e : Problem} (h : E e) : Keeps S (throw e : Action (StateM Machine) α) P E :=
  fun _ _ hs => ensures_throw ⟨hs, nofun, fun _ he => Except.error.inj he ▸ h⟩

/-- An action that has an answer in some states gives nothing else in them. -/
lemma AnswersFrom.keeps {x : Action (StateM Machine) α} {a : α} (h : AnswersIn S x (.ok a)) :
    Keeps S x (· = a) E := by
  intro journal machine hs
  obtain ⟨j, u, hs', hending⟩ := h journal machine hs
  unfold Ensures
  rw [hending]
  exact ⟨hs', fun _ ha => (Except.ok.inj ha).symm, nofun⟩

lemma Keeps.imp {x : Action (StateM Machine) α} (h : Keeps S x P E) (hP : ∀ a, P a → P' a)
    (hE : ∀ e, E e → E' e) : Keeps S x P' E' := fun journal machine hs =>
  (h journal machine hs).imp fun _ _ _ hr =>
    ⟨hr.1, fun a ha => hP a (hr.2.1 a ha), fun e he => hE e (hr.2.2 e he)⟩

lemma Keeps.imp_error {x : Action (StateM Machine) α} (h : Keeps S x P E) (hE : ∀ e, E e → E' e) :
    Keeps S x P E' := h.imp (fun _ => id) hE

/-- In a sequence the rest starts with something of which the condition of the first step holds. -/
lemma Keeps.bind {x : Action (StateM Machine) α} {f : α → Action (StateM Machine) β} {P' : β → Prop}
    (h : Keeps S x P E) (hf : ∀ a, P a → Keeps S (f a) P' E) : Keeps S (x >>= f) P' E := by
  intro journal machine hs
  refine (h journal machine hs).bind (fun a j u hr => hf a (hr.2.1 a rfl) j u hr.1) fun e j u hr => ?_
  exact ⟨hr.1, nofun, fun e' he' => Except.error.inj he' ▸ hr.2.2 e rfl⟩

lemma keeps_run {op : StateM Machine α}
    (h : ∀ journal machine, S journal machine → S journal (op.run machine).2 ∧ P (op.run machine).1) :
    Keeps S (Host.run op) P E := fun journal machine hs =>
  ensures_run ⟨(h journal machine hs).1, fun _ ha => Except.ok.inj ha ▸ (h journal machine hs).2, nofun⟩

lemma keeps_modify {f : Journal → Journal} (h : ∀ journal machine, S journal machine →
    S (f journal) machine) : Keeps S (modify f : Action (StateM Machine) Unit) (fun _ => True) E :=
  fun journal machine hs => ⟨h journal machine hs, fun _ _ => trivial, nofun⟩

lemma keeps_liftExcept {r : Except Problem α} (h : ∀ e, r = .error e → E e) :
    Keeps S (Host.liftExcept r) (fun a => r = .ok a) E := by
  cases r with
  | ok a => exact keeps_pure rfl
  | error e => exact keeps_throw (h e rfl)

/-- After an action is observed the rest goes on with each way in which that may end. -/
lemma Keeps.observe_bind {x : Action (StateM Machine) α} {f : Except Problem α → Action (StateM Machine) β}
    {P' : β → Prop} (h : Keeps S x P E) (hok : ∀ a, P a → Keeps S (f (.ok a)) P' E')
    (herror : ∀ e, E e → Keeps S (f (.error e)) P' E') : Keeps S (Host.observe x >>= f) P' E' := by
  intro journal machine hs
  refine (h journal machine hs).observe_bind fun r j u hr => ?_
  cases r with
  | ok a => exact hok a (hr.2.1 a rfl) j u hr.1
  | error e => exact herror e (hr.2.2 e rfl) j u hr.1

lemma keeps_mapM {γ : Type} {f : γ → Action (StateM Machine) α} {l : List γ}
    (h : ∀ c ∈ l, Keeps S (f c) (fun _ => True) E) : Keeps S (l.mapM f) (fun _ => True) E := by
  induction l with
  | nil => exact keeps_pure trivial
  | cons c l ih =>
    obtain ⟨hc, hl⟩ := List.forall_mem_cons.mp h
    rw [List.mapM_cons]
    exact hc.bind fun _ _ => (ih hl).bind fun _ _ => keeps_pure trivial

/-- A sequence that gives a value has a first step that does, and the rest goes on with that. -/
lemma Gets.of_bind {x : Action (StateM Machine) α} {f : α → Action (StateM Machine) β} {b : β}
    (h : Gets S (x >>= f) b) (hx : Keeps S x P E) : ∃ a, Gets S x a ∧ P a ∧ Gets S (f a) b := by
  obtain ⟨journal, machine, hs, h⟩ := h
  have hkeeps := hx journal machine hs
  unfold Ensures at hkeeps
  rw [ending_bind] at h
  cases hending : ending x journal machine with
  | mk p u =>
    obtain ⟨r, j⟩ := p
    rw [hending] at h hkeeps
    cases r with
    | error e => cases h
    | ok a => exact ⟨a, ⟨journal, machine, hs, by rw [hending]⟩, hkeeps.2.1 a rfl, j, u, hkeeps.1, h⟩

/-- A sequence that starts with an observed action goes on from how that ends. -/
lemma Gets.of_observe_bind {x : Action (StateM Machine) α}
    {f : Except Problem α → Action (StateM Machine) β} {b : β} (h : Gets S (Host.observe x >>= f) b)
    (hx : Keeps S x P E) :
    (∃ a, Gets S x a ∧ P a ∧ Gets S (f (.ok a)) b) ∨ ∃ e, Gets S (f (.error e)) b := by
  obtain ⟨journal, machine, hs, h⟩ := h
  have hkeeps := hx journal machine hs
  unfold Ensures at hkeeps
  cases hending : ending x journal machine with
  | mk p u =>
    obtain ⟨r, j⟩ := p
    rw [hending] at hkeeps
    rw [ending_bind_of_ok (ending_observe hending)] at h
    cases r with
    | error e => exact .inr ⟨e, j, u, hkeeps.1, h⟩
    | ok a =>
      exact .inl ⟨a, ⟨journal, machine, hs, by rw [hending]⟩, hkeeps.2.1 a rfl, j, u, hkeeps.1, h⟩

end Keeping

end TemplateSplice.Machine
