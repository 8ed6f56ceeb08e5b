import TemplateSplice.Proofs.Host.Failing
import TemplateSplice.Proofs.Host.Log

/-! Calls that change where records go. Whatever calls there were, and whether they succeeded or not, a
journal has at most the handler that the last configuration put in, and at most one without a
destination. So a record goes to one place at most; and once there was a call to mute a bare journal, it
has a handler until it is configured or reset. -/
namespace TemplateSplice

namespace Journal

/-- The handlers are the one without a destination, if it was put in, and then the one that is there by
configuration, which has a destination. -/
structure Orderly (journal : Journal) : Prop where
  handlers : journal.handlers =
    (if journal.isMuted then [mute] else []) ++ journal.configured.toList
  sink : ∀ h ∈ journal.configured, h.sink ≠ .nothing

variable {journal : Journal} {handler : Handler}

lemma orderly_fresh (level : Int) : Orderly { fresh with level } := ⟨rfl, by simp [fresh]⟩

lemma sink_of_mem_mute {isMuted : Bool} (h : handler ∈ if isMuted then [mute] else []) :
    handler.sink = .nothing := by
  split_ifs at h
  · rw [List.mem_singleton.mp h]
    rfl
  · cases h

lemma filter_mute (isMuted : Bool) :
    (if isMuted then [mute] else []).filter (·.sink ≠ .nothing) = [] :=
  List.filter_eq_nil_iff.mpr fun _ h => by simp [sink_of_mem_mute h]

section Calls

lemma Orderly.withoutConfigured_eq (h : journal.Orderly) :
    journal.withoutConfigured =
      { journal with handlers := if journal.isMuted then [mute] else [], configured := none } := by
  have hhandlers := h.handlers
  unfold withoutConfigured
  cases hc : journal.configured with
  | none =>
    rw [hc, Option.toList_none, List.append_nil] at hhandlers
    dsimp only
    rw [← hhandlers, ← hc]
  | some handler =>
    have hnew : handler ∉ if journal.isMuted then [mute] else [] :=
      fun hm => h.sink handler hc (sink_of_mem_mute hm)
    dsimp only
    rw [hhandlers, hc, List.erase_append_right _ hnew]
    simp

lemma Orderly.prepare_eq (h : journal.Orderly) (level : Int) :
    journal.prepare level =
      ⟨level, if journal.isMuted then [mute] else [], none, journal.isMuted⟩ := by
  have hlevel : Orderly { journal with level } := ⟨h.handlers, h.sink⟩
  exact hlevel.withoutConfigured_eq

lemma Orderly.prepare (h : journal.Orderly) (level : Int) : (journal.prepare level).Orderly := by
  rw [h.prepare_eq]
  exact ⟨(List.append_nil _).symm, by simp⟩

lemma Orderly.configured_prepare (h : journal.Orderly) (level : Int) :
    (journal.prepare level).configured = none := by rw [h.prepare_eq]

lemma Orderly.install (h : journal.Orderly) (hc : journal.configured = none)
    (hs : handler.sink ≠ .nothing) : (journal.install handler).Orderly := by
  have hhandlers := h.handlers
  rw [hc, Option.toList_none, List.append_nil] at hhandlers
  refine ⟨congrArg (· ++ [handler]) hhandlers, fun h' hh => ?_⟩
  obtain rfl := Option.some.inj hh
  exact hs

/-- After a reset nothing has been done to a journal. -/
lemma Orderly.reset_eq (h : journal.Orderly) : journal.reset = fresh := by
  unfold reset
  rw [h.withoutConfigured_eq]
  dsimp only
  rw [filter_mute]
  rfl

lemma configured_muteIfBare (journal : Journal) :
    journal.muteIfBare.configured = journal.configured := by
  unfold muteIfBare
  split <;> rfl

lemma Orderly.muteIfBare (h : journal.Orderly) : journal.muteIfBare.Orderly := by
  unfold Journal.muteIfBare
  split_ifs with hbare
  · exact h
  · obtain ⟨hnil, -⟩ := not_or.mp hbare
    have hconfigured := (List.append_eq_nil_iff.mp (h.handlers ▸ Decidable.not_not.mp hnil)).2
    refine ⟨?_, h.sink⟩
    rw [hconfigured]
    rfl

/-- A journal that is muted if it is bare is not bare. -/
lemma Orderly.handlers_muteIfBare_ne_nil (h : journal.Orderly) :
    journal.muteIfBare.handlers ≠ [] := by
  unfold Journal.muteIfBare
  split_ifs with hbare
  · rcases hbare with hne | hmuted
    · exact hne
    · rw [h.handlers, hmuted]
      simp
  · simp

end Calls

section Destinations

lemma Orderly.filter_sink_ne (h : journal.Orderly) :
    journal.handlers.filter (·.sink ≠ .nothing) = journal.configured.toList := by
  have hconfigured : journal.configured.toList.filter (·.sink ≠ .nothing) = journal.configured.toList :=
    List.filter_eq_self.mpr fun handler hh => decide_eq_true (h.sink handler (Option.mem_toList.mp hh))
  rw [h.handlers, List.filter_append, filter_mute, hconfigured, List.nil_append]

lemma Orderly.filter_sink_eq (h : journal.Orderly) :
    journal.handlers.filter (·.sink = .nothing) = if journal.isMuted then [mute] else [] := by
  have hmute : ((if journal.isMuted then [mute] else []).filter (·.sink = .nothing)) =
      if journal.isMuted then [mute] else [] :=
    List.filter_eq_self.mpr fun _ hm => decide_eq_true (sink_of_mem_mute hm)
  have hconfigured : journal.configured.toList.filter (·.sink = .nothing) = [] :=
    List.filter_eq_nil_iff.mpr fun handler hh => by simp [h.sink handler (Option.mem_toList.mp hh)]
  rw [h.handlers, List.filter_append, hmute, hconfigured, List.append_nil]

/-- A record goes to one destination at most. -/
lemma Orderly.length_deliver_le (h : journal.Orderly) (stamp : Text) (r : Record) :
    ((journal.deliver stamp r).filter (·.1 ≠ .nothing)).length ≤ 1 := by
  unfold Journal.deliver
  split_ifs
  · simp
  · simp
  · simp
  · -- The handlers that take the record to a destination are some of those with a destination.
    rw [List.filter_map, List.length_map]
    have hsome : ((journal.handlers.filter fun handler => handler.level ≤ r.level).filter
        (·.sink ≠ .nothing)).Sublist journal.configured.toList := by
      rw [← h.filter_sink_ne]
      exact List.filter_sublist.filter _
    refine Nat.le_trans hsome.length_le ?_
    cases journal.configured <;> simp

end Destinations

end Journal

namespace Machine

variable {journal : Journal} {machine : Machine}

/-- Where configured records go: to a file seen from the working directory, or without one to the stream
for errors. -/
def logSink (machine : Machine) : Option Path → Sink
  | none => .standardError
  | some p => .file ⟨.root, logLocation machine.cwd p⟩

lemma logSink_ne_nothing (machine : Machine) (path : Option Path) :
    machine.logSink path ≠ .nothing := by cases path <;> simp [logSink]

section Configuring

/-- Opening a log file leaves the journal as it is. -/
lemma ensures_openLog (p : Path) :
    Ensures journal machine (host.openLog p) fun r j _ =>
      j = journal ∧ ∀ sink, r = .ok sink → sink = machine.logSink (some p) := by
  have hpath : Ensures journal machine (host.logPath p) fun r j _ =>
      j = journal ∧ ∀ q, r = .ok q → q = ⟨.root, logLocation machine.cwd p⟩ := by
    unfold Host.logPath
    split_ifs
    · exact ensures_throw ⟨rfl, fun _ hr => by cases hr⟩
    · refine (ensures_absolute p).bind (fun q j u h => ?_) fun e j u h => by cases h.1
      obtain ⟨hq, rfl, -⟩ := h
      exact ensures_pure ⟨rfl, fun _ hr => by rw [← Except.ok.inj hr, Except.ok.inj hq]; rfl⟩
  unfold Host.openLog
  refine hpath.bind (fun q j u h => ?_) fun e j u h => ⟨h.1, fun _ hr => by cases hr⟩
  obtain ⟨rfl, hq⟩ := h
  obtain rfl := hq q rfl
  refine (builds_ensureParent _).bind (fun _ j u h => ?_) fun e j u h =>
    ⟨h.journal, fun _ hr => by cases hr⟩
  obtain rfl := h.journal
  have happend : Ensures j u
      (Host.attempt (host.append (Path.mk .root (logLocation machine.cwd p)).text []))
      fun _ j' _ => j' = j := by
    change Ensures j u (Host.attempt (change fun t cwd =>
      t.appendFile cwd (Path.mk .root (logLocation machine.cwd p)).text [])) _
    exact ensures_attempt_change (fun _ _ => rfl) fun _ _ => rfl
  refine happend.bind (fun _ j' u' h => ?_) fun e j' u' h => ⟨h, fun _ hr => by cases hr⟩
  exact ensures_pure ⟨h, fun _ hr => (Except.ok.inj hr).symm⟩

/-- A configuration that succeeds puts its handler in; one that fails has taken out the handler before. -/
theorem ensures_configureJournal (name : Text) (path : Option Path) :
    let prepared := journal.prepare (Level.ofName name)
    Ensures journal machine (host.configureJournal name path) fun r j _ =>
      match r with
      | .ok () => j = prepared.install ⟨machine.logSink path, Level.ofName name⟩
      | .error _ => j = prepared := by
  intro prepared
  unfold Host.configureJournal
  refine (ensures_modify _).bind (fun _ j u h => ?_) fun e j u h => by cases h.1
  obtain ⟨-, rfl, rfl⟩ := h
  cases path with
  | none => exact rfl
  | some p =>
    refine (ensures_openLog p).bind (fun sink j u' h => ?_) fun e j u' h => h.1
    obtain ⟨rfl, hsink⟩ := h
    obtain rfl := hsink sink rfl
    exact rfl

end Configuring

/-- A call that changes where records go. -/
inductive JournalCall where
  | configure (level : Text) (path : Option Path)
  /-- Keeps a bare journal from showing records. -/
  | mute
  | reset
  deriving DecidableEq, Repr

namespace JournalCall

def action : JournalCall → Action (StateM Machine) Unit
  | configure level path => host.configureJournal level path
  | mute => modify Journal.muteIfBare
  | reset => modify Journal.reset

/-- The handler that is there by configuration after a call, from what was there before and from how the
call came out. -/
def configured (machine : Machine) (before : Option Handler) (outcome : Except Problem Unit) :
    JournalCall → Option Handler
  | configure level path =>
    outcome.toOption.map fun _ => ⟨machine.logSink path, Level.ofName level⟩
  | mute => before
  | reset => none

/-- The outcome of a call. -/
def outcome (call : JournalCall) (journal : Journal) (machine : Machine) : Except Problem Unit :=
  (ending call.action journal machine).1.1

/-- The journal after a call, whether it succeeds or not. -/
def after (call : JournalCall) (journal : Journal) (machine : Machine) : Journal :=
  (ending call.action journal machine).1.2

end JournalCall

/-- The journal after some calls, whether they succeed or not. Each one is made on a machine of its own:
anything may happen to the machine between two calls. -/
def journalAfter (journal : Journal) (calls : List (JournalCall × Machine)) : Journal :=
  calls.foldl (fun journal c => c.1.after journal c.2) journal

lemma journalAfter_cons (journal : Journal) (c : JournalCall × Machine)
    (calls : List (JournalCall × Machine)) :
    journalAfter journal (c :: calls) = journalAfter (c.1.after journal c.2) calls := rfl

lemma journalAfter_append (journal : Journal) (calls calls' : List (JournalCall × Machine)) :
    journalAfter journal (calls ++ calls') = journalAfter (journalAfter journal calls) calls' :=
  List.foldl_append

section Steps

/-- A call succeeds, unless it is to keep a log in a file that is not ready. -/
theorem outcome_eq_ok {call : JournalCall}
    (h : ∀ level p, call = .configure level (some p) → machine.LogReady p) :
    call.outcome journal machine = .ok () := by
  cases call with
  | configure level path =>
    cases path with
    | none => exact configureJournal_none level journal machine
    | some p =>
      refine (configureJournal_some level p journal machine).trans ?_
      rw [ending_openLog (h level p rfl)]
      rfl
  | mute => rfl
  | reset => rfl

/-- A call leaves the handlers in order, and by configuration the handler that it is to leave. -/
lemma orderly_after (h : journal.Orderly) (call : JournalCall) (machine : Machine) :
    (call.after journal machine).Orderly ∧ (call.after journal machine).configured =
      call.configured machine journal.configured (call.outcome journal machine) := by
  cases call with
  | configure name path =>
    -- Between the old handler and the new one the journal is `prepare`d; a failure leaves it so.
    have hend : Ensures journal machine (host.configureJournal name path) _ :=
      ensures_configureJournal name path
    obtain ⟨r, j, u, he⟩ : ∃ r j u,
        ending (host.configureJournal name path) journal machine = ((r, j), u) := ⟨_, _, _, rfl⟩
    have hafter : (JournalCall.configure name path).after journal machine = j :=
      congrArg (·.1.2) he
    have houtcome : (JournalCall.configure name path).outcome journal machine = r :=
      congrArg (·.1.1) he
    rw [Ensures, he] at hend
    rw [hafter, houtcome]
    cases r with
    | ok _ =>
      obtain rfl := hend
      exact ⟨(h.prepare _).install (h.configured_prepare _) (logSink_ne_nothing _ _), rfl⟩
    | error e =>
      obtain rfl := hend
      exact ⟨h.prepare _, h.configured_prepare _⟩
  | mute => exact ⟨h.muteIfBare, journal.configured_muteIfBare⟩
  | reset =>
    have hreset : JournalCall.reset.after journal machine = .fresh := h.reset_eq
    rw [hreset]
    exact ⟨Journal.orderly_fresh Level.warning, rfl⟩

/-- Calls leave the handlers in order. -/
theorem orderly_journalAfter (h : journal.Orderly) (calls : List (JournalCall × Machine)) :
    (journalAfter journal calls).Orderly := by
  induction calls generalizing journal with
  | nil => exact h
  | cons c calls ih => exact ih (orderly_after h c.1 c.2).1

/-- Once a journal has a handler, there is nothing to mute. -/
lemma journalAfter_mute (h : journal.handlers ≠ []) (machines : List Machine) :
    journalAfter journal (machines.map (.mute, ·)) = journal := by
  induction machines with
  | nil => rfl
  | cons machine machines ih =>
    have hmute : JournalCall.mute.after journal machine = journal := if_pos (.inl h)
    rw [List.map_cons, journalAfter_cons, hmute, ih]

end Steps

/-- After any calls on a journal without handlers, whatever each of them came to, the handlers with a
destination are the one that is there by configuration, if there is one, and those without are the one
that mutes, if it is noted to have been put in. What is there by configuration follows the calls: a
configuration that succeeds puts its handler in, and one that fails, like a reset, leaves none. So a
record reaches one destination at most, and from a call to mute on there is a handler until the next
configuration or reset. -/
theorem handlers_after_calls (level : Int) (calls : List (JournalCall × Machine)) :
    let start := { Journal.fresh with level }
    let journal := journalAfter start calls
    journal.handlers.filter (·.sink ≠ .nothing) = journal.configured.toList ∧
      journal.handlers.filter (·.sink = .nothing) =
        (if journal.isMuted then [Journal.mute] else []) ∧
      (∀ call machine, (journalAfter start (calls ++ [(call, machine)])).configured =
        call.configured machine journal.configured (call.outcome journal machine)) ∧
      (∀ stamp r, ((journal.deliver stamp r).filter (·.1 ≠ .nothing)).length ≤ 1) ∧
      ∀ machine machines,
        (journalAfter start (calls ++ (machine :: machines).map (.mute, ·))).handlers ≠ [] := by
  intro start journal
  have h : journal.Orderly := orderly_journalAfter (Journal.orderly_fresh level) calls
  refine ⟨h.filter_sink_ne, h.filter_sink_eq, fun call machine => ?_, h.length_deliver_le,
    fun machine machines => ?_⟩
  · rw [journalAfter_append]
    exact (orderly_after h call machine).2
  · have hne : (JournalCall.mute.after journal machine).handlers ≠ [] :=
      h.handlers_muteIfBare_ne_nil
    rw [journalAfter_append, List.map_cons, journalAfter_cons, journalAfter_mute hne]
    exact hne

/-- A log file that cannot be opened, between a call that shows records and one that mutes, and then one
that can. -/
example :
    let root := Path.ofText "/".toList
    let calls : List JournalCall := [.configure "info".toList none, .configure "info".toList (some root),
      .mute, .configure "debug".toList (some (.ofText "a.log".toList)), .mute]
    (journalAfter .fresh (calls.map (·, bare))).handlers =
      [Journal.mute, ⟨.file (.ofText "/a.log".toList), Level.debug⟩] := by decide

end Machine

end TemplateSplice
