import TemplateSplice.Host.Journal
import TemplateSplice.Proofs.Host.Failing
import TemplateSplice.Proofs.Path.Normal

/-! Actions that keep a log. Such an action may make directories and write to its log file; it leaves
every other file as it was, whether it succeeds or not. -/
namespace TemplateSplice

/-- A path leads to free locations only, wherever it leads. -/
def Path.LeadsWithin (free : Location → Prop) (p : Path) : Prop :=
  ∀ (t : FileTree) cwd lead, t.Leads cwd p.text lead → free lead.location

/-- A journal takes records to no files but those at free locations. -/
def Journal.Within (free : Location → Prop) (journal : Journal) : Prop :=
  ∀ h ∈ journal.handlers, ∀ p, h.sink = .file p → p.LeadsWithin free

namespace Journal

variable {free : Location → Prop} {journal : Journal}

lemma Unfiled.within (h : journal.Unfiled) : journal.Within free :=
  fun handler hh p hp => absurd hp (h handler hh p)

lemma Within.prepare (h : journal.Within free) (level : Int) : (journal.prepare level).Within free :=
  fun handler hh => h handler (mem_of_mem_prepare hh)

lemma Within.install (h : journal.Within free) {handler : Handler}
    (hsink : ∀ p, handler.sink = .file p → p.LeadsWithin free) :
    (journal.install handler).Within free := by
  intro handler' hh
  rcases mem_of_mem_install hh with hh | rfl
  · exact h handler' hh
  · exact hsink

lemma Within.muteIfBare (h : journal.Within free) : journal.muteIfBare.Within free := by
  intro handler hh
  rcases mem_of_mem_muteIfBare hh with hh | rfl
  · exact h handler hh
  · simp [mute]

lemma Within.deliver (h : journal.Within free) (stamp : Text) (r : Record) :
    ∀ d ∈ journal.deliver stamp r, ∀ p, d.1 = .file p → p.LeadsWithin free := by
  unfold Journal.deliver
  intro d hd
  split_ifs at hd
  · simp at hd
  · obtain rfl := List.mem_singleton.mp hd
    simp
  · simp at hd
  · obtain ⟨handler, hh, rfl⟩ := List.mem_map.mp hd
    exact h handler (List.mem_filter.mp hh).1

end Journal

namespace Machine

variable {α β : Type} {free : Location → Prop} {before machine : Machine} {journal : Journal}

/-- Since some time before, only files at free locations have changed. -/
structure Since (free : Location → Prop) (before : Machine) (journal : Journal) (machine : Machine) :
    Prop where
  within : journal.Within free
  still : before.Still machine
  kept : before.tree.Kept free machine.tree

/-- An action leaves all files alone but those at free locations, and what it gives satisfies a
condition. -/
abbrev Leaves (free : Location → Prop) (before : Machine) (x : Action (StateM Machine) α)
    (P : α → Prop) : Prop :=
  Keeps (Since free before) x P fun _ => True

lemma leaves_workingDirectory :
    Leaves free before (Host.run host.workingDirectory) (· = locationText before.cwd) :=
  keeps_run fun _ _ hs => ⟨hs, by rw [← hs.still.cwd]; rfl⟩

lemma leaves_absolute (p : Path) :
    Leaves free before (host.absolute p)
      (· = ((Path.ofText (locationText before.cwd)).join p).normalize) := by
  unfold Host.absolute
  refine leaves_workingDirectory.bind fun cwd hcwd => keeps_pure ?_
  rw [hcwd]

lemma leaves_modify (f : Journal → Journal) (h : ∀ j : Journal, j.Within free → (f j).Within free) :
    Leaves free before (modify f : Action (StateM Machine) Unit) fun _ => True :=
  keeps_modify fun _ _ hs => ⟨h _ hs.within, hs.still, hs.kept⟩

section Logging

lemma Since.withTree (hs : Since free before journal machine) {t : FileTree}
    (h : machine.tree.Kept free t) : Since free before journal { machine with tree := t } :=
  ⟨hs.within, hs.still.trans (.withTree _ _), hs.kept.trans h⟩

lemma kept_of_appendFile {p : Path} {bytes : Bytes} {t : FileTree} (hp : p.LeadsWithin free)
    (h : machine.tree.appendFile machine.cwd p.text bytes = .ok t) : machine.tree.Kept free t := by
  obtain ⟨lead, hlead, hkept⟩ := FileTree.exists_of_appendFile h
  exact hkept.imp fun l hl => hl ▸ hp _ _ _ hlead

/-- Nothing that is delivered changes a file that is not free. -/
lemma Since.deliver (hs : Since free before journal machine) {d : Sink × Text}
    (hd : ∀ p, d.1 = .file p → p.LeadsWithin free) :
    Since free before journal ((host.deliver d).run machine).2 := by
  obtain ⟨sink, t⟩ := d
  cases sink with
  | standardError => exact ⟨hs.within, hs.still.trans ⟨rfl, rfl, rfl, rfl, rfl⟩, hs.kept⟩
  | nothing => exact hs
  | file p =>
    change Since free before journal
      ((change fun t' cwd => t'.appendFile cwd p.text (Utf8.encode t)).run machine).2
    rw [run_change]
    cases ha : machine.tree.appendFile machine.cwd p.text (Utf8.encode t) with
    | error fault => exact hs
    | ok t' => exact hs.withTree (kept_of_appendFile (hd p rfl) ha)

lemma Since.deliver_all {deliveries : List (Sink × Text)}
    (hd : ∀ d ∈ deliveries, ∀ p, d.1 = .file p → p.LeadsWithin free)
    (hs : Since free before journal machine) :
    ∃ u, ((deliveries.foldlM (fun _ d => liftM (host.deliver d)) PUnit.unit :
      StateT Journal (StateM Machine) PUnit).run journal).run machine = ((PUnit.unit, journal), u) ∧
        Since free before journal u := by
  induction deliveries generalizing machine with
  | nil => exact ⟨machine, rfl, hs⟩
  | cons d deliveries ih =>
    obtain ⟨hfirst, hrest⟩ := List.forall_mem_cons.mp hd
    exact ih hrest (hs.deliver hfirst)

/-- Noting something writes to the log file at most. -/
theorem answersIn_log (r : Record) :
    AnswersIn (Since free before) (ExceptT.lift (host.log r) : Action (StateM Machine) Unit)
      (.ok ()) := by
  intro journal machine hs
  have hrun : ((host.log r).run journal).run machine =
      (((journal.deliver [] r).foldlM (fun _ d => liftM (host.deliver d)) PUnit.unit :
        StateT Journal (StateM Machine) PUnit).run journal).run machine := by
    unfold Host.log
    simp
    rfl
  obtain ⟨u, hu, hsince⟩ := hs.deliver_all (hs.within.deliver [] r)
  have hending : ending (ExceptT.lift (host.log r)) journal machine =
      (fun p : (Unit × Journal) × Machine => ((Except.ok p.1.1, p.1.2), p.2))
        (((host.log r).run journal).run machine) := rfl
  refine ⟨journal, u, hsince, ?_⟩
  rw [hending, hrun, hu]

lemma frame_since (free : Location → Prop) (before : Machine) :
    Frame before.equipment (Since free before) where
  equipped hs := hs.still.equipment
  log := answersIn_log

/-- Everything may have changed since, if all locations are free. -/
lemma since_self (journal : Journal) (machine : Machine) :
    Since (fun _ => True) machine journal machine :=
  ⟨fun _ _ _ _ _ _ _ _ => trivial, .refl _, .refl _ _⟩

lemma frame_equipped (equipment : Equipment) : Frame equipment (Equipped equipment) where
  equipped := id
  log r journal machine hs := by
    obtain ⟨j, u, hsince, hending⟩ := answersIn_log r journal machine (since_self journal machine)
    exact ⟨j, u, hsince.still.equipment.trans hs, hending⟩

/-- The location of a log file that is asked for. -/
def logLocation (cwd : Location) (p : Path) : Location :=
  ((Path.ofText (locationText cwd)).join p).normalize.segments

lemma leadsWithin_log {p : Path} (hp : p.Plain) {cwd : Location} (hfree : free (logLocation cwd p)) :
    (Path.mk .root (logLocation cwd p)).LeadsWithin free := by
  intro t cwd' lead hlead
  have hordinary := ((Path.plain_ofText (locationText cwd)).join hp).ordinary
    (Path.anchor_join (anchor_locationText cwd) p)
  rw [FileTree.Leads.location_eq (p := ⟨.root, logLocation cwd p⟩) hordinary nofun hlead]
  exact hfree

lemma Leaves.of_builds {x : Action (StateM Machine) α}
    (h : ∀ journal machine, Ensures journal machine x fun _ => Builds journal machine) :
    Leaves free before x fun _ => True := by
  intro journal machine hs
  refine (h journal machine).imp fun r j u hb =>
    ⟨⟨?_, hs.still.trans hb.still, ?_⟩, fun _ _ => trivial, fun _ _ => trivial⟩
  · rw [hb.journal]
    exact hs.within
  · exact hs.kept.trans (hb.kept.imp fun _ => False.elim)

lemma leaves_openLog {p : Path} (hp : p.Plain) (hfree : free (logLocation before.cwd p)) :
    Leaves free before (host.openLog p) fun sink => ∀ q, sink = .file q → q.LeadsWithin free := by
  have hlog := leadsWithin_log hp hfree
  have hpath : Leaves free before (host.logPath p) (· = ⟨.root, logLocation before.cwd p⟩) := by
    unfold Host.logPath
    split_ifs
    · exact keeps_throw trivial
    · refine (leaves_absolute p).bind fun q hq => keeps_pure ?_
      rw [hq]
      rfl
  unfold Host.openLog
  refine hpath.bind fun q hq => ?_
  subst hq
  refine (Leaves.of_builds fun _ _ => builds_ensureParent _).bind fun _ _ => ?_
  have happend : Leaves free before
      (Host.attempt (host.append (Path.mk .root (logLocation before.cwd p)).text []))
      fun _ => True := by
    intro journal machine hs
    change Ensures journal machine (Host.attempt (change fun t cwd =>
      t.appendFile cwd (Path.mk .root (logLocation before.cwd p)).text [])) _
    exact ensures_attempt_change
      (fun t ht => ⟨hs.withTree (kept_of_appendFile hlog ht), fun _ _ => trivial, nofun⟩)
      fun fault _ => ⟨hs, nofun, fun _ _ => trivial⟩
  refine happend.bind fun _ _ => keeps_pure fun q hq => ?_
  obtain rfl := Sink.file.inj hq
  exact hlog

/-- A log file is ready to be written to: its directory is there, and in its place a file or nothing. -/
structure LogReady (machine : Machine) (p : Path) : Prop where
  clean : '\x00' ∉ p.text
  parent : machine.tree.lookup machine.cwd (Path.mk .root (logLocation machine.cwd p)).parent.text =
    .ok .directory
  file : ∃ t, machine.tree.appendFile machine.cwd (Path.mk .root (logLocation machine.cwd p)).text [] =
    .ok t

/-- Such a log file is opened. -/
lemma ending_openLog {p : Path} (h : machine.LogReady p) (journal : Journal) :
    (ending (host.openLog p) journal machine).1.1 =
      .ok (.file ⟨.root, logLocation machine.cwd p⟩) := by
  obtain ⟨t, ht⟩ := h.file
  have hpath : ending (host.logPath p) journal machine =
      ((.ok ⟨.root, logLocation machine.cwd p⟩, journal), machine) := by
    unfold Host.logPath
    rw [if_neg h.clean]
    rfl
  have happend : ending (Host.run (host.append (Path.mk .root (logLocation machine.cwd p)).text []))
      journal machine = ((.ok (.ok ()), journal), { machine with tree := t }) :=
    ending_change (fun t cwd => t.appendFile cwd (Path.mk .root (logLocation machine.cwd p)).text []) ht
  have hattempt : ending (Host.attempt (host.append (Path.mk .root (logLocation machine.cwd p)).text []))
      journal machine = ((.ok (), journal), { machine with tree := t }) :=
    (ending_bind_of_ok happend _).trans rfl
  unfold Host.openLog
  rw [ending_bind_of_ok hpath, ending_bind_of_ok (ending_ensureParent h.parent),
    ending_bind_of_ok hattempt]
  rfl

/-- Without a log file the configuration of the journal succeeds. -/
lemma configureJournal_none (level : Text) (journal : Journal) (machine : Machine) :
    (ending (host.configureJournal level none) journal machine).1.1 = .ok () := rfl

/-- With a log file it succeeds exactly if the file can be opened, and fails as that does. -/
lemma configureJournal_some (level : Text) (p : Path) (journal : Journal) (machine : Machine) :
    (ending (host.configureJournal level (some p)) journal machine).1.1 =
      (ending (host.openLog p) (journal.prepare (Level.ofName level)) machine).1.1.map fun _ => () := by
  have hprepare : ending (modify fun journal : Journal => journal.prepare (Level.ofName level))
      journal machine = ((.ok (), journal.prepare (Level.ofName level)), machine) := rfl
  unfold Host.configureJournal
  dsimp only
  rw [ending_bind_of_ok hprepare, ending_bind]
  cases ending (host.openLog p) (journal.prepare (Level.ofName level)) machine with
  | mk result u =>
    obtain ⟨r, j⟩ := result
    cases r <;> rfl

/-- Configuring the journal opens the log file at most. -/
theorem leaves_configureJournal (level : Text) {path : Option Path}
    (h : ∀ p, path = some p → p.Plain ∧ free (logLocation before.cwd p)) :
    Leaves free before (host.configureJournal level path) fun _ => True := by
  unfold Host.configureJournal
  refine (leaves_modify _ fun _ hj => hj.prepare _).bind fun _ _ => ?_
  cases path with
  | none =>
    exact (keeps_pure (P := (· = Sink.standardError)) rfl).bind fun sink hsink =>
      leaves_modify _ fun _ hj => hj.install (by simp [hsink])
  | some p =>
    obtain ⟨hp, hfree⟩ := h p rfl
    exact (leaves_openLog hp hfree).bind fun sink hsink => leaves_modify _ fun _ hj => hj.install hsink

end Logging

end Machine
end TemplateSplice
