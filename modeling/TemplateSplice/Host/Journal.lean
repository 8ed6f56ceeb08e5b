import TemplateSplice.Host.Files

/-! Configuration of the journal: where records go, and from which level on. -/
namespace TemplateSplice.Host

variable {m : Type → Type} [Monad m]

/-- The place of a log file: absolute, and with one slash in front. -/
def logPath (host : Host m) (path : Path) : Action m Path := do
  if '\x00' ∈ path.text then throw (.disk .nullInName)
  else
    let path ← host.absolute path
    pure { path with anchor := .root }

/-- Makes a log file ready to be written to. -/
def openLog (host : Host m) (path : Path) : Action m Sink := do
  let path ← host.logPath path
  host.ensureParent path
  attempt (host.append path.text [])
  pure (.file path)

/-- Sends records from a level on to a file, or without one to the stream for errors. What was
configured before ends even if the file cannot be opened. -/
def configureJournal (host : Host m) (level : Text) (path : Option Path) : Action m Unit := do
  let level := Level.ofName level
  modify fun journal => journal.prepare level
  let sink ← match path with
    | none => pure .standardError
    | some path => host.openLog path
  modify fun journal => journal.install ⟨sink, level⟩

end TemplateSplice.Host
