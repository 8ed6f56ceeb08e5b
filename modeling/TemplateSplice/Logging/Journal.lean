import TemplateSplice.Text.Digit
import TemplateSplice.Path.Basic

/-! Log records and where they go. A journal has a level and handlers; at most one handler is there
by configuration, and one more may only keep the journal from being without any. A journal without
handlers still shows warnings. -/
namespace TemplateSplice

namespace Level

def debug : Int := 10

def info : Int := 20

def warning : Int := 30

def error : Int := 40

def critical : Int := 50

/-- The levels by the names that may be asked for. -/
def byName : List (String × Int) :=
  [("DEBUG", debug), ("INFO", info), ("WARN", warning), ("WARNING", warning), ("ERROR", error),
   ("FATAL", critical), ("CRITICAL", critical), ("NOTSET", 0)]

/-- The capital of a letter that a level's name may have. Two letters beyond ASCII have ASCII
capitals of one letter that occur in the names. -/
def capital (c : Char) : Char :=
  if c = '\u0131' then 'I' else if c = '\u017F' then 'S' else c.toUpper

/-- The level of a name in any letter case; what is no name stands for warnings. -/
def ofName (name : Text) : Int :=
  (byName.lookup (String.ofList (name.map capital))).getD warning

/-- The name that a line shows for a level. -/
def shown (level : Int) : Text :=
  let names := [(debug, "DEBUG"), (info, "INFO"), (warning, "WARNING"), (error, "ERROR"),
    (critical, "CRITICAL"), (0, "NOTSET")]
  match names.lookup level with
  | some name => name.toList
  | none => "Level ".toList ++ intText level

end Level

/-- Something that happened. -/
structure Record where
  level : Int
  logger : Text
  message : Text
  deriving DecidableEq, Repr

/-- The line of a record. -/
def Record.line (r : Record) : Text := Level.shown r.level ++ ' ' :: r.logger ++ ':' :: ' ' :: r.message

/-- Where a handler takes records. -/
inductive Sink where
  | standardError
  | file (path : Path)
  /-- Nowhere. -/
  | nothing
  deriving DecidableEq, Repr

structure Handler where
  sink : Sink
  level : Int
  deriving DecidableEq, Repr

structure Journal where
  level : Int
  handlers : List Handler
  /-- The handler that is there by configuration. -/
  configured : Option Handler
  /-- Whether the handler without a destination was put in. -/
  isMuted : Bool
  deriving DecidableEq, Repr

namespace Journal

def mute : Handler := ⟨.nothing, 0⟩

/-- A journal that nothing was done to. -/
def fresh : Journal := ⟨Level.warning, [], none, false⟩

/-- The journal without the handler that is there by configuration. -/
def withoutConfigured (j : Journal) : Journal :=
  match j.configured with
  | none => j
  | some h => { j with handlers := j.handlers.erase h, configured := none }

/-- The journal as a configuration begins: the level set, the handler before taken out. -/
def prepare (j : Journal) (level : Int) : Journal := { j with level }.withoutConfigured

/-- The journal with a handler by configuration. -/
def install (j : Journal) (h : Handler) : Journal :=
  { j with handlers := j.handlers ++ [h], configured := some h }

/-- The journal with a handler that takes records nowhere, unless it has a handler. -/
def muteIfBare (j : Journal) : Journal :=
  if j.handlers ≠ [] ∨ j.isMuted then j
  else { j with handlers := [mute], isMuted := true }

/-- The journal as if nothing had been done to it. -/
def reset (j : Journal) : Journal :=
  let j := j.withoutConfigured
  { j with
    level := Level.warning
    handlers := j.handlers.filter (·.sink ≠ .nothing)
    isMuted := false }

/-- Whether a record is taken at all. -/
def takes (j : Journal) (r : Record) : Bool := 0 < r.level && j.level ≤ r.level

/-- Where a record goes, and as what text. -/
def deliver (j : Journal) (stamp : Text) (r : Record) : List (Sink × Text) :=
  if !j.takes r then []
  else if j.handlers = [] then
    if Level.warning ≤ r.level then [(.standardError, r.message ++ ['\n'])] else []
  else
    (j.handlers.filter fun h => h.level ≤ r.level).map fun h => (h.sink, stamp ++ r.line ++ ['\n'])

end Journal
end TemplateSplice
