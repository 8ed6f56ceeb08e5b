import TemplateSplice.Json.Printer
import TemplateSplice.Problem.Report

/-! What commands print: JSON, or plain text for people. -/
namespace TemplateSplice.Command

structure Output where
  asJson : Bool
  /-- The indent of JSON, or none for one line. -/
  indent : Option Nat
  deriving DecidableEq, Repr

namespace Output

/-- The output of a command. -/
def ofMode (asJson : Bool) : Output := ⟨asJson, some 2⟩

/-- A value as JSON. -/
def json (o : Output) (v : Value) : Text := Json.text o.indent v ++ ['\n']

/-- A text for people, which is left out of JSON output. -/
def text (o : Output) (message stop : Text) : Text := if o.asJson then [] else message ++ stop

/-- A result: its data after its status, or a message. -/
def success (o : Output) (data : Members) (message : Text) (status : String) : Text :=
  if o.asJson then o.json (.object (Members.ofPairs (("status", .str status) :: data)))
  else message ++ ['\n']

/-- A problem, under a word that says what failed. A message may stand in for its own. -/
def failure (o : Output) (report : Report) (message : Option String) (word : String) : Text :=
  let shown := match message with
    | some s => if s = "" then report.message else s
    | none => report.message
  if o.asJson then
    let own : Members := match report.kind.code? with
      | some code => [("code", .str code), ("context", .object report.context)]
      | none => []
    let shown : Members := [("error", .str word), ("message", .str shown)]
    o.json (.object (shown ++ own))
  else "Error: ".toList ++ shown.toList ++ ['\n']

end Output
end TemplateSplice.Command
