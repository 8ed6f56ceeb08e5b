import TemplateSplice.Text.Blank

/-! Import markers: a token, one space and a resource that runs to the end of the line without the
blanks there. Finding markers never fails; what a resource refers to is settled later. -/
namespace TemplateSplice

/-- How markers are written: the token that starts them, and what separates a path from a section
name. -/
structure MarkerStyle where
  token : Text
  delimiter : Text
  deriving DecidableEq, Repr

/-- What a marker asks for. -/
inductive MarkerKind where
  /-- Every section of another template. -/
  | wholeFile
  /-- One section of another template in place of the marker. -/
  | inline
  deriving DecidableEq, Repr

namespace MarkerKind

def name : MarkerKind → String
  | wholeFile => "whole-file"
  | inline => "inline"

end MarkerKind

/-- A marker found in a body. -/
structure Marker where
  /-- The marker as it stands in the body. -/
  text : Text
  resource : Text
  /-- The position of its first character. -/
  start : Nat
  kind : MarkerKind
  deriving DecidableEq, Repr

/-- The position just past the marker. -/
def Marker.stop (m : Marker) : Nat := m.start + m.text.length

/-- Whether a text occurs somewhere in another; the empty text occurs everywhere. -/
def Text.occursIn (part : Text) : Text → Bool
  | [] => part.isEmpty
  | c :: r => part.isPrefixOf (c :: r) || occursIn part r

/-- The blanks that do not belong to a resource at the end of its line. -/
def isLineTail (c : Char) : Bool := c == ' ' || c == '\t' || c == '\r'

/-- The resource at the start of a text: the rest of the line without the blanks at its end, but at
least one character. -/
def resourceAt? (t : Text) : Option Text :=
  let line := t.takeWhile (· ≠ '\n')
  match Text.trimRight isLineTail line with
  | [] => if line = [] then none else some (line.take 1)
  | resource => some resource

namespace MarkerStyle

/-- What a marker starts with. -/
def opening (style : MarkerStyle) : Text := style.token ++ [' ']

def kindOf (style : MarkerStyle) (resource : Text) : MarkerKind :=
  if style.delimiter.occursIn resource then .inline else .wholeFile

/-- The resource of a marker that starts here. -/
def resourceHere? (style : MarkerStyle) (t : Text) : Option Text :=
  if style.opening.isPrefixOf t then resourceAt? (t.drop style.opening.length) else none

/-- The markers in the rest of a body that starts at the given position. Some characters may still
belong to the marker before. -/
def markersFrom (style : MarkerStyle) : Nat → Nat → Text → List Marker
  | _, _, [] => []
  | position, pending + 1, _ :: r => markersFrom style (position + 1) pending r
  | position, 0, c :: r =>
    match style.resourceHere? (c :: r) with
    | some resource =>
      let text := style.opening ++ resource
      ⟨text, resource, position, style.kindOf resource⟩ ::
        markersFrom style (position + 1) (text.length - 1) r
    | none => markersFrom style (position + 1) 0 r

/-- All markers of a body, in order. -/
def markers (style : MarkerStyle) (body : Text) : List Marker := style.markersFrom 0 0 body

def wholeFileMarkers (style : MarkerStyle) (body : Text) : List Marker :=
  (style.markers body).filter (·.kind = .wholeFile)

def inlineMarkers (style : MarkerStyle) (body : Text) : List Marker :=
  (style.markers body).filter (·.kind = .inline)

end MarkerStyle
end TemplateSplice
