import Qualification.Text.Cut
/-!
# Roles of plugins

A plugin is a stage of the pipeline, a tool that stages use, or a utility that serves all of them. The
name of a plugin tells its role by a marker in it.
-/

namespace Qualification

/-- The role of a plugin. -/
inductive Role where
  | stage | tool | utility
  deriving DecidableEq, Repr, Inhabited

namespace Role

/-- All roles, in the order in which their markers are looked for. -/
def all : List Role := [stage, tool, utility]

/-- The word in a plugin's name that tells its role. -/
def marker : Role → String
  | stage => "Stage"
  | tool => "Tool"
  | utility => "Utility"

/-- The role in running text. -/
def label : Role → String
  | stage => "stage"
  | tool => "tool"
  | utility => "utility"

def ofLabel? (s : String) : Option Role := all.find? fun r => r.label == s

/-- The role of a name: the first one whose marker occurs in it. -/
def ofName? (name : String) : Option Role :=
  all.find? fun r => Text.occursIn r.marker.toList name.toList

/-- The key of a name: the name without the marker at its end. -/
def keyOf (r : Role) (name : String) : String :=
  match Text.dropSuffix? r.marker.toList name.toList with
  | some front => String.ofList front
  | none => name

end Role

end Qualification
