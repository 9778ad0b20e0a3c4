import Qualification.Log
/-!
# Parents of sections

A section may name a parent: a section title or the key of a stage. It is held back unless the parent
has run and all of its logs are successes.

* `parentOf?`, `relatedLogs`, `heldBack?`.
-/

namespace Qualification

/-- The parent that a section names. -/
def parentOf? (values : Dict String) : Option String :=
  ((values.get? "parent").map Text.trim).filter fun p => p != ""

/-- The logs of a parent: those of the section with its title or else those of the stage. -/
def relatedLogs (parent : String) (logs : List Log) : List Log :=
  let ofSection := logs.filter fun l => l.section_ == parent
  if ofSection.isEmpty then logs.filter fun l => l.stage == parent else ofSection

/-- The log of a section that is held back, after the logs so far. -/
def heldBack? (stage title : String) (values : Dict String) (logs : List Log) : Option Log :=
  match parentOf? values with
  | none => none
  | some parent =>
    let related := relatedLogs parent logs
    if related.isEmpty then
      some ((Log.new stage title).fail skippedStatus s!"Parent stage '{parent}' did not run")
    else
      (related.find? fun l => !l.succeeded).map fun failed =>
        (Log.new stage title).fail failed.status
          s!"Parent stage '{parent}' failed: {describeStatus failed.status}"

end Qualification
