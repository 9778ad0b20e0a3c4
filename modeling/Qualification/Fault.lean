import Qualification.Text.Cut
/-!
# Faults

A fault is why something could not be done at all: a text, and outside of it the texts of what was
being done. It is not the failure that a command reports by its status.
-/

namespace Qualification

/-- A fault: its texts, outermost first. -/
structure Fault where
  chain : List String
  deriving DecidableEq, Inhabited

namespace Fault

def ofText (s : String) : Fault := ⟨[s]⟩

/-- The fault inside something that was being done. -/
def within (f : Fault) (doing : String) : Fault := ⟨doing :: f.chain⟩

/-- All texts, outermost first. -/
def message (f : Fault) : String := Text.joinWith ": " f.chain

/-- The outermost text. -/
def outermost (f : Fault) : String := f.chain.headD ""

end Fault

end Qualification
