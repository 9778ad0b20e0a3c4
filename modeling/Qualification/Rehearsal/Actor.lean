import Qualification.Catalog
/-!
# Rehearsed plugins

An actor is a plugin that does what its part says: it writes into its log, sets variables, invokes
other plugins, waits, and ends in one of the ways in which plugins end.

* `Part`, `Actor`, `Actor.plugin`;
* `Catalog.withActors`: the standard implementations, and two that build actors from entries.
-/

namespace Qualification

/-- What an actor does, in this order. -/
structure Part where
  /-- What it writes; without it, the values of its options. -/
  stdout : Option String
  stderr : String
  extra : Dict String
  env : Dict String
  invocations : List (Role × String × Dict String)
  sleepMs : Nat
  /-- The payload of its panic, and the text of that. -/
  panic : Option (Option String)
  /-- The texts of its fault, outermost first. -/
  fault : List String
  status : Int

/-- A plugin that plays a part. -/
structure Actor where
  role : Role
  display : String
  ordering : Int
  options : OptionSpec
  timeout : Option Duration
  activationFailure : Option String
  part : Part

/-- A part that succeeds. -/
def Part.idle : Part := ⟨none, "", Dict.empty, Dict.empty, [], 0, none, [], 0⟩

namespace Actor

variable {σ : Type}

/-- The values of options on one line. -/
def valuesLine (r : Resolved) : String :=
  Text.joinWith "," (r.values.toList.map fun e => e.1 ++ "=" ++ e.2)

/-- Invokes other plugins and writes what came of them into the log; the first one has a number. -/
def invokeAll (s : Services σ) : (number : Nat) → List (Role × String × Dict String) → Log →
    Act σ Log
  | _, [], log => return log
  | number, (role, key, overrides) :: rest, log => do
    let inner ← s.invoke role key overrides
    invokeAll s (number + 1) rest
      (log.withExtra s!"invoke.{number}" s!"{inner.status}|{inner.stdout}|{inner.stderr}")

/-- Plays the part. -/
def play (a : Actor) (note : String → σ → σ) (s : Services σ) (log : Log) (r : Resolved) :
    Act σ (Log × Except Fault Unit) := do
  Act.modify fun w => { w with host := note s!"execute {a.display}" w.host }
  let log := { log with
    stdout := a.part.stdout.getD (valuesLine r)
    stderr := a.part.stderr
    extra := log.extra.union a.part.extra }
  Act.modify fun w => { w with env := w.env.union a.part.env }
  let log ← invokeAll s 0 a.part.invocations log
  Act.wait a.part.sleepMs
  match a.part.panic with
  | some payload => Act.panicWith payload
  | none =>
    if a.part.fault.isEmpty then return ({ log with status := a.part.status }, .ok ())
    else return (log, .error ⟨a.part.fault⟩)

/-- The plugin that an actor is; `note` notes what is called. -/
def plugin (a : Actor) (note : String → σ → σ) : Plugin σ where
  display := a.display
  options := a.options
  timeout := a.timeout
  ordering := a.ordering
  activation := fun _ => match a.activationFailure with
    | some text => .error (.ofText text)
    | none => .ok ()
  engage := fun w => { w with host := note s!"activate {a.display}" w.host }
  execute := fun _ => a.play note
  release := fun _ w => { w with host := note s!"deactivate {a.display}" w.host }

/-- The actor of an entry; a description can make its activation fail. -/
def ofDefinition (role : Role) (display : String) (d : PluginDefinition) : Actor where
  role := role
  display := display
  ordering := d.ordering.getD 0
  options := d.options
  timeout := d.timeoutSeconds.map Duration.ofSeconds
  activationFailure := (Text.dropPrefix? "fail:".toList d.description.toList).map String.ofList
  part := Part.idle

/-- Builds an actor in the role that is asked for. -/
def probe (note : String → σ → σ) : Factory σ := fun role key d =>
  .ok (role, (ofDefinition role s!"probe/{key}" d).plugin note)

/-- Builds an actor that is a tool, whatever is asked for. -/
def asTool (note : String → σ → σ) : Factory σ := fun _ key d =>
  .ok (.tool, (ofDefinition .tool s!"astool/{key}" d).plugin note)

end Actor

/-- The standard implementations, and two that build actors. -/
def Catalog.withActors {σ : Type} (note : String → σ → σ) : Catalog σ :=
  ((Catalog.standard (σ := σ)).insert "probe" (Actor.probe note)).insert "astool" (Actor.asTool note)

end Qualification
