/-!
# The order of stages

Two lists side by side, the names of stages and their ordering keys, ascending by key; of equal keys
the one inserted last stands first. The place of a new key is found by halving.

* `Order.bisect`, `Order.partitionPoint`: the search for a place;
* `Order.insert`, `Order.take?`, `Order.remove`, `Order.keyOf?`, `Order.names`, `Order.entries`.
-/

namespace Qualification

/-- Names and ordering keys in the order of execution; equal places belong together. -/
structure Order where
  names : List String
  keys : List Int
  deriving DecidableEq

namespace Order

def empty : Order := ⟨[], []⟩

instance : Inhabited Order := ⟨empty⟩

/-- Names with their keys, in the order of execution. -/
def entries (o : Order) : List (String × Int) := o.names.zip o.keys

/-- The place of a name. -/
def position? (o : Order) (name : String) : Option Nat := o.names.findIdx? (· == name)

/-- The ordering key of a name. -/
def keyOf? (o : Order) (name : String) : Option Int := (o.position? name).bind fun i => o.keys[i]?

/-- Takes a name out, and tells its key. -/
def take? (o : Order) (name : String) : Option (Int × Order) := do
  let i ← o.position? name
  let key ← o.keys[i]?
  return (key, ⟨o.names.eraseIdx i, o.keys.eraseIdx i⟩)

/-- The order without a name. -/
def remove (o : Order) (name : String) : Order :=
  match o.take? name with
  | some (_, o) => o
  | none => o

/-- Halves a range of places until one is left: where the key in the middle is below, the upper half
goes on, and else the lower one. -/
def bisect (below : Int → Bool) (keys : List Int) (base size : Nat) : Nat :=
  if size ≤ 1 then base
  else
    let middle := base + size / 2
    bisect below keys (if keys[middle]?.any below then middle else base) (size - size / 2)
termination_by size
decreasing_by omega

/-- How many keys are below, where these are the first ones. -/
def partitionPoint (below : Int → Bool) (keys : List Int) : Nat :=
  if keys.isEmpty then 0
  else
    let i := bisect below keys 0 keys.length
    if keys[i]?.any below then i + 1 else i

/-- The order with a name at a key; an earlier entry of the name is gone. -/
def insert (o : Order) (name : String) (key : Int) : Order :=
  let o := o.remove name
  let i := partitionPoint (· < key) o.keys
  ⟨o.names.insertIdx i name, o.keys.insertIdx i key⟩

def contains (o : Order) (name : String) : Bool := o.names.any (· == name)

def size (o : Order) : Nat := o.names.length

def isEmpty (o : Order) : Bool := o.names.isEmpty

end Order

end Qualification
