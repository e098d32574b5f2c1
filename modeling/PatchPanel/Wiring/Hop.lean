import PatchPanel.Wiring.Wire

/-!
Hops of a wire: the places where its path enters and leaves a node. A shared wire is read from the
test host to the host under test, whichever way its path is written; an exclusive wire is read as
it is written.
-/
namespace PatchPanel

/-- The two directions of traffic on a wire. -/
inductive Direction where
  | toDut
  | toHost
  deriving DecidableEq, Repr

/-- Two neighbours on a path that lie on one node: a frame enters at `input` and leaves by
`output`. -/
structure Hop where
  input : Element
  output : Element
  deriving DecidableEq

namespace Hop

def text (h : Hop) : String :=
  "Hop: [" ++ h.input.endpoint.text ++ ", " ++ h.output.endpoint.text ++ "]"

def node (h : Hop) : String := h.input.endpoint.node

end Hop

/-- The hops of a path: all neighbours that lie on one node. -/
def hopsOf : List Element → List Hop
  | a :: b :: rest =>
    if a.endpoint.node = b.endpoint.node then ⟨a, b⟩ :: hopsOf (b :: rest) else hopsOf (b :: rest)
  | _ => []

namespace Wire

/-- The first and the last element of the path. -/
def pathEnds (w : Wire) : Except WireFault (Element × Element) :=
  match w.path.head?, w.path.getLast? with
  | some head, some last => .ok (head, last)
  | _, _ => .error w.noHops

/-- The path is written from the test host to the host under test. Its ends have to be a host edge
and a DUT edge. -/
def startsAtHost (w : Wire) : Except WireFault Bool := do
  let (head, last) ← w.pathEnds
  let head ← head.require
  let last ← last.require
  if head.port.isHostEdge && last.port.isDutEdge then .ok true
  else if head.port.isDutEdge && last.port.isHostEdge then .ok false
  else .error .ambiguous

/-- The path as it is written is read against the direction. -/
def isReversed (w : Wire) (direction : Direction) : Except WireFault Bool :=
  match w.mode, direction with
  | .exclusive, .toDut => .ok false
  | .exclusive, .toHost => .ok true
  | .shared, .toDut => w.startsAtHost.map (!·)
  | .shared, .toHost => w.startsAtHost

/-- The hops in a direction, of which there has to be one. -/
def hops (w : Wire) (direction : Direction) : Except WireFault (List Hop) := do
  let reversed ← w.isReversed direction
  match hopsOf (if reversed then w.path.reverse else w.path) with
  | [] => .error w.noHops
  | hops => .ok hops

/-- The element of the path on the switch port that faces the test host. -/
def hostEdge (w : Wire) : Except WireFault Element := do
  let (head, last) ← w.pathEnds
  let starts ← w.startsAtHost
  return if starts then head else last

end Wire
end PatchPanel
