import PatchPanel.Endpoint
import Std.Data.TreeMap

/-!
Links between endpoints. A link has no direction: from either of its ends it leads to the other
one. A link table finds the link of an endpoint without a walk over all links.
-/
namespace PatchPanel

/-- A link between two endpoints. -/
structure Link where
  first : Endpoint
  second : Endpoint
  deriving DecidableEq, Repr

namespace Link

def text (l : Link) : String := "Link: [" ++ l.first.text ++ ", " ++ l.second.text ++ "]"

/-- The other end of the link, seen from one of its ends. -/
def farEnd? (l : Link) (e : Endpoint) : Option Endpoint :=
  if e = l.first then some l.second else if e = l.second then some l.first else none

/-- A link is written as the list of its ends. -/
def codec : Json.Codec Link :=
  (Json.Codec.pair Endpoint.codec Endpoint.codec).convert
    (fun p => ⟨p.1, p.2⟩) (fun l => (l.first, l.second))

end Link

/-- Links in order, with the position of the first link of each endpoint. -/
structure LinkTable where
  links : List Link
  position : Std.TreeMap Endpoint Nat

namespace LinkTable

/-- The positions with those of a link at position `i`; an endpoint keeps an earlier position. -/
def addLink (position : Std.TreeMap Endpoint Nat) (l : Link) (i : Nat) :
    Std.TreeMap Endpoint Nat :=
  (position.insertIfNew l.first i).insertIfNew l.second i

def ofLinks (links : List Link) : LinkTable :=
  ⟨links, links.zipIdx.foldl (fun position l => addLink position l.1 l.2) ∅⟩

/-- The far end of the first link that has the endpoint. -/
def farEnd? (table : LinkTable) (e : Endpoint) : Option Endpoint := do
  let i ← table.position[e]?
  let l ← table.links[i]?
  l.farEnd? e

end LinkTable
end PatchPanel
