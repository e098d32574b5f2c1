import PatchPanel.Json.Codec

/-!
Endpoints: a port on a node, by the names of both.
-/
namespace PatchPanel

/-- A port on a node, by name. -/
structure Endpoint where
  node : String
  port : String
  deriving DecidableEq, Repr, Inhabited

namespace Endpoint

def text (e : Endpoint) : String := "[" ++ e.node ++ ", " ++ e.port ++ "]"

/-- Both names, as messages put them. -/
def pairText (e : Endpoint) : String := e.node ++ "," ++ e.port

/-- An endpoint is written as the list of its two names. -/
def codec : Json.Codec Endpoint :=
  (Json.Codec.pair .string .string).convert (fun p => ⟨p.1, p.2⟩) (fun e => (e.node, e.port))

/-- The order of endpoints by node and then by port. -/
instance : Ord Endpoint := ⟨compareLex (compareOn Endpoint.node) (compareOn Endpoint.port)⟩

instance : Std.TransOrd Endpoint :=
  inferInstanceAs (Std.TransCmp (compareLex (compareOn Endpoint.node) (compareOn Endpoint.port)))

instance : Std.LawfulEqOrd Endpoint where
  eq_of_compare {a b} h := by
    change (compare a.node b.node).then (compare a.port b.port) = .eq at h
    rw [Ordering.then_eq_eq] at h
    cases a
    cases b
    simp_all

end Endpoint
end PatchPanel
