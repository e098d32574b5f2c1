import PatchPanel.Endpoint
import PatchPanel.Json.Record

/-!
The form of a wire file: wires with their paths, and groups of wires. All keys are optional here so
that a missing one can be named.
-/
namespace PatchPanel

/-- A wire as a file has it. -/
structure WireEntry where
  mode : Option String
  path : Option (List Endpoint)
  testHostPort : Option Endpoint
  dutHostPort : Option Endpoint
  deriving DecidableEq, Repr

/-- A group of wires as a file has it. -/
structure GroupEntry where
  id : Option UInt64
  wires : Option (List String)
  deriving DecidableEq, Repr

/-- A wire file. -/
structure WireFile where
  wires : Option (Index WireEntry)
  groups : Option (Index GroupEntry)
  deriving DecidableEq

open Json (Codec Field Fields)

def WireEntry.codec : Codec WireEntry :=
  Codec.record "struct WireDefinition" false
    (.cons (.optional "mode" .string) <|
      .cons (.optional "path" (.list Endpoint.codec)) <|
      .cons (.optional "test-host-port" Endpoint.codec) <|
      .cons (.optional "dut-host-port" Endpoint.codec) .nil)
    (fun (mode, path, testHostPort, dutHostPort, _) => ⟨mode, path, testHostPort, dutHostPort⟩)
    (fun w => (w.mode, w.path, w.testHostPort, w.dutHostPort, ()))

def GroupEntry.codec : Codec GroupEntry :=
  Codec.record "struct WireGroupDefinition" false
    (.cons (.optional "id" .word64) <|
      .cons (.optional "wires" (.list .string)) .nil)
    (fun (id, wires, _) => ⟨id, wires⟩) (fun g => (g.id, g.wires, ()))

def WireFile.codec : Codec WireFile :=
  Codec.record "struct WireInfo" false
    (.cons (.optional "wire-index" (.index WireEntry.codec)) <|
      .cons (.optional "wire-group-index" (.index GroupEntry.codec)) .nil)
    (fun (wires, groups, _) => ⟨wires, groups⟩) (fun f => (f.wires, f.groups, ()))

end PatchPanel
