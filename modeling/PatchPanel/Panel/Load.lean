import PatchPanel.Panel
import PatchPanel.Storage

/-!
Loading a panel from its two files.
-/
namespace PatchPanel

/-- Why a panel cannot be loaded. -/
inductive LoadFault where
  | file (path : String) (fault : FileFault)
  | json (path : String) (fault : Json.Fault)
  | definition (fault : DefinitionFault)
  deriving DecidableEq, Repr

/-- The messages about a failed loading, the outermost first. -/
def LoadFault.messages : LoadFault → List String
  | .file path fault => ["Failed to read '" ++ path ++ "'", fault.message]
  | .json path fault => [path ++ ": json parse error: " ++ fault.message]
  | .definition fault => [fault.message]

def loadJson {m : Type → Type} [Monad m] {α : Type} (storage : Storage m) (codec : Json.Codec α)
    (path : String) : m (Except LoadFault α) := do
  match (← storage.read path).bind readText with
  | .error fault => return .error (.file path fault)
  | .ok text => return (Json.decode codec text.toList).mapError (.json path)

/-- Load the panel of a topology file and a wire file. The topology file is read first. -/
def Panel.load {m : Type → Type} [Monad m] (storage : Storage m) (version : Version)
    (topologyPath wirePath : String) : m (Except LoadFault Panel) := do
  match ← loadJson storage TopologyFile.codec topologyPath with
  | .error fault => return .error fault
  | .ok topology =>
    match ← loadJson storage WireFile.codec wirePath with
    | .error fault => return .error fault
    | .ok wires => return (Panel.ofFiles version topology wires).mapError .definition

end PatchPanel
