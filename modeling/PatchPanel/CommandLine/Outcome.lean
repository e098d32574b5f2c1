import PatchPanel.CommandLine.Invocation
import PatchPanel.Panel.Load
import PatchPanel.Configuration

/-!
What becomes of a call of the program: the text that it prints, its exit code, and the messages
about what went wrong. The files and the input are parameters.
-/
namespace PatchPanel.CommandLine

/-- Why a task cannot be done. -/
inductive TaskFault where
  | config (fault : ConfigLoadFault)
  | noPhysical
  | noLogical
  | load (fault : LoadFault)
  | definition (fault : DefinitionFault)
  | compile (fault : CompileFault)
  | body (path : String) (fault : FileFault)
  | input (fault : FileFault)
  | request (fault : RequestFault)
  | version (fault : ControllerFault)
  | build (fault : BuildFault)
  | output (path : String) (fault : FileFault)
  deriving DecidableEq, Repr

/-- The messages about a task that cannot be done, the outermost first. -/
def TaskFault.messages : TaskFault → List String
  | .config fault => fault.messages
  | .noPhysical => ["Physical topology file is required (--physical or compile.physical)"]
  | .noLogical => ["Logical topology file is required (--logical or compile.logical)"]
  | .load fault => fault.messages
  | .definition fault => [fault.message]
  | .compile fault => fault.messages
  | .body path fault => ["Failed to read '" ++ path ++ "'", fault.message]
  | .input fault => ["Failed to read request body from stdin", fault.message]
  | .request fault => [fault.message]
  | .version fault => [fault.message]
  | .build fault => fault.messages
  | .output path fault => ["Failed to write '" ++ path ++ "'", fault.message]

/-- The files of a panel and how it is compiled. -/
structure PanelSettings where
  physical : String
  logical : String
  selection : Selection
  version : Version
  deriving DecidableEq, Repr

/-- The settings of a panel: the options first, then the configuration, then all wires and the first
version. The files have to be named. -/
def PanelOptions.settings (o : PanelOptions) (c : CompileSettings) :
    Except TaskFault PanelSettings :=
  match o.physical.or c.physical, o.logical.or c.logical with
  | none, _ => .error .noPhysical
  | some _, none => .error .noLogical
  | some physical, some logical =>
    .ok ⟨physical, logical, (o.selection.or c.selection).getD .all,
      (o.version.or c.version).getD .v10⟩

variable {m : Type → Type} [Monad m]

/-- Load the panel of options and a configuration, and say which wires of it are compiled. -/
def loadPanel (storage : Storage m) (o : PanelOptions) (c : CompileSettings) :
    m (Except TaskFault (Panel × Selection)) := do
  match o.settings c with
  | .error fault => return .error fault
  | .ok s =>
    match ← Panel.load storage s.version s.physical s.logical with
    | .error fault => return .error (.load fault)
    | .ok panel => return .ok (panel, s.selection)

/-- The written form of a result: indented JSON and a line end. -/
def written (j : Json) : String := j.toPrettyText ++ "\n"

/-- Write a result to a file, or print it. -/
def deliver (storage : Storage m) (path : Option String) (result : Except TaskFault Json) :
    m (Except TaskFault String) := do
  match result, path with
  | .error fault, _ => return .error fault
  | .ok j, none => return .ok (written j)
  | .ok j, some path =>
    match ← storage.write path (written j) with
    | .error fault => return .error (.output path fault)
    | .ok () => return .ok ""

def requestsResult (p : Panel) (selection : Selection) : Except TaskFault Json :=
  match p.requests selection with
  | .ok requests => .ok ((Json.Codec.switchMap Request.codec).write requests)
  | .error fault => .error (.definition fault)

/-- The flow modifications of a panel as JSON. -/
def flowModsResult (p : Panel) (selection : Selection) (command : Command) (deny : Bool) :
    Except TaskFault Json :=
  match p.flowMods selection command deny with
  | .ok mods => .ok ((Json.Codec.list FlowMod.codec).write mods)
  | .error fault => .error (.compile fault)

def VersionChoice.version : VersionChoice → Except TaskFault Version
  | .tagged version => .ok version
  | .negotiated n => (PatchPanel.negotiated n).mapError .version

/-- The rules of the request in a body as JSON. The body is read before the version is checked. -/
def rulesResult (choice : VersionChoice) (body : String) : Except TaskFault Json := do
  let r ← (Request.ofText body.toList).mapError .request
  let version ← choice.version
  let rules ← (build version r).mapError .build
  return (Json.Codec.list (Rule.codec 0)).write rules

/-- The body of a request, out of a file or the input. -/
def readBody (storage : Storage m) (input : m ByteArray) :
    Option String → m (Except TaskFault String)
  | some path => do return ((← storage.read path).bind readText).mapError (.body path)
  | none => do return (readText (← input)).mapError .input

def Task.run (storage : Storage m) (input : m ByteArray) (c : Configuration) :
    Task → m (Except TaskFault String)
  | .generate o => do
    let panel ← loadPanel storage o c.compile
    deliver storage o.output (panel.bind fun (p, selection) => requestsResult p selection)
  | .compile o command deny => do
    let deny := deny || c.compile.deny.getD false
    let panel ← loadPanel storage o c.compile
    deliver storage o.output
      (panel.bind fun (p, selection) => flowModsResult p selection command deny)
  | .buildFlow choice path => do
    let body ← readBody storage input path
    deliver storage none (body.bind (rulesResult choice))

/-- Load the configuration of an invocation and do its task. -/
def Invocation.run (storage : Storage m) (input : m ByteArray) (i : Invocation) :
    m (Except TaskFault String) := do
  match i.config with
  | none => i.task.run storage input {}
  | some path =>
    match ← Configuration.load storage path with
    | .error fault => return .error (.config fault)
    | .ok c => i.task.run storage input c

/-- What becomes of a call. -/
inductive Outcome where
  | help
  | version
  | misused
  | done (printed : String)
  | failed (fault : TaskFault)
  deriving DecidableEq, Repr

namespace Outcome

def exitCode : Outcome → UInt32
  | .help | .version | .done _ => 0
  | .failed _ => 1
  | .misused => 2

/-- The text that the program prints, apart from help. -/
def printed : Outcome → String
  | .version => "l1patch 0.1.0\n"
  | .done text => text
  | .help | .misused | .failed _ => ""

/-- The messages about what went wrong, the outermost first. -/
def messages : Outcome → List String
  | .failed fault => fault.messages
  | .help | .version | .misused | .done _ => []

end Outcome

def call (storage : Storage m) (input : m ByteArray) (arguments : List String) : m Outcome := do
  match Call.read? arguments with
  | none => return .misused
  | some .help => return .help
  | some .version => return .version
  | some (.invoke i) =>
    match ← i.run storage input with
    | .ok text => return .done text
    | .error fault => return .failed fault

end PatchPanel.CommandLine
