import PatchPanel.Panel
import PatchPanel.Storage
import PatchPanel.Text.Blank
import PatchPanel.Yaml.Record

/-!
The configuration of a run, which is kept in a YAML file. Every setting may be left out there; what
the command line says goes before it.
-/
namespace PatchPanel

/-- The settings of a run in general. -/
structure GeneralSettings where
  logLevel : Option String := none
  deriving DecidableEq, Repr

/-- The settings of a compilation. -/
structure CompileSettings where
  physical : Option String := none
  logical : Option String := none
  selection : Option Selection := none
  version : Option Version := none
  deny : Option Bool := none
  deriving DecidableEq, Repr

/-- The configuration of a run. -/
structure Configuration where
  general : GeneralSettings := {}
  compile : CompileSettings := {}
  deriving DecidableEq, Repr

/-- What can be wrong with a configuration. -/
inductive ConfigFault where
  | unreadable
  | emptyLogLevel
  | emptyPhysical
  | emptyLogical
  deriving DecidableEq, Repr

/-- The message about a fault in a configuration. -/
def ConfigFault.message : ConfigFault → String
  | .unreadable => "The configuration cannot be read from YAML"
  | .emptyLogLevel => "Invalid general configuration: log_level cannot be empty"
  | .emptyPhysical => "Invalid compile configuration: physical path cannot be empty"
  | .emptyLogical => "Invalid compile configuration: logical path cannot be empty"

def GeneralSettings.ofNode? (n : Yaml.Node) : Option GeneralSettings := do
  match ← n.fields? ["log_level"] 1 with
  | [level] => return { logLevel := ← Yaml.Node.field? Yaml.Node.text? level }
  | _ => none

/-- The settings of a compilation in a node. -/
def CompileSettings.ofNode? (n : Yaml.Node) : Option CompileSettings := do
  match ← n.fields? ["physical", "logical", "mode", "ofp_version", "default_deny"] 5 with
  | [physical, logical, mode, version, deny] =>
    return {
      physical := ← Yaml.Node.field? Yaml.Node.text? physical
      logical := ← Yaml.Node.field? Yaml.Node.text? logical
      selection := ← Yaml.Node.field? (Yaml.Node.choice? Selection.names) mode
      version := ← Yaml.Node.field? (Yaml.Node.choice? Version.tags) version
      deny := ← Yaml.Node.field? Yaml.Node.flag? deny }
  | _ => none

namespace Configuration

def ofNode? (n : Yaml.Node) : Option Configuration := do
  match ← n.fields? ["general", "compile"] 0 with
  | [general, compile] =>
    let general ← match general with
      | some n => GeneralSettings.ofNode? n
      | none => some {}
    let compile ← match compile with
      | some n => CompileSettings.ofNode? n
      | none => some {}
    return ⟨general, compile⟩
  | _ => none

/-- Check that no setting is given without content. A log level of white space has none; a path of
white space has. -/
def check (c : Configuration) : Except ConfigFault Unit :=
  if c.general.logLevel.any Text.allBlank then .error .emptyLogLevel
  else if c.compile.physical = some "" then .error .emptyPhysical
  else if c.compile.logical = some "" then .error .emptyLogical
  else .ok ()

def ofText (text : String) : Except ConfigFault Configuration := do
  match (Yaml.Node.ofText? text.toList).bind ofNode? with
  | none => .error .unreadable
  | some c =>
    c.check
    return c

end Configuration

/-- Why the configuration of a run cannot be loaded. -/
inductive ConfigLoadFault where
  | file (path : String) (fault : FileFault)
  | config (fault : ConfigFault)
  deriving DecidableEq, Repr

/-- The messages about a failed loading of a configuration, the outermost first. -/
def ConfigLoadFault.messages : ConfigLoadFault → List String
  | .file path fault => ["Failed to open '" ++ path ++ "'", fault.message]
  | .config fault => [fault.message]

/-- Load the configuration of a file. A directory and a file that is no text have no configuration in
them. -/
def Configuration.load {m : Type → Type} [Monad m] (storage : Storage m) (path : String) :
    m (Except ConfigLoadFault Configuration) := do
  match ← storage.read path with
  | .error .isDirectory => return .error (.config .unreadable)
  | .error fault => return .error (.file path fault)
  | .ok bytes =>
    match readText bytes with
    | .error _ => return .error (.config .unreadable)
    | .ok text => return (Configuration.ofText text).mapError .config

end PatchPanel
