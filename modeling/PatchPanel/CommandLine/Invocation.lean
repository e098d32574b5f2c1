import PatchPanel.CommandLine.Option

/-!
What the arguments of the command line ask for: a command with its options, or one of the texts that
the program has about itself.
-/
namespace PatchPanel.CommandLine

/-- The options of both commands that compile a panel. -/
structure PanelOptions where
  physical : Option String
  logical : Option String
  selection : Option Selection
  version : Option Version
  output : Option String
  deriving DecidableEq, Repr

/-- A version by its tag, or by the number that a switch has negotiated. -/
inductive VersionChoice where
  | tagged (version : Version)
  | negotiated (n : UInt8)
  deriving DecidableEq, Repr

/-- What the program is asked to do: to write the requests of a panel, its flow modifications, or the
rules of one request, whose body is in a file or in the input. -/
inductive Task where
  | generate (options : PanelOptions)
  | compile (options : PanelOptions) (command : Command) (deny : Bool)
  | buildFlow (version : VersionChoice) (body : Option String)
  deriving DecidableEq, Repr

/-- A task with the file of the configuration. -/
structure Invocation where
  config : Option String
  task : Task
  deriving DecidableEq, Repr

/-- What the arguments ask for. -/
inductive Call where
  | help
  | version
  | invoke (i : Invocation)
  deriving DecidableEq, Repr

/-- The options of a panel among the given ones. -/
def PanelOptions.of (s : Settings) : PanelOptions where
  physical := s.lookup .physical
  logical := s.lookup .logical
  selection := (s.lookup .selection).bind fun name => Selection.names.lookup name
  version := (s.lookup .version).bind Version.ofTag?
  output := s.lookup .output

/-- The version among the given options. Exactly one of the two options for it is given. -/
def VersionChoice.of? (s : Settings) : Option VersionChoice :=
  match s.lookup .version, s.lookup .wireVersion with
  | some tag, none => (Version.ofTag? tag).map .tagged
  | none, some n => (wireVersion? n).map .negotiated
  | _, _ => none

/-- The commands of the program. -/
inductive Verb where
  | generate
  | compile
  | buildFlow
  deriving DecidableEq, Repr

namespace Verb

def names : List (String × Verb) :=
  [("generate", .generate), ("compile", .compile), ("build-flow", .buildFlow)]

def options : Verb → List Opt
  | .generate => [.config, .physical, .logical, .selection, .version, .output, .help]
  | .compile =>
    [.config, .physical, .logical, .selection, .version, .output, .command, .deny, .help]
  | .buildFlow => [.config, .version, .wireVersion, .help]

/-- A command takes a file beside its options. -/
def takesFile : Verb → Bool
  | .buildFlow => true
  | .generate | .compile => false

/-- The task of a command with its options and its file. -/
def task? (v : Verb) (s : Settings) (file : Option String) : Option Task :=
  match v with
  | .generate => some (.generate (.of s))
  | .compile => do
    let command ← match s.lookup .command with
      | some name => (Command.ofName name).toOption
      | none => some .put
    return .compile (.of s) command (s.lookup .deny).isSome
  | .buildFlow => do return .buildFlow (← VersionChoice.of? s) file

/-- What a command is asked for behind its options and the words beside them. An option of the command
goes before the same option in front of it. -/
def finish? (v : Verb) (outer s : Settings) (files : List String) : Option Call := do
  let file ← match files with
    | [] => some none
    | [file] => if v.takesFile && !file.isEmpty then some (some file) else none
    | _ => none
  let task ← v.task? s file
  return .invoke ⟨(s.lookup .config).or (outer.lookup .config), task⟩

/-- Read the arguments of a command. Words may stand in front of its options or behind them. -/
def read? (v : Verb) (outer : Settings) (arguments : List String) : Option Call := do
  match ← readOptions v.options [] arguments with
  | .help => return .help
  | .version => return .version
  | .words s files => v.finish? outer s files
  | .word s file rest =>
    if !v.takesFile || file.isEmpty then none
    match ← readOptions v.options s rest with
    | .help => return .help
    | .version => return .version
    | .word _ _ _ => none
    | .words s files => v.finish? outer s (file :: files)

end Verb

/-- Read the name of a command that the user wants help about. -/
def readHelp? : List String → Option Call
  | [] => some .help
  | [name] => if name = "help" || (Verb.names.lookup name).isSome then some .help else none
  | _ => none

/-- Read the arguments of the program; none if they make no sense. -/
def Call.read? (arguments : List String) : Option Call := do
  match ← readOptions [.config, .help, .programVersion] [] arguments with
  | .help => return .help
  | .version => return .version
  | .words _ _ => none
  | .word s name rest =>
    if name = "help" then readHelp? rest
    else
      let v ← Verb.names.lookup name
      v.read? s rest

end PatchPanel.CommandLine
