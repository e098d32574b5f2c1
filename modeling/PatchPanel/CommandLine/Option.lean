import PatchPanel.Panel
import PatchPanel.Text.Numeral
import PatchPanel.Text.Split

/-!
The options of the command line: their names and letters, the values that they take, and the
arguments that give them. An option takes its value from the same argument or from the next one, and
is given once at most.
-/
namespace PatchPanel.CommandLine

/-- The options of the program and its commands. -/
inductive Opt where
  | config
  | physical
  | logical
  | selection
  | version
  | output
  | command
  | deny
  | wireVersion
  | help
  | programVersion
  deriving DecidableEq, Repr

/-- A version number in decimal, or in hexadecimal behind a zero and an `x` of either case. -/
def wireVersion? (text : String) : Option UInt8 :=
  match text.toList with
  | '0' :: 'x' :: digits => (Numeral.hexByte? digits).map UInt8.ofNat
  | '0' :: 'X' :: digits => (Numeral.hexByte? digits).map UInt8.ofNat
  | digits => (Numeral.byte? digits).map UInt8.ofNat

namespace Opt

/-- The name of an option, which stands behind two dashes. -/
def name : Opt → String
  | .config => "config"
  | .physical => "physical"
  | .logical => "logical"
  | .selection => "mode"
  | .version => "ofp-version"
  | .output => "output"
  | .command => "command"
  | .deny => "default-deny"
  | .wireVersion => "wire-version"
  | .help => "help"
  | .programVersion => "version"

/-- The letter of an option, which stands behind one dash. -/
def letter? : Opt → Option Char
  | .config => some 'c'
  | .physical => some 'p'
  | .logical => some 'l'
  | .selection => some 'm'
  | .output => some 'o'
  | .help => some 'h'
  | .programVersion => some 'V'
  | .version | .command | .deny | .wireVersion => none

def isFlag : Opt → Bool
  | .deny | .help | .programVersion => true
  | _ => false

/-- The values that an option takes: paths that are not empty, and names and numbers that mean
something. -/
def accepts (o : Opt) (value : String) : Bool :=
  match o with
  | .config | .physical | .logical | .output => !value.isEmpty
  | .selection => (Selection.names.lookup value).isSome
  | .version => (Version.ofTag? value).isSome
  | .command => (Command.ofName value).toOption.isSome
  | .wireVersion => (wireVersion? value).isSome
  | .deny | .help | .programVersion => true

end Opt

/-- One argument: a word, the mark behind which everything is a word, or an option with the value
that is attached to it. -/
inductive Argument where
  | word (text : String)
  | onlyWords
  | option (o : Opt) (value : Option String)
  deriving DecidableEq, Repr

/-- An argument where some options are known; none if it begins like an option and is not one of
these. A single dash is a word. A flag has no value; what stands behind its letter is left out. -/
def Argument.of? (options : List Opt) (text : String) : Option Argument :=
  match text.toList with
  | ['-', '-'] => some .onlyWords
  | '-' :: '-' :: rest => do
    let (name, value) := match Text.cut? '=' rest with
      | some (name, value) => (name, some (String.ofList value))
      | none => (rest, none)
    let o ← options.find? fun o => o.name = String.ofList name
    if o.isFlag && value.isSome then none else some (.option o value)
  | '-' :: letter :: rest => do
    let o ← options.find? fun o => o.letter? = some letter
    if o.isFlag then return .option o none
    match rest with
    | [] => return .option o none
    | '=' :: value => return .option o (some (String.ofList value))
    | value => return .option o (some (String.ofList value))
  | _ => some (.word text)

/-- An argument that may be the value of the option in front of it. -/
def isValue (text : String) : Bool :=
  match text.toList with
  | '-' :: _ :: _ => false
  | _ => true

/-- The options that have been given, with their values. -/
abbrev Settings := List (Opt × String)

/-- The settings with one more option, which has not been given yet and takes the value. -/
def Settings.add? (s : Settings) (o : Opt) (value : String) : Option Settings :=
  if (s.lookup o).isSome || !o.accepts value then none else some ((o, value) :: s)

/-- Where reading options comes to an end: where the user asks for help or for the version of the
program, at a word, or at the end, behind which only words are left. -/
inductive Stop where
  | help
  | version
  | word (settings : Settings) (text : String) (rest : List String)
  | words (settings : Settings) (texts : List String)
  deriving Repr

def readOptions (options : List Opt) (s : Settings) : List String → Option Stop
  | [] => some (.words s [])
  | text :: rest =>
    match Argument.of? options text with
    | none => none
    | some .onlyWords => some (.words s rest)
    | some (.word text) => some (.word s text rest)
    | some (.option .help _) => some .help
    | some (.option .programVersion _) => some .version
    | some (.option o (some value)) =>
      match s.add? o value with
      | some s => readOptions options s rest
      | none => none
    | some (.option o none) =>
      if o.isFlag then
        match s.add? o "" with
        | some s => readOptions options s rest
        | none => none
      else
        match rest with
        | [] => none
        | value :: rest =>
          match if isValue value then s.add? o value else none with
          | some s => readOptions options s rest
          | none => none

end PatchPanel.CommandLine
