import PatchPanel.CommandLine.Outcome

/-!
The program on the files of the system. All that it decides is decided in the modules that it
imports.
-/
namespace PatchPanel.CommandLine

/-- Why the system refused a file. -/
def fileFault : IO.Error → FileFault
  | .noFileOrDirectory _ _ _ => .notFound
  | .inappropriateType _ _ _ => .isDirectory
  | .permissionDenied _ _ _ => .other "Permission denied (os error 13)"
  | error => .other (toString error)

def systemStorage : Storage IO where
  read path := do
    try
      return .ok (← IO.FS.readBinFile path)
    catch error => return .error (fileFault error)
  write path text := do
    try
      IO.FS.writeFile path text
      return .ok ()
    catch error => return .error (fileFault error)

/-- How the program is used. -/
def usage : String :=
  "Flow rule compiler for layer-1 patch wiring over OpenFlow switches\n\n" ++
  "Usage: l1patch [OPTIONS] <COMMAND>\n\n" ++
  "Commands:\n" ++
  "  generate    Print per-hop flow requests for every switch\n" ++
  "  compile     Print the flow-mod messages for every switch\n" ++
  "  build-flow  Compile a single flow request body read from a file or stdin\n" ++
  "  help        Print this message or the help of the given subcommand(s)\n\n" ++
  "Options:\n" ++
  "  -c, --config <CONFIG>  Run configuration YAML file; command-line flags take precedence\n" ++
  "  -h, --help             Print help\n" ++
  "  -V, --version          Print version\n"

end PatchPanel.CommandLine

open PatchPanel.CommandLine

def main (arguments : List String) : IO UInt32 := do
  let outcome ← call systemStorage (do (← IO.getStdin).readBinToEnd) arguments
  match outcome with
  | .help => IO.print usage
  | .misused => IO.eprint usage
  | .version | .done _ | .failed _ => IO.print outcome.printed
  for message in outcome.messages do
    IO.eprintln message
  return outcome.exitCode
