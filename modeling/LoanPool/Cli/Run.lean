import LoanPool.Cli.Help
import LoanPool.Probe.Report
import LoanPool.Settings

/-!
# Runs of the program

What a request leads to, once the settings file it names has been looked for: an exit code, and
what is written to the two outputs.
-/
namespace LoanPool.Cli

structure Finish where
  code : Nat := 0
  out : String := ""
  err : String := ""
deriving DecidableEq, Repr, Inhabited

/-- An account of what went wrong: the first message, then its causes, numbered if there is more
than one. -/
def account : List String → String
  | [] => "Error: unknown\n"
  | [message] => "Error: " ++ message ++ "\n"
  | [message, cause] => "Error: " ++ message ++ "\n\nCaused by:\n    " ++ cause ++ "\n"
  | message :: causes =>
    "Error: " ++ message ++ "\n\nCaused by:\n"
      ++ String.join (causes.zipIdx.map fun (cause, n) =>
        "    " ++ toString n ++ ": " ++ cause ++ "\n")

def failure (chain : List String) : Finish :=
  { code := 1, err := account chain }

def Request.file? : Request → Option String
  | .run _ (.check file) => some file
  | .run _ (.probe file _) => some file
  | _ => none

def check (s : Settings) : Finish :=
  match s.toToml? with
  | some text => { out := text }
  | none => failure ["out of range"]

def finishProbe (json : Bool) (r : Probe.Report) : Finish :=
  let out := if json then r.json.pretty 0 ++ "\n" else r.text
  if r.failed = 0 then { out }
  else
    { code := 1
      out
      err := account [toString r.failed ++ " of " ++ toString (r.workers * r.iterations)
        ++ " probe cycles failed"] }

def probeChain (fault : ConfigFault) : List String :=
  ["failed to build pool", (PoolError.configuration fault).message]

def grant (content : Except String String)
    (probe : Settings → Probe.Options → Except ConfigFault Probe.Report) : Request → Finish
  | .misuse =>
    { code := 2, err := "error: invalid arguments\n\nFor more information, try '--help'.\n" }
  | .help topic => { out := helpText topic }
  | .version verb => { out := versionText verb }
  | .run json command =>
    let file := match command with
      | .check file => file
      | .probe file _ => file
    match Settings.ofFile content with
    | .error fault => failure (fault.chain file)
    | .ok s =>
      match command with
      | .check _ => check s
      | .probe _ options =>
        match probe s options with
        | .error fault => failure (probeChain fault)
        | .ok report => finishProbe json report

end LoanPool.Cli
