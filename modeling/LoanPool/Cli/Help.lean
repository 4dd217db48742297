import LoanPool.Cli.Arguments

/-!
# Help texts

What the program says of itself and of its commands.
-/
namespace LoanPool.Cli

def programName : String :=
  "berth"

def versionNumber : String :=
  "0.1.0"

def versionText (verb : Option Verb) : String :=
  programName ++ (match verb with
    | some v => "-" ++ v.name
    | none => "") ++ " " ++ versionNumber ++ "\n"

def purpose : Verb → String
  | .check => "Validate a configuration file and print the effective settings"
  | .probe => "Run concurrent acquire/send/recv/release cycles against the endpoint"

def columns (rows : List (String × String)) : String :=
  let width := (rows.map (·.1.length)).foldl max 0
  String.join (rows.map fun (term, words) =>
    "  " ++ term ++ String.ofList (List.replicate (width + 2 - term.length) ' ') ++ words ++ "\n")

def lastOptions : List (String × String) :=
  [("-h, --help", "Print help"), ("-V, --version", "Print version")]

def jsonOption : String × String :=
  ("    --json", "Emit logs and reports as JSON")

def fileOption : String × String :=
  ("-c, --config <CONFIG>", "Path to berth.toml")

def optionRows : Verb → List (String × String)
  | .check => [fileOption, jsonOption] ++ lastOptions
  | .probe =>
    let basic : Probe.Options := {}
    [fileOption, jsonOption,
      ("-w, --workers <WORKERS>",
        "Number of concurrent workers [default: " ++ toString basic.workers ++ "]"),
      ("-i, --iterations <ITERATIONS>",
        "Cycles per worker [default: " ++ toString basic.iterations ++ "]"),
      ("    --payload <PAYLOAD>",
        "Bytes sent on every cycle [default: " ++ basic.payload ++ "]")] ++ lastOptions

def helpPurpose : String :=
  "Print this message or the help of the given subcommand(s)"

def helpText : Topic → String
  | .program =>
    "Berth — fixed-capacity connection pool tooling\n\nUsage: " ++ programName
      ++ " [OPTIONS] <COMMAND>\n\nCommands:\n"
      ++ columns
        [("check", purpose .check), ("probe", purpose .probe),
          ("help", helpPurpose)]
      ++ "\nOptions:\n" ++ columns (jsonOption :: lastOptions)
  | .help =>
    helpPurpose ++ "\n\nUsage: " ++ programName ++ " help [COMMAND]...\n\nArguments:\n"
      ++ columns [("[COMMAND]...", "Print help for the subcommand(s)")]
  | .verb verb =>
    purpose verb ++ "\n\nUsage: " ++ programName ++ " " ++ verb.name
      ++ " [OPTIONS] --config <CONFIG>\n\nOptions:\n" ++ columns (optionRows verb)

end LoanPool.Cli
