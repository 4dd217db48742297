import LoanPool.Probe.Cycle

/-!
# Arguments of the command line

The words after the program's name: options of the program, the name of a command, and options of
that command. An option is given by its letter, `-c FILE`, `-cFILE` or `-c=FILE`, or by its name,
`--config FILE` or `--config=FILE`, and once only. A word that begins with a dash is never taken
for the value of the option before it. The words are worked off in order, so a request for help
or for the version is granted if nothing before it was wrong.
-/
namespace LoanPool.Cli

inductive Verb where
  | check
  | probe
deriving DecidableEq, Repr, Inhabited

def Verb.name : Verb → String
  | .check => "check"
  | .probe => "probe"

def Verb.ofName? : String → Option Verb
  | "check" => some .check
  | "probe" => some .probe
  | _ => none

inductive Command where
  | check (file : String)
  | probe (file : String) (options : Probe.Options)
deriving DecidableEq, Repr, Inhabited

inductive Topic where
  | program
  | verb (v : Verb)
  | help
deriving DecidableEq, Repr, Inhabited

inductive Request where
  | run (json : Bool) (command : Command)
  | help (topic : Topic)
  | version (verb : Option Verb)
  | misuse
deriving DecidableEq, Repr, Inhabited

inductive Key where
  | config
  | workers
  | iterations
  | payload
deriving DecidableEq, Repr, Inhabited

def Key.ofName? (verb : Verb) (name : String) : Option Key :=
  if name = "config" then some .config
  else if verb = .check then none
  else if name = "workers" then some .workers
  else if name = "iterations" then some .iterations
  else if name = "payload" then some .payload
  else none

def Key.ofLetter? (verb : Verb) (letter : Char) : Option Key :=
  if letter = 'c' then some .config
  else if verb = .check then none
  else if letter = 'w' then some .workers
  else if letter = 'i' then some .iterations
  else none

structure Draft where
  json : Bool := false
  config : Option String := none
  workers : Option Nat := none
  iterations : Option Nat := none
  payload : Option String := none
deriving DecidableEq, Repr, Inhabited

/-- A count in tens; a plus may stand before it. -/
def count? (s : String) : Option Nat :=
  let digits := match s.toList with
    | '+' :: rest => rest
    | other => other
  if digits.isEmpty || !digits.all Char.isDigit then none
  else (some (Nat.ofDigitChars 10 digits 0)).filter (· ≤ countMax)

def Draft.set? (d : Draft) (key : Key) (value : String) : Option Draft :=
  match key with
  | .config =>
    if d.config.isSome ∨ value = "" then none else some { d with config := some value }
  | .workers =>
    if d.workers.isSome then none
    else (count? value).map fun n => { d with workers := some n }
  | .iterations =>
    if d.iterations.isSome then none
    else (count? value).map fun n => { d with iterations := some n }
  | .payload => if d.payload.isSome then none else some { d with payload := some value }

/-- The request a draft amounts to. The file has to be named. -/
def Draft.request (d : Draft) (json : Bool) (verb : Verb) : Request :=
  match d.config, verb with
  | none, _ => .misuse
  | some file, .check => .run (json || d.json) (.check file)
  | some file, .probe =>
    let basic : Probe.Options := {}
    .run (json || d.json) (.probe file
      { workers := d.workers.getD basic.workers
        iterations := d.iterations.getD basic.iterations
        payload := d.payload.getD basic.payload })

inductive Word where
  | named (name : String) (value : Option String)
  | lettered (letter : Char) (value : Option String)
  | plain (s : String)
  | stop
deriving DecidableEq, Repr, Inhabited

def Word.ofString (s : String) : Word :=
  match s.toList with
  | ['-', '-'] => .stop
  | '-' :: '-' :: rest =>
    let name := rest.takeWhile (· ≠ '=')
    .named (String.ofList name)
      (match rest.dropWhile (· ≠ '=') with
      | _ :: value => some (String.ofList value)
      | [] => none)
  | '-' :: letter :: rest =>
    .lettered letter
      (match rest with
      | [] => none
      | '=' :: value => some (String.ofList value)
      | value => some (String.ofList value))
  | _ => .plain s

inductive Meaning where
  | json
  | help
  | version
  | key (k : Key) (value : Option String)
  | unknown
deriving DecidableEq, Repr, Inhabited

def Word.meaning (verb : Option Verb) : Word → Meaning
  | .named "json" none => .json
  | .named "help" none => .help
  | .named "version" none => .version
  | .named name value =>
    match verb.bind (Key.ofName? · name) with
    | some k => .key k value
    | none => .unknown
  | .lettered 'h' _ => .help
  | .lettered 'V' _ => .version
  | .lettered letter value =>
    match verb.bind (Key.ofLetter? · letter) with
    | some k => .key k value
    | none => .unknown
  | _ => .unknown

def options (json : Bool) (verb : Verb) : Draft → List String → Request
  | d, [] => d.request json verb
  | d, word :: rest =>
    match Word.ofString word with
    | .stop => if rest.isEmpty then d.request json verb else .misuse
    | w =>
      match w.meaning (some verb) with
      | .json => if d.json then .misuse else options json verb { d with json := true } rest
      | .help => .help (.verb verb)
      | .version => .version (some verb)
      | .key k (some value) =>
        match d.set? k value with
        | some d => options json verb d rest
        | none => .misuse
      | .key k none =>
        match rest with
        | value :: rest =>
          match Word.ofString value, d.set? k value with
          | .plain _, some d => options json verb d rest
          | _, _ => .misuse
        | [] => .misuse
      | .unknown => .misuse

def helpOn : List String → Request
  | [] => .help .program
  | ["help"] => .help .help
  | [name] =>
    match Verb.ofName? name with
    | some verb => .help (.verb verb)
    | none => .misuse
  | _ => .misuse

def requestAfter (json : Bool) : List String → Request
  | [] => .misuse
  | "help" :: rest => helpOn rest
  | word :: rest =>
    match Verb.ofName? word with
    | some verb => options json verb {} rest
    | none =>
      match (Word.ofString word).meaning none with
      | .json => if json then .misuse else requestAfter true rest
      | .help => .help .program
      | .version => .version none
      | _ => .misuse

def request (words : List String) : Request :=
  requestAfter false words

end LoanPool.Cli
