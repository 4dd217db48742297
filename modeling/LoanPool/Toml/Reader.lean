import LoanPool.Toml.Scalar
import LoanPool.Toml.Table

/-!
# Reading a TOML text

A text is a list of statements, each on a line of its own: headers, and keys with their values.
Arrays and tables in braces nest, up to a fixed depth; a path of keys has a greatest length.

The functions take the characters that are left and give back what they have read and what is
left then. Those that read nested values count down as they go, from a number that the length of
the text bounds.
-/
namespace LoanPool.Toml

/-- Values are nested, and keys joined, less often than this. -/
def depthLimit : Nat :=
  80

def isBlank (c : Char) : Bool :=
  c == ' ' || c == '\t'

def skipBlanks (s : List Char) : List Char :=
  s.dropWhile isBlank

/-- Passes blanks, line breaks and comments; the flag tells whether a comment has begun. -/
def skipSpace : Bool → List Char → List Char
  | _, [] => []
  | inComment, c :: rest =>
    if c = '\n' then skipSpace false rest
    else if c = '\r' ∧ rest.head? = some '\n' then skipSpace false rest
    else if inComment then if isControl c then c :: rest else skipSpace true rest
    else if isBlank c then skipSpace false rest
    else if c = '#' then skipSpace true rest
    else c :: rest

def lineBreak? : List Char → Option (List Char)
  | [] => some []
  | '\n' :: rest => some rest
  | '\r' :: '\n' :: rest => some rest
  | _ => none

def lineEnd? (s : List Char) : Option (List Char) :=
  match skipBlanks s with
  | '#' :: rest => lineBreak? (rest.dropWhile fun c => !isControl c)
  | s => lineBreak? s

/-! ### Keys -/

def isBare (c : Char) : Bool :=
  c.isAlphanum || c == '-' || c == '_'

def key? (s : List Char) : Option (String × List Char) :=
  match Quoted.readLine? s with
  | some (name, rest) => some (String.ofList name, rest)
  | none =>
    let name := s.takeWhile isBare
    if name.isEmpty then none else some (String.ofList name, s.dropWhile isBare)

def path? : Nat → List Char → Option (List String × List Char)
  | 0, _ => none
  | n + 1, s =>
    match key? (skipBlanks s) with
    | none => none
    | some (key, rest) =>
      match skipBlanks rest with
      | '.' :: rest => (path? n rest).map fun (keys, rest) => (key :: keys, rest)
      | rest => some ([key], rest)

def pathUpTo? (mark : Char) (s : List Char) : Option (List String × List Char) :=
  match path? (depthLimit - 1) s with
  | some (keys, c :: rest) => if c = mark then some (keys, rest) else none
  | _ => none

/-! ### Values -/

mutual

def value? : Nat → Nat → List Char → Option (Value × List Char)
  | 0, _, _ => none
  | n + 1, depth, s =>
    match s with
    | '[' :: rest =>
      if depth ≤ 1 then none
      else match skipSpace false rest with
        | ']' :: rest => some (.array [], rest)
        | rest => (elements? n (depth - 1) rest).map fun (items, rest) => (.array items, rest)
    | '{' :: rest =>
      if depth ≤ 1 then none
      else match skipBlanks rest with
        | '}' :: rest => some (.table .inline [], rest)
        | rest => (pairs? n (depth - 1) rest).bind fun (pairs, rest) =>
          (Table.ofPairs pairs).map fun t => (.table .inline t, rest)
    | s =>
      match Quoted.read? s with
      | some (text, rest) => some (.text (String.ofList text), rest)
      | none => scalar? s

def elements? : Nat → Nat → List Char → Option (List Value × List Char)
  | 0, _, _ => none
  | n + 1, depth, s =>
    match value? n depth s with
    | none => none
    | some (v, rest) =>
      match skipSpace false rest with
      | ']' :: rest => some ([v], rest)
      | ',' :: rest =>
        match skipSpace false rest with
        | ']' :: rest => some ([v], rest)
        | rest => (elements? n depth rest).map fun (items, rest) => (v :: items, rest)
      | _ => none

def pairs? : Nat → Nat → List Char → Option (List (List String × Value) × List Char)
  | 0, _, _ => none
  | n + 1, depth, s =>
    match pathUpTo? '=' s with
    | none => none
    | some (path, rest) =>
      match value? n depth (skipBlanks rest) with
      | none => none
      | some (v, rest) =>
        match skipBlanks rest with
        | '}' :: rest => some ([(path, v)], rest)
        | ',' :: rest => (pairs? n depth rest).map fun (pairs, rest) => ((path, v) :: pairs, rest)
        | _ => none

end

/-! ### Statements -/

def statement? (s : List Char) : Option (Statement × List Char) :=
  match s with
  | '[' :: '[' :: rest =>
    match pathUpTo? ']' rest with
    | some (path, ']' :: rest) => (lineEnd? rest).map fun rest => (.member path, rest)
    | _ => none
  | '[' :: rest =>
    match pathUpTo? ']' rest with
    | some (path, rest) => (lineEnd? rest).map fun rest => (.header path, rest)
    | none => none
  | s =>
    match pathUpTo? '=' s with
    | none => none
    | some (path, rest) =>
      (value? (2 * rest.length + 2) depthLimit (skipBlanks rest)).bind fun (v, rest) =>
        (lineEnd? rest).map fun rest => (.entry path v, rest)

def statements? : Nat → List Char → Option (List Statement)
  | 0, _ => none
  | n + 1, s =>
    match skipBlanks s with
    | [] => some []
    | c :: rest =>
      if c = '\n' ∨ c = '\r' ∨ c = '#' then (lineEnd? (c :: rest)).bind (statements? n)
      else (statement? (c :: rest)).bind fun (statement, rest) =>
        (statements? n rest).map (statement :: ·)

def skipMark : List Char → List Char
  | '\uFEFF' :: rest => rest
  | s => s

def read? (text : String) : Option Table :=
  let s := skipMark text.toList
  (statements? (s.length + 1) s).bind Table.ofStatements

end LoanPool.Toml
