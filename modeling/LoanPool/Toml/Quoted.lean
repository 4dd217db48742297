/-!
# Texts in quotes

A text stands between double quotes, with escapes, or between single quotes, as it is; and
either way on one line between single marks or on several between triple ones. Reading is one
pass over the characters, in a `Mode` that tells what the ones before have begun.

Writing picks the plainest form that can hold the text: double quotes with nothing to escape,
single quotes, triple double quotes, triple single quotes, and else double quotes with escapes,
triple ones if the text has a line break.
-/
namespace LoanPool.Toml

def isControl (c : Char) : Bool :=
  (c.toNat < 32 && c != '\t') || c.toNat == 127

def hexDigit? (c : Char) : Option Nat :=
  if '0' ≤ c ∧ c ≤ '9' then some (c.toNat - '0'.toNat)
  else if 'a' ≤ c ∧ c ≤ 'f' then some (c.toNat - 'a'.toNat + 10)
  else if 'A' ≤ c ∧ c ≤ 'F' then some (c.toNat - 'A'.toNat + 10)
  else none

namespace Quoted

/-- The mark around a text, and whether it is tripled. -/
structure Style where
  mark : Char
  triple : Bool
deriving DecidableEq, Repr, Inhabited

def double : Style := ⟨'\x22', false⟩

def single : Style := ⟨'\x27', false⟩

def tripleDouble : Style := ⟨'\x22', true⟩

def tripleSingle : Style := ⟨'\x27', true⟩

def Style.escapes (st : Style) : Bool :=
  st.mark == '\x22'

/-! ### Reading -/

inductive Mode where
  | plain
  -- A backslash stands before.
  | escaped
  -- So many hexadecimal digits are to follow, after those of this value.
  | code (left value : Nat)
  -- Blanks after a backslash at the end of a line; whether the line has ended.
  | folding (crossed : Bool)
deriving DecidableEq, Repr, Inhabited

inductive Move where
  | emit (text : List Char) (next : Mode)
  | finish (text rest : List Char)
  | refuse
deriving DecidableEq, Repr, Inhabited

/-- The end of a text, if it is here: what belongs to the text still, and what follows. A triple
mark may have up to two marks before it that are text. -/
def ending? (st : Style) (s : List Char) : Option (List Char × List Char) :=
  let m := st.mark
  if st.triple then
    if [m, m, m, m, m].isPrefixOf s then some ([m, m], s.drop 5)
    else if [m, m, m, m].isPrefixOf s then some ([m], s.drop 4)
    else if [m, m, m].isPrefixOf s then some ([], s.drop 3)
    else none
  else if [m].isPrefixOf s then some ([], s.drop 1)
  else none

def unescape? (c : Char) : Option Char :=
  if c = 'b' then some '\x08'
  else if c = 't' then some '\t'
  else if c = 'n' then some '\n'
  else if c = 'f' then some '\x0c'
  else if c = 'r' then some '\r'
  else if c = '\x22' then some '\x22'
  else if c = '\\' then some '\\'
  else none

def plain (st : Style) (c : Char) (rest : List Char) : Move :=
  match ending? st (c :: rest) with
  | some (text, rest) => .finish text rest
  | none =>
    if c = '\\' ∧ st.escapes then .emit [] .escaped
    else if c = '\n' ∧ st.triple then .emit ['\n'] .plain
    else if c = '\r' ∧ st.triple ∧ rest.head? = some '\n' then .emit [] .plain
    else if isControl c then .refuse
    else .emit [c] .plain

def fold (st : Style) (crossed : Bool) (c : Char) (rest : List Char) : Move :=
  if c = ' ' ∨ c = '\t' then .emit [] (.folding crossed)
  else if c = '\n' then .emit [] (.folding true)
  else if c = '\r' ∧ rest.head? = some '\n' then .emit [] (.folding crossed)
  else if crossed then plain st c rest
  else .refuse

def move (st : Style) : Mode → Char → List Char → Move
  | .plain, c, rest => plain st c rest
  | .escaped, c, rest =>
    match unescape? c with
    | some x => .emit [x] .plain
    | none =>
      if c = 'u' then .emit [] (.code 4 0)
      else if c = 'U' then .emit [] (.code 8 0)
      else if st.triple then fold st false c rest
      else .refuse
  | .code left value, c, _ =>
    match hexDigit? c with
    | none => .refuse
    | some d =>
      let value := value * 16 + d
      if 1 < left then .emit [] (.code (left - 1) value)
      else if value.isValidChar then .emit [Char.ofNat value] .plain
      else .refuse
  | .folding crossed, c, rest => fold st crossed c rest

/-- Reads on to the end of the text. The result is the text and what follows its end. -/
def body? (st : Style) : Mode → List Char → Option (List Char × List Char)
  | _, [] => none
  | m, c :: rest =>
    match move st m c rest with
    | .emit text next => (body? st next rest).map fun (more, rest) => (text ++ more, rest)
    | .finish text rest => some (text, rest)
    | .refuse => none

def skipBreak : List Char → List Char
  | '\n' :: rest => rest
  | '\r' :: '\n' :: rest => rest
  | s => s

def opening? (s : List Char) : Option (Style × List Char) :=
  let begins (st : Style) : Bool :=
    (List.replicate (if st.triple then 3 else 1) st.mark).isPrefixOf s
  if begins tripleDouble then some (tripleDouble, skipBreak (s.drop 3))
  else if begins tripleSingle then some (tripleSingle, skipBreak (s.drop 3))
  else if begins double then some (double, s.drop 1)
  else if begins single then some (single, s.drop 1)
  else none

def read? (s : List Char) : Option (List Char × List Char) :=
  (opening? s).bind fun (st, rest) => body? st .plain rest

def readLine? (s : List Char) : Option (List Char × List Char) :=
  match s with
  | '\x22' :: rest => body? double .plain rest
  | '\x27' :: rest => body? single .plain rest
  | _ => none

/-! ### Writing -/

def hasTriple (m : Char) : List Char → Bool
  | [] => false
  | c :: rest => [m, m, m].isPrefixOf (c :: rest) || hasTriple m rest

def styleFor (s : List Char) : Style :=
  let controls := s.any fun c => isControl c && c != '\n'
  let broken := s.contains '\n'
  let backslash := s.contains '\\'
  if !controls && !broken && !backslash && !s.contains '\x22' then double
  else if !controls && !broken && !s.contains '\x27' then single
  else if !controls && !backslash && !hasTriple '\x22' s then tripleDouble
  else if !controls && !hasTriple '\x27' s then tripleSingle
  else if broken then tripleDouble
  else double

def hexDigit (n : Nat) : Char :=
  if n < 10 then Char.ofNat ('0'.toNat + n) else Char.ofNat ('A'.toNat + (n - 10))

def escape (triple : Bool) (c : Char) : List Char :=
  if c = '\t' then ['\\', 't']
  else if c = '\n' then if triple then ['\n'] else ['\\', 'n']
  else if c = '\\' then ['\\', '\\']
  else if c = '\x08' then ['\\', 'b']
  else if c = '\x0c' then ['\\', 'f']
  else if c = '\r' then ['\\', 'r']
  else if isControl c then
    ['\\', 'u', '0', '0', hexDigit (c.toNat / 16), hexDigit (c.toNat % 16)]
  else [c]

/-- A text between double quotes, after so many marks that stand as they are. Between triple ones
two may stand in a row, and only the third is escaped. -/
def encode (triple : Bool) : Nat → List Char → List Char
  | _, [] => []
  | marks, c :: rest =>
    if c = '\x22' then
      if triple ∧ marks < 2 then c :: encode triple (marks + 1) rest
      else '\\' :: c :: encode triple 0 rest
    else escape triple c ++ encode triple 0 rest

def writeIn (st : Style) (s : List Char) : List Char :=
  let marks := List.replicate (if st.triple then 3 else 1) st.mark
  marks ++ (if st.triple && s.contains '\n' then ['\n'] else [])
    ++ (if st.escapes then encode st.triple 0 s else s) ++ marks

def write (s : List Char) : List Char :=
  writeIn (styleFor s) s

end Quoted
end LoanPool.Toml
