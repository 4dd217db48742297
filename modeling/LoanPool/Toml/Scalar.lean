import LoanPool.Toml.Value
import LoanPool.Toml.Quoted

/-!
# Numbers, flags and moments

The values that are written without any mark around them. Each is one run of letters, digits
and a few signs, so a run is taken whole and then told apart by its form; only a moment may
consist of two such runs, its date and its time, with a space between them.
-/
namespace LoanPool.Toml

/-- Takes the underscores out of a run of digits. Each must stand between two digits; the flag
tells whether a digit has to come next. -/
def ungroup? (isDigit : Char → Bool) : Bool → List Char → Option (List Char)
  | due, [] => if due then none else some []
  | due, c :: rest =>
    if isDigit c then (ungroup? isDigit false rest).map (c :: ·)
    else if c = '_' ∧ !due then ungroup? isDigit true rest
    else none

/-! ### Integers -/

def takeSign : List Char → Bool × List Char
  | '+' :: rest => (false, rest)
  | '-' :: rest => (true, rest)
  | s => (false, s)

def decimal? (s : List Char) : Option Nat :=
  match ungroup? Char.isDigit true s with
  | some digits =>
    if digits.head? = some '0' ∧ digits.length ≠ 1 then none
    else some (Nat.ofDigitChars 10 digits 0)
  | none => none

def based? (base : Nat) (s : List Char) : Option Nat :=
  let value (c : Char) : Option Nat := (hexDigit? c).filter (· < base)
  (ungroup? (fun c => (value c).isSome) true s).map fun digits =>
    digits.foldl (fun n c => n * base + (value c).getD 0) 0

def wholeNumber? (s : List Char) : Option Int :=
  match s with
  | '0' :: 'x' :: rest => (based? 16 rest).map Int.ofNat
  | '0' :: 'o' :: rest => (based? 8 rest).map Int.ofNat
  | '0' :: 'b' :: rest => (based? 2 rest).map Int.ofNat
  | _ =>
    let (minus, digits) := takeSign s
    (decimal? digits).map fun n => if minus then -(n : Int) else n

def integer? (s : List Char) : Option Int :=
  (wholeNumber? s).filter fun n => -(integerMax : Int) - 1 ≤ n ∧ n ≤ integerMax

/-! ### Numbers with a fraction or an exponent -/

/-- Whether `m * 10 ^ e` lies below the point from which a double rounds to infinity. -/
def isFinite (m : Nat) (e : Int) : Bool :=
  let bound := Nat.pow 2 1024 - Nat.pow 2 970
  let size := ((Nat.toDigits 10 m).length : Int) + e
  if m = 0 ∨ size ≤ 308 then true
  else if 309 < size then false
  else if 0 ≤ e then m * Nat.pow 10 e.toNat < bound
  else m < bound * Nat.pow 10 (-e).toNat

def floatBody? (s : List Char) : Option (Nat × Int) :=
  let inRun (c : Char) : Bool := c.isDigit || c == '_'
  let digits? : List Char → Option (List Char) := ungroup? Char.isDigit true
  let whole := s.takeWhile inRun
  let exponent? (s : List Char) : Option Int :=
    match s with
    | c :: rest =>
      if c = 'e' ∨ c = 'E' then
        let (minus, run) := takeSign rest
        (digits? run).map fun ds =>
          let n : Int := Nat.ofDigitChars 10 ds 0
          if minus then -n else n
      else none
    | [] => none
  (decimal? whole).bind fun n =>
    match s.dropWhile inRun with
    | '.' :: rest =>
      (digits? (rest.takeWhile inRun)).bind fun ds =>
        let m := Nat.ofDigitChars 10 ds n
        match rest.dropWhile inRun with
        | [] => some (m, -(ds.length : Int))
        | tail => (exponent? tail).map fun e => (m, e - ds.length)
    | tail => (exponent? tail).map fun e => (n, e)

/-- A number that a double can hold; a negative one may be beyond all doubles. -/
def isFloat (s : List Char) : Bool :=
  let (minus, run) := takeSign s
  if run = ['i', 'n', 'f'] ∨ run = ['n', 'a', 'n'] then true
  else match floatBody? run with
    | some (m, e) => minus || isFinite m e
    | none => false

/-! ### Moments -/

def number? (s : List Char) : Option Nat :=
  if s.all Char.isDigit then some (Nat.ofDigitChars 10 s 0) else none

def daysIn (year month : Nat) : Nat :=
  if month = 2 then
    if year % 4 = 0 ∧ (year % 100 ≠ 0 ∨ year % 400 = 0) then 29 else 28
  else if month = 4 ∨ month = 6 ∨ month = 9 ∨ month = 11 then 30
  else 31

def afterDate? (s : List Char) : Option (List Char) :=
  match s with
  | y₁ :: y₂ :: y₃ :: y₄ :: '-' :: m₁ :: m₂ :: '-' :: d₁ :: d₂ :: rest => do
    let year ← number? [y₁, y₂, y₃, y₄]
    let month ← number? [m₁, m₂]
    let day ← number? [d₁, d₂]
    if 1 ≤ month ∧ month ≤ 12 ∧ 1 ≤ day ∧ day ≤ daysIn year month then some rest else none
  | _ => none

def afterTime? (s : List Char) : Option (List Char) :=
  match s with
  | h₁ :: h₂ :: ':' :: m₁ :: m₂ :: ':' :: s₁ :: s₂ :: rest => do
    let hour ← number? [h₁, h₂]
    let minute ← number? [m₁, m₂]
    let second ← number? [s₁, s₂]
    if hour ≤ 23 ∧ minute ≤ 59 ∧ second ≤ 60 then
      match rest with
      | '.' :: d :: rest =>
        if d.isDigit then some (rest.dropWhile Char.isDigit) else none
      | _ => some rest
    else none
  | _ => none

def isOffset (s : List Char) : Bool :=
  match s with
  | [] => true
  | ['Z'] => true
  | ['z'] => true
  | [sign, h₁, h₂, ':', m₁, m₂] =>
    (sign == '+' || sign == '-') &&
      match number? [h₁, h₂], number? [m₁, m₂] with
      | some hour, some minute => hour ≤ 23 && minute ≤ 59
      | _, _ => false
  | _ => false

def isTimeWithOffset (s : List Char) : Bool :=
  match afterTime? s with
  | some rest => isOffset rest
  | none => false

def isMoment (s : List Char) : Bool :=
  match afterDate? s with
  | some [] => true
  | some (c :: rest) => (c == 'T' || c == 't') && isTimeWithOffset rest
  | none => afterTime? s = some []

/-! ### Values without marks -/

def ofRun? (s : List Char) : Option Value :=
  if s = ['t', 'r', 'u', 'e'] then some (.flag true)
  else if s = ['f', 'a', 'l', 's', 'e'] then some (.flag false)
  else match integer? s with
    | some n => some (.integer n)
    | none =>
      if isFloat s then some .float
      else if isMoment s then some .moment
      else none

def isRun (c : Char) : Bool :=
  c.isAlphanum || c == '+' || c == '-' || c == '_' || c == '.' || c == ':'

/-- Reads a value that has no marks around it. A run after a date and one space is its time. -/
def scalar? (s : List Char) : Option (Value × List Char) :=
  let run := s.takeWhile isRun
  let rest := s.dropWhile isRun
  (ofRun? run).bind fun v =>
    match afterDate? run, rest with
    | some [], ' ' :: more =>
      let time := more.takeWhile isRun
      if time.isEmpty then some (v, rest)
      else if isTimeWithOffset time then some (v, more.dropWhile isRun)
      else none
    | _, _ => some (v, rest)

end LoanPool.Toml
