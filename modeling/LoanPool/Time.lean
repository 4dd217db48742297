/-!
# Time

Lengths of time, exact to the nanosecond, and their written form: the largest of
the units `s`, `ms`, `µs` and `ns` that leaves a non-zero whole part, then as many
decimal places as are needed and no trailing zero. And a clock that stands still until it is
moved on, with the alarms that wait on it in the order in which they were set.
-/
namespace LoanPool

structure Duration where
  nanos : Nat
deriving DecidableEq, Repr, Inhabited

namespace Duration

def ofMillis (ms : Nat) : Duration :=
  ⟨ms * 1000000⟩

def ofSecs (secs : Nat) : Duration :=
  ⟨secs * 1000000000⟩

/-- Whole milliseconds; a fraction is dropped. -/
def toMillis (d : Duration) : Nat :=
  d.nanos / 1000000

theorem toMillis_ofMillis (ms : Nat) : (ofMillis ms).toMillis = ms := by
  simp [ofMillis, toMillis]

/-- The decimal places of `rest / 10 ^ k`, for `rest < 10 ^ k`, without trailing zeros. -/
def places : Nat → Nat → List Char
  | 0, _ => []
  | k + 1, rest =>
    if rest = 0 then []
    else Nat.digitChar (rest / Nat.pow 10 k) :: places k (rest % Nat.pow 10 k)

/-- The unit a duration is written in: its size as a power of ten of nanoseconds, and its name. -/
def unit (d : Duration) : Nat × String :=
  if 1000000000 ≤ d.nanos then (9, "s")
  else if 1000000 ≤ d.nanos then (6, "ms")
  else if 1000 ≤ d.nanos then (3, "µs")
  else (0, "ns")

def text (d : Duration) : String :=
  let (k, name) := d.unit
  let fraction := match places k (d.nanos % Nat.pow 10 k) with
    | [] => ""
    | digits => "." ++ String.ofList digits
  toString (d.nanos / Nat.pow 10 k) ++ fraction ++ name

end Duration

structure Alarm (α : Type) where
  due : Nat
  what : α
deriving DecidableEq, Repr

structure Clock (α : Type) where
  now : Nat := 0
  /-- In the order in which they were set. -/
  alarms : List (Alarm α) := []
deriving DecidableEq, Repr

namespace Clock
variable {α : Type}

def set (c : Clock α) (due : Nat) (what : α) : Clock α :=
  { c with alarms := c.alarms ++ [⟨due, what⟩] }

def cancel (c : Clock α) (p : α → Bool) : Clock α :=
  { c with alarms := c.alarms.filter fun a => !p a.what }

def next? (c : Clock α) : Option Nat :=
  (c.alarms.map (·.due)).min?

def strike (c : Clock α) (instant : Nat) : List α × Clock α :=
  (((c.alarms.filter (·.due ≤ instant)).mergeSort (·.due ≤ ·.due)).map (·.what),
    { now := max c.now instant, alarms := c.alarms.filter fun a => !(a.due ≤ instant) })

end Clock
end LoanPool
