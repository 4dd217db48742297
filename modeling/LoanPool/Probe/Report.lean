import LoanPool.Pool.Basic

/-!
# Probe reports

What a probe found: how many cycles succeeded, how many failed and of what kind, and what the pool
did meanwhile; as a text to read, and as JSON.
-/
namespace LoanPool.Probe

structure Report where
  address : String := ""
  workers : Nat := 0
  iterations : Nat := 0
  successes : Nat := 0
  failures : List (String × Nat) := []
  created : Nat := 0
  acquired : Nat := 0
  released : Nat := 0
  elapsedMs : Nat := 0
  stats : Stats := {}
deriving DecidableEq, Repr, Inhabited

namespace Report

def failed (r : Report) : Nat :=
  r.failures.foldl (fun n kind => n + kind.2) 0

def text (r : Report) : String :=
  "endpoint:     " ++ r.address ++ "\n"
    ++ "cycles:       " ++ toString r.successes ++ " ok, " ++ toString r.failed ++ " failed ("
    ++ toString r.workers ++ " workers x " ++ toString r.iterations ++ " iterations) in "
    ++ toString r.elapsedMs ++ "ms\n"
    ++ String.join (r.failures.map fun (kind, count) =>
      "  " ++ kind ++ ": " ++ toString count ++ "\n")
    ++ "connections:  " ++ toString r.created ++ " created, " ++ toString r.acquired
    ++ " acquired, " ++ toString r.released ++ " released\n"
    ++ "pool:         max " ++ toString r.stats.maxConnections ++ ", acquired "
    ++ toString r.stats.acquired ++ ", idle " ++ toString r.stats.idle ++ ", registered "
    ++ toString r.stats.registered ++ ", pending " ++ toString r.stats.pending ++ "\n"
    ++ "totals:       " ++ toString r.stats.totalTimeouts ++ " timeouts, "
    ++ toString r.stats.totalRejected ++ " rejected\n"

end Report

/-! ### As JSON

The part of JSON that a report needs, and its layout: a field a line, two blanks deeper than the
braces around it. -/

inductive Json where
  | number (n : Nat)
  | flag (b : Bool)
  | text (s : String)
  | object (fields : List (String × Json))
deriving Repr, Inhabited

def hexLower (n : Nat) : Char :=
  if n < 10 then Char.ofNat ('0'.toNat + n) else Char.ofNat ('a'.toNat + (n - 10))

def escapeChar (c : Char) : List Char :=
  if c = '\x22' then ['\\', '\x22']
  else if c = '\\' then ['\\', '\\']
  else if c = '\n' then ['\\', 'n']
  else if c = '\r' then ['\\', 'r']
  else if c = '\t' then ['\\', 't']
  else if c = '\x08' then ['\\', 'b']
  else if c = '\x0c' then ['\\', 'f']
  else if c.toNat < 32 then
    ['\\', 'u', '0', '0', hexLower (c.toNat / 16), hexLower (c.toNat % 16)]
  else [c]

def quoted (s : String) : String :=
  "\"" ++ String.ofList (s.toList.flatMap escapeChar) ++ "\""

def indent (depth : Nat) : String :=
  String.ofList (List.replicate (2 * depth) ' ')

mutual

def Json.pretty (depth : Nat) : Json → String
  | .number n => toString n
  | .flag b => if b then "true" else "false"
  | .text s => quoted s
  | .object [] => "\x7b\x7d"
  | .object (field :: fields) =>
    "\x7b\n" ++ Json.prettyFields (depth + 1) (field :: fields) ++ "\n" ++ indent depth ++ "\x7d"

def Json.prettyFields (depth : Nat) : List (String × Json) → String
  | [] => ""
  | [(key, v)] => indent depth ++ quoted key ++ ": " ++ v.pretty depth
  | (key, v) :: rest =>
    indent depth ++ quoted key ++ ": " ++ v.pretty depth ++ ",\n" ++ Json.prettyFields depth rest

end

def statsJson (s : Stats) : Json :=
  .object [
    ("max_connections", .number s.maxConnections), ("acquired", .number s.acquired),
    ("idle", .number s.idle), ("registered", .number s.registered),
    ("connecting", .number s.connecting), ("closing", .number s.closing),
    ("pending", .number s.pending), ("closed", .flag s.closed),
    ("total_created", .number s.totalCreated), ("total_timeouts", .number s.totalTimeouts),
    ("total_rejected", .number s.totalRejected)]

def Report.json (r : Report) : Json :=
  .object [
    ("address", .text r.address), ("workers", .number r.workers),
    ("iterations", .number r.iterations), ("successes", .number r.successes),
    ("failures", .object (r.failures.map fun (kind, count) => (kind, .number count))),
    ("created", .number r.created), ("acquired", .number r.acquired),
    ("released", .number r.released), ("elapsed_ms", .number r.elapsedMs),
    ("stats", statsJson r.stats)]

end LoanPool.Probe
