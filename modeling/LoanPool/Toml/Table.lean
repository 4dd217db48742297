import LoanPool.Toml.Quoted
import LoanPool.Toml.Value

/-!
# Building and writing tables

Tables are built from headers and keys, one at a time. A key is given once, and a table is
opened once: by its own header, by dotted keys, or in braces. What a longer header or a dotted
key passes through on its way is added to, if the way in which it came to be allows that.

A table of plain values is written one key a line, in the order of its entries. An integer past
the greatest one that can be written has no text.
-/
namespace LoanPool.Toml

/-- Whether something may be added to a table from outside: dotted keys add only to what has no
header, headers to all but a table in braces. -/
def Origin.permits (dotted : Bool) (o : Origin) : Bool :=
  if dotted then o == .implied || o == .dotted else o != .inline

namespace Table

def replace (t : Table) (key : String) (v : Value) : Table :=
  t.map fun e => if e.1 = key then (key, v) else e

/-- Changes the table at the end of a path, from a table of a given origin. Tables on the path that
are not there yet are made; of repeated tables the latest is meant. -/
def alter (dotted : Bool) (f : Origin → Table → Option Table) :
    List String → Origin → Table → Option Table
  | [], o, t => f o t
  | key :: path, _, t =>
    match t.lookup key with
    | none =>
      let made : Origin := if dotted then .dotted else .implied
      (alter dotted f path made []).map fun inner => t ++ [(key, .table made inner)]
    | some (.table o inner) =>
      if o.permits dotted then
        (alter dotted f path o inner).map fun inner => replace t key (.table o inner)
      else none
    | some (.tables members) =>
      match members.getLast? with
      | some (.table o inner) =>
        (alter dotted f path o inner).map fun inner =>
          replace t key (.tables (members.dropLast ++ [.table o inner]))
      | _ => none
    | some _ => none

def give (throughDots : Bool) (key : String) (v : Value) (o : Origin) (t : Table) : Option Table :=
  if throughDots ∧ o ≠ .dotted then none
  else if (t.lookup key).isSome then none
  else some (t ++ [(key, v)])

def assign (header path : List String) (v : Value) (t : Table) : Option Table :=
  match path.getLast? with
  | none => none
  | some key =>
    let dots := path.dropLast
    alter false (alter true (give (!dots.isEmpty) key v) dots) header .header t

def openTable (path : List String) (t : Table) : Option Table :=
  match path.getLast? with
  | none => none
  | some key =>
    alter false
      (fun _ t =>
        match t.lookup key with
        | none => some (t ++ [(key, .table .header [])])
        | some (.table .implied inner) => some (replace t key (.table .header inner))
        | some _ => none)
      path.dropLast .header t

def openMember (path : List String) (t : Table) : Option Table :=
  match path.getLast? with
  | none => none
  | some key =>
    alter false
      (fun _ t =>
        match t.lookup key with
        | none => some (t ++ [(key, .tables [.table .header []])])
        | some (.tables members) =>
          some (replace t key (.tables (members ++ [.table .header []])))
        | some _ => none)
      path.dropLast .header t

def ofPairs (pairs : List (List String × Value)) : Option Table :=
  pairs.foldlM (fun t pair => assign [] pair.1 pair.2 t) []

end Table

inductive Statement where
  | header (path : List String)
  | member (path : List String)
  | entry (path : List String) (v : Value)
deriving Repr, Inhabited

/-- The table that statements build, after those that have built `t` under a header. -/
def Table.extend (header : List String) (t : Table) : List Statement → Option Table
  | [] => some t
  | .header path :: rest => (t.openTable path).bind fun t => Table.extend path t rest
  | .member path :: rest => (t.openMember path).bind fun t => Table.extend path t rest
  | .entry path v :: rest => (t.assign header path v).bind fun t => Table.extend header t rest

def Table.ofStatements (statements : List Statement) : Option Table :=
  Table.extend [] [] statements

/-! ### Writing -/

def Value.write? : Value → Option (List Char)
  | .text s => some (Quoted.write s.toList)
  | .integer n =>
    if 0 ≤ n ∧ n ≤ integerMax then some (Nat.toDigits 10 n.toNat) else none
  | .flag b => some (if b then ['t', 'r', 'u', 'e'] else ['f', 'a', 'l', 's', 'e'])
  | _ => none

def Table.write? : Table → Option (List Char)
  | [] => some []
  | (key, v) :: rest => do
    let text ← v.write?
    let lines ← Table.write? rest
    some (key.toList ++ [' ', '=', ' '] ++ text ++ '\n' :: lines)

def writeSection? (name : String) (t : Table) : Option (List Char) :=
  (Table.write? t).map fun lines => '[' :: name.toList ++ ']' :: '\n' :: lines

end LoanPool.Toml
