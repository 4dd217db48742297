/-!
# Values of a TOML text

A text is a table of values. Numbers with a fraction, and moments in time, are told from all
else, but their content is not kept: no setting takes one. A record is read from a table, by the
names of its fields, or from an array, by their places; what is there beside the fields is passed
over.
-/
namespace LoanPool.Toml

inductive Origin where
  -- By a header of its own.
  | header
  -- By a longer header.
  | implied
  -- By a dotted key.
  | dotted
  -- In braces; it is complete.
  | inline
deriving DecidableEq, Repr, Inhabited

inductive Value where
  | text (s : String)
  | integer (n : Int)
  | float
  | flag (b : Bool)
  | moment
  | array (items : List Value)
  | table (origin : Origin) (entries : List (String × Value))
  -- The tables of a repeated header, `[[...]]`, in order.
  | tables (members : List Value)
deriving Repr, Inhabited

abbrev Table :=
  List (String × Value)

def integerMax : Nat :=
  Nat.pow 2 63 - 1

/-! ### Records -/

/-- What a value holds at the place of a field, or under its name. -/
abbrev Fields :=
  Nat → String → Option Value

/-- The fields of a value that can be read as a record. A moment is one without any. -/
def Value.fields? : Value → Option Fields
  | .table _ entries => some fun _ name => entries.lookup name
  | .array items => some fun place _ => items[place]?
  | .tables members => some fun place _ => members[place]?
  | .moment => some fun _ _ => none
  | _ => none

def Value.count? : Value → Option Nat
  | .integer n => if 0 ≤ n then some n.toNat else none
  | _ => none

def Value.flag? : Value → Option Bool
  | .flag b => some b
  | _ => none

def Value.text? : Value → Option String
  | .text s => some s
  | _ => none

/-- One of several names, given as a text, or as the only key of a table, with nothing in it. -/
def Value.choice? {α : Type} (ofText? : String → Option α) : Value → Option α
  | .text s => ofText? s
  | .table _ [(name, .table _ [])] => ofText? name
  | .table _ [(name, .array [])] => ofText? name
  | _ => none

def Fields.getD? {α : Type} (fields : Fields) (place : Nat) (name : String)
    (read? : Value → Option α) (default : α) : Option α :=
  match fields place name with
  | some v => read? v
  | none => some default

def Fields.get? {α : Type} (fields : Fields) (place : Nat) (name : String)
    (read? : Value → Option α) : Option α :=
  (fields place name).bind read?

end LoanPool.Toml
