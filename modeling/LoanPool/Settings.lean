import LoanPool.Pool.Basic
import LoanPool.Toml.Reader

/-!
# Settings

One endpoint and the pool of connections to it, as they stand in a settings file. The section of
the endpoint must be there, and in it the address; all else has default values. Each field has a
line of its own; an unbounded queue is one whose limit is not written.
-/
namespace LoanPool
open Toml (Fields Table Value)

/-! ### The pool -/

namespace Config

def ofFields? (fields : Fields) : Option Config := do
  let basic : Config := {}
  let maxConnections ← fields.getD? 0 "max_connections" Value.count? basic.maxConnections
  let maxPending ←
    fields.getD? 1 "max_pending_acquires" (fun v => v.count?.map some) basic.maxPending
  let acquireTimeoutMs ← fields.getD? 2 "acquire_timeout_ms" Value.count? basic.acquireTimeoutMs
  let timeoutAction ←
    fields.getD? 3 "timeout_action" (Value.choice? TimeoutAction.ofText?) basic.timeoutAction
  let checkOnRelease ← fields.getD? 4 "health_check_on_release" Value.flag? basic.checkOnRelease
  let lifo ← fields.getD? 5 "lifo" Value.flag? basic.lifo
  let overflow ←
    fields.getD? 6 "overflow" (Value.choice? OverflowPolicy.ofText?) basic.overflow
  some { maxConnections, maxPending, acquireTimeoutMs, timeoutAction, checkOnRelease, lifo, overflow }

def ofValue? (v : Value) : Option Config :=
  v.fields?.bind ofFields?

def toTable (c : Config) : Table :=
  ("max_connections", .integer c.maxConnections)
    :: (match c.maxPending with
        | some limit => [("max_pending_acquires", .integer limit)]
        | none => [])
    ++ [("acquire_timeout_ms", .integer c.acquireTimeoutMs),
        ("timeout_action", .text c.timeoutAction.text),
        ("health_check_on_release", .flag c.checkOnRelease),
        ("lifo", .flag c.lifo),
        ("overflow", .text c.overflow.text)]

def ofToml (text : String) : Except ConfigFault Config := do
  let some t := Toml.read? text | .error .unreadable
  let some c := ofValue? (.table .header t) | .error .unreadable
  c.validate
  return c

/-- The written form. There is none if a number is past the greatest that can be written. -/
def toToml? (c : Config) : Option String :=
  (Table.write? c.toTable).map String.ofList

end Config

/-! ### The endpoint -/

/-- The property White_Space of the Unicode character database. -/
def isWhiteSpace (c : Char) : Bool :=
  let n := c.toNat
  (9 ≤ n && n ≤ 13) || n == 32 || n == 0x85 || n == 0xA0 || n == 0x1680
    || (0x2000 ≤ n && n ≤ 0x200A) || n == 0x2028 || n == 0x2029 || n == 0x202F || n == 0x205F
    || n == 0x3000

def isBlankText (s : String) : Bool :=
  s.toList.all isWhiteSpace

structure Endpoint where
  address : String
  connectTimeoutMs : Nat := 5000
  recvTimeoutMs : Nat := 30000
  nodelay : Bool := true
deriving DecidableEq, Repr, Inhabited

structure Settings where
  endpoint : Endpoint
  pool : Config := {}
deriving DecidableEq, Repr, Inhabited

inductive SettingsFault where
  | unreadable
  | noAddress
  | noConnectTime
  | pool (fault : ConfigFault)
deriving DecidableEq, Repr, Inhabited

def SettingsFault.text : SettingsFault → String
  | .unreadable => "TOML parse error"
  | .noAddress => "endpoint.address must not be empty"
  | .noConnectTime => "endpoint.connect_timeout_ms must be at least 1"
  | .pool fault => (PoolError.configuration fault).message

namespace Endpoint

def ofFields? (fields : Fields) : Option Endpoint := do
  let address ← fields.get? 0 "address" Value.text?
  let basic : Endpoint := { address }
  let connectTimeoutMs ← fields.getD? 1 "connect_timeout_ms" Value.count? basic.connectTimeoutMs
  let recvTimeoutMs ← fields.getD? 2 "recv_timeout_ms" Value.count? basic.recvTimeoutMs
  let nodelay ← fields.getD? 3 "nodelay" Value.flag? basic.nodelay
  some { address, connectTimeoutMs, recvTimeoutMs, nodelay }

def ofValue? (v : Value) : Option Endpoint :=
  v.fields?.bind ofFields?

def toTable (e : Endpoint) : Table :=
  [("address", .text e.address),
    ("connect_timeout_ms", .integer e.connectTimeoutMs),
    ("recv_timeout_ms", .integer e.recvTimeoutMs),
    ("nodelay", .flag e.nodelay)]

end Endpoint

namespace Settings

def validate (s : Settings) : Except SettingsFault Unit :=
  if isBlankText s.endpoint.address then .error .noAddress
  else if s.endpoint.connectTimeoutMs = 0 then .error .noConnectTime
  else s.pool.validate.mapError .pool

def ofTable? (t : Table) : Option Settings := do
  let endpoint ← (t.lookup "endpoint").bind Endpoint.ofValue?
  let pool ←
    match t.lookup "pool" with
    | some v => Config.ofValue? v
    | none => some {}
  some { endpoint, pool }

def ofToml (text : String) : Except SettingsFault Settings := do
  let some t := Toml.read? text | .error .unreadable
  let some s := ofTable? t | .error .unreadable
  s.validate
  return s

def toToml? (s : Settings) : Option String := do
  let endpoint ← Toml.writeSection? "endpoint" s.endpoint.toTable
  let pool ← Toml.writeSection? "pool" s.pool.toTable
  some (String.ofList (endpoint ++ '\n' :: pool))

end Settings

/-! ### Files -/

inductive FileFault where
  | unread (reason : String)
  | unusable (fault : SettingsFault)
deriving DecidableEq, Repr, Inhabited

def FileFault.chain (name : String) : FileFault → List String
  | .unread reason => ["failed to read " ++ name, reason]
  | .unusable fault => ["invalid config " ++ name, fault.text]

def Settings.ofFile (content : Except String String) : Except FileFault Settings :=
  match content with
  | .error reason => .error (.unread reason)
  | .ok text => (Settings.ofToml text).mapError .unusable

end LoanPool
