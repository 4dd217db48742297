import LoanPool.Config
import LoanPool.Pending

/-!
# Deadlines

What the deadline of a waiting request means under each timeout action.
-/
namespace LoanPool

inductive Expiry where
  | fail (after : Duration)
  | openOverflow
  | ignore
deriving DecidableEq, Repr, Inhabited

/-- What the deadline of a queued request means, and the request afterwards. Its timer is spent;
a connection past capacity is asked for once. -/
def Config.expire (c : Config) (r : Pending.Request) : Expiry × Pending.Request :=
  let r := { r with timer := none }
  match c.acquireTimeout, c.timeoutAction with
  | none, _ => (.ignore, r)
  | some _, .none => (.ignore, r)
  | some timeout, .fail => (.fail timeout, r)
  | some _, .newConnection =>
    let (first, r) := r.openOverflow
    (if first then .openOverflow else .ignore, r)

def Config.expiries (c : Config) (r : Pending.Request) : Nat → List Expiry
  | 0 => []
  | n + 1 => (c.expire r).1 :: c.expiries (c.expire r).2 n

open Pending (Request)

theorem ticket_expire (config : Config) (r : Request) : (config.expire r).2.ticket = r.ticket := by
  simp only [Config.expire]
  split <;> rfl

theorem id_expire (config : Config) (r : Request) : (config.expire r).2.id = r.id := by
  simp only [Config.expire]
  split <;> rfl

theorem timer_expire (config : Config) (r : Request) : (config.expire r).2.timer = none := by
  simp only [Config.expire]
  split <;> rfl

/-- A deadline never takes back that a connection was asked for past capacity. -/
theorem overflowOpened_expire (config : Config) {r : Request} (opened : r.overflowOpened = true) :
    (config.expire r).2.overflowOpened = true := by
  simp only [Config.expire]
  split
  · exact opened
  · exact opened
  · exact opened
  · rfl

/-- A connection past capacity is asked for once, and only if the configuration says so. -/
theorem expire_eq_openOverflow {config : Config} {r r' : Request}
    (due : config.expire r = (.openOverflow, r')) :
    config.timeoutAction = .newConnection ∧ config.acquireTimeoutMs ≠ 0 ∧
      r.overflowOpened = false ∧ r'.overflowOpened = true ∧ r'.id = r.id := by
  simp only [Config.expire] at due
  split at due
  · cases due
  · cases due
  · cases due
  · next timeout limited action =>
    have unlimited : config.acquireTimeoutMs ≠ 0 := by
      intro zero
      simp [Config.acquireTimeout, zero] at limited
    cases opened : r.overflowOpened with
    | false =>
      simp only [Request.openOverflow, opened] at due
      cases due
      exact ⟨action, unlimited, rfl, rfl, rfl⟩
    | true => simp [Request.openOverflow, opened] at due

theorem action_of_expire {config : Config} {r : Request} {after : Duration}
    (due : (config.expire r).1 = .fail after) : config.timeoutAction = .fail := by
  simp only [Config.expire] at due
  split at due
  · cases due
  · cases due
  · next action => exact action
  · split at due <;> cases due

theorem limit_of_expire {config : Config} {r : Request} {after : Duration}
    (due : (config.expire r).1 = .fail after) : config.acquireTimeout = some after := by
  simp only [Config.expire] at due
  split at due
  · cases due
  · cases due
  · next limited action =>
    cases due
    exact limited
  · split at due <;> cases due

end LoanPool
