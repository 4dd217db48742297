import LoanPool.Proofs.Refill

/-!
# Footprints

Which effects the functions of a turn may add to its log. What holds of all effects so far still
holds behind a function if it holds of everything that the function may add, so each property of
effects needs to be looked at only where it may fail.
-/
namespace LoanPool
open Pending (Request)

namespace Turn
variable {w : Surroundings} {t t' : Turn} {P : Effect → Prop} {id : ConnId} {r : Request}

def All (P : Effect → Prop) (t : Turn) : Prop :=
  ∀ e ∈ t.effects, P e

theorem all_emit {e : Effect} (all : t.All P) (holds : P e) : (t.emit e).All P :=
  (adds_emit t e).forall all (List.forall_mem_singleton.mpr holds)

theorem all_answer? {outcome : Outcome} (all : t.All P) (told : ∀ k, P (.answer k outcome))
    (reply : Option Ticket) : (t.answer? reply outcome).All P := by
  cases reply with
  | none => exact all
  | some k => exact all_emit all (told k)

theorem all_stops (stop : ∀ timer, P (.disarm timer)) (rs : List Request) :
    ∀ e ∈ stops rs, P e := by
  intro e member
  obtain ⟨timer, -, rfl⟩ := List.mem_map.mp member
  exact stop timer

theorem all_disarm (all : t.All P) (stop : ∀ timer, P (.disarm timer)) (r : Request) :
    (t.disarm r).All P :=
  (adds_disarm t r).forall all (all_stops stop [r])

theorem all_fail {cause : PoolError} (all : t.All P) (stop : ∀ timer, P (.disarm timer))
    (told : P (.answer r.ticket (.failed cause))) : (t.fail r cause).All P :=
  all_emit (all_disarm all stop r) told

theorem all_prune (all : t.All P) (stop : ∀ timer, P (.disarm timer)) : (t.prune w).All P := by
  have pending : (t.withPending (t.pool.pending.prune (w.gone t.effects))).All P := all
  exact (adds_disarmAll _ _).forall pending (all_stops stop _)

theorem all_takePending {request : RequestId} {found : Option Request} (all : t.All P)
    (fetched : t.takePending request = (found, t')) : t'.All P := by
  rw [All, effects, log_takePending fetched]
  exact all

theorem all_failTarget {cause : PoolError} (all : t.All P) (stop : ∀ timer, P (.disarm timer))
    (told : ∀ k, P (.answer k (.failed cause))) (target : Target) :
    (t.failTarget target cause).All P := by
  simp only [failTarget]
  split
  · exact all_fail all stop (told _)
  · split
    · next r t' fetched => exact all_fail (all_takePending all fetched) stop (told _)
    · next t' fetched => exact all_takePending all fetched

theorem all_openFor {target : Target} (all : t.All P) (connect : P (.connect target))
    (stop : ∀ timer, P (.disarm timer)) (told : ∀ k, P (.answer k (.failed .poolClosed))) :
    (t.openFor w target).All P := by
  simp only [openFor]
  split
  · exact all_emit (t := t.withRegistry _) all connect
  · exact all_failTarget all stop told target

theorem all_discard (all : t.All P) (close : ∀ serial, P (.close serial)) (id : ConnId) :
    (t.discard w id).All P := by
  simp only [discard]
  split
  · exact all_emit (t := t.withRegistry _) all (close _)
  · exact all

theorem all_checkout {found : Option ConnId} (all : t.All P) (close : ∀ serial, P (.close serial))
    (taken : t.checkout w = (found, t')) : t'.All P := by
  fun_induction Turn.checkout w t with
  | case1 t empty =>
    cases taken
    exact all
  | case2 t first r known active =>
    cases taken
    exact all
  | case3 t first r known inactive ih =>
    exact ih (all_discard (t := t.withRegistry r) all close first) taken

theorem all_shutDown (all : t.All P) (stop : ∀ timer, P (.disarm timer))
    (told : ∀ k, P (.answer k (.failed .poolClosed))) (close : ∀ serial, P (.close serial)) :
    (t.shutDown w).All P := by
  simp only [shutDown, shutDownIn]
  generalize shut : { t with pool := { t.pool with
    closed := true, pending := { t.pool.pending with requests := [] } } } = t'
  have closing : t'.All P := shut ▸ all
  refine List.foldlRecOn _ _ ?_ fun _ all id _ => all_discard all close id
  exact List.foldlRecOn _ _ closing fun _ all r _ => all_fail all stop (told _)

/-! ### Connections and those they are brought to -/

theorem all_popFrom {rs : List Request} {found : Option Request} (all : t.All P)
    (stop : ∀ timer, P (.disarm timer)) (popped : t.popFrom w rs = (found, t')) : t'.All P := by
  induction rs generalizing t with
  | nil =>
    cases popped
    exact all
  | cons first others ih =>
    have taken : (t.withPending { t.pool.pending with requests := others }).All P := all
    simp only [popFrom] at popped
    split at popped
    · exact ih (all_disarm taken stop first) popped
    · cases popped
      exact taken

structure Handles (P : Effect → Prop) : Prop where
  delivers : ∀ e serial, Effect.Delivers serial e → P e
  closed : ∀ k, P (.answer k (.failed .poolClosed))

namespace Handles
variable (handles : Handles P)
include handles

theorem stop (timer : TimerId) : P (.disarm timer) :=
  handles.delivers _ ⟨0⟩ trivial

theorem close (serial : Serial) : P (.close serial) :=
  handles.delivers (.close serial) serial rfl

end Handles

theorem all_attempt (handles : Handles P) (all : t.All P) : (t.attempt w r id).2.All P := by
  simp only [attempt]
  split
  · exact all_fail all handles.stop (handles.closed _)
  next serial known =>
  have called : (t.call w .acquired serial).All P :=
    all_emit all (handles.delivers _ serial ⟨rfl, rfl⟩)
  split
  · have closed := all_discard (w := w) called handles.close id
    exact all_fail closed handles.stop (handles.delivers _ serial trivial)
  · have settled := all_disarm called handles.stop r
    split
    · exact settled
    · exact all_emit settled (handles.delivers _ serial rfl)

theorem all_shelve (handles : Handles P) (all : t.All P) : (t.shelve w id).All P := by
  simp only [shelve]
  split
  · exact all_discard all handles.close id
  · exact all

theorem all_recycle (handles : Handles P) (all : t.All P) : (t.recycle w id).All P := by
  fun_induction Turn.recycle w t id with
  | case1 t t' popped => exact all_shelve handles (all_popFrom all handles.stop popped)
  | case2 t r t' popped offered left ih =>
    have taken := all_popFrom all handles.stop popped
    exact ih (all_attempt (t := t'.handOver id) handles taken)
  | case3 t r t' popped offered taken =>
    have taken := all_popFrom all handles.stop popped
    exact all_attempt (t := t'.handOver id) handles taken

theorem all_deliver (handles : Handles P) (all : t.All P) : (t.deliver w r id).All P := by
  simp only [deliver]
  split
  · exact all_recycle handles (all_attempt handles all)
  · exact all_attempt handles all

end Turn
end LoanPool
