import Mathlib.Data.List.Count
import Mathlib.Data.List.Nodup
import LoanPool.Proofs.Delivery
import LoanPool.Proofs.Notices

/-!
# Dissolution

A pool that shuts down closes its connections one after the other, in whatever order it finds them.
Each of these steps takes from the registry by the slot that the connection is in, so what is left
in between depends on the order; what is left in the end does not, because a balanced registry of no
connections holds nothing but what is being opened and what is closing.
-/
namespace LoanPool
open Pending (Request)

/-- Closing a connection is nothing to the others: whether one of them confirms its close does not
depend on it. -/
def Surroundings.ClosesApart (w : Surroundings) : Prop :=
  ∀ log serial other, serial ≠ other →
    w.confirms (log ++ [.close other]) serial = w.confirms log serial

theorem Site.closesApart (now : Nat) (s : Site) : (surroundings (s.enactAll now)).ClosesApart := by
  intro log serial other apart
  have same : (s.enactAll now (log ++ [.close other])).connection? serial =
      (s.enactAll now log).connection? serial := by
    rw [enactAll, List.foldl_append]
    exact (lookup_modify _ other serial _).trans (if_neg apart)
  simp only [surroundings, same]

/-- The same pool, in whatever order it lists the connections that are closing. -/
structure Pool.Agrees (p q : Pool) : Prop where
  same : q = { p with registry := { p.registry with closing := q.registry.closing } }
  closing : q.registry.closing.Perm p.registry.closing

def Pool.dissolved (p : Pool) (closing : List ConnId) : Pool :=
  { p with
    closed := true
    pending := { p.pending with requests := [] }
    registry := { closing, acquired := p.registry.connecting, connecting := p.registry.connecting,
                  lifo := p.registry.lifo } }

namespace Registry
variable {r r' : Registry} {confirms : Serial → Bool} {id i : ConnId} {serial : Serial}

def farewell? (r : Registry) (id : ConnId) : Option Effect :=
  (r.serial? id).map .close

def Lags (r : Registry) (confirms : Serial → Bool) (id : ConnId) : Bool :=
  (r.serial? id).any fun serial => !confirms serial

theorem serial?_discard? (removed : r.discard? confirms id = some (serial, r')) (other : i ≠ id) :
    r'.serial? i = r.serial? i := by
  have entries := entries_discard? removed
  rw [serial?, serial?, find?, find?, entries, find?_filter_ne, if_neg other]

theorem closing_of_discard? (b : r.Balanced)
    (removed : r.discard? confirms id = some (serial, r')) :
    r'.closing = r.closing ++ [id].filter (r.Lags confirms) := by
  simp only [discard?, Option.map_eq_some_iff, Prod.exists, Prod.mk.injEq] at removed
  obtain ⟨serial', mid, gone, rfl, rfl⟩ := removed
  obtain ⟨-, closing, -⟩ := frame_remove? gone
  have known := serial?_of_remove? gone
  have apart : id ∉ r.closing := fun member => b.apart id member (mem_ids_of_remove? gone)
  cases settled : confirms serial' with
  | true => simp [Lags, known, settled, closing]
  | false => simp [Lags, known, settled, apart, closing]

theorem frame_discard? (removed : r.discard? confirms id = some (serial, r')) :
    r'.connecting = r.connecting ∧ r'.lifo = r.lifo := by
  simp only [discard?, remove?, Option.map_eq_some_iff, Prod.exists, Prod.mk.injEq] at removed
  obtain ⟨_, mid, gone, -, rfl⟩ := removed
  split at gone
  · cases gone
    split <;> split <;> exact ⟨rfl, rfl⟩
  · cases gone

theorem eq_of_unregistered (b : r.Balanced) (none_left : r.entries = []) :
    r = { closing := r.closing, acquired := r.connecting, connecting := r.connecting,
          lifo := r.lifo } := by
  have idle : r.idle = [] := by
    rw [List.eq_nil_iff_forall_not_mem]
    intro id queued
    have known := (b.idle id).mp queued
    simp [slot?, find?, none_left] at known
  have units : r.acquired = r.connecting := by
    rw [b.units, inUse, none_left, List.countP_nil, Nat.add_zero]
  have solvent := b.solvent
  obtain ⟨entries, queue, closing, acquired, connecting, lifo, overdrawn⟩ := r
  dsimp only at none_left idle units solvent
  rw [none_left, idle, units, solvent]

end Registry

namespace Turn
variable {w : Surroundings} {t u : Turn} {id : ConnId} {order order' : List ConnId}

/-! ### Closing one connection after the other -/

structure Evicted (w : Surroundings) (t : Turn) (order : List ConnId) (u : Turn) : Prop where
  pool : u.pool = { t.pool with registry := u.pool.registry }
  balanced : u.pool.registry.Balanced
  connecting : u.pool.registry.connecting = t.pool.registry.connecting
  lifo : u.pool.registry.lifo = t.pool.registry.lifo
  closing : u.pool.registry.closing =
    t.pool.registry.closing ++ order.filter (t.pool.registry.Lags (w.confirms t.effects))
  effects : u.effects = t.effects ++ order.filterMap t.pool.registry.farewell?

variable {front back : List ConnId} {mid : Turn}

theorem evicted_nil (b : t.pool.registry.Balanced) : t.Evicted w [] t :=
  ⟨rfl, b, rfl, rfl, (List.append_nil _).symm, (List.append_nil _).symm⟩

/-- What is closed later is none of the business of what is closed first. -/
theorem Evicted.trans (first : t.Evicted w front mid) (then_ : mid.Evicted w back u)
    (kept : ∀ i ∈ back, mid.pool.registry.serial? i = t.pool.registry.serial? i)
    (apart : ∀ i ∈ back, ∀ serial, t.pool.registry.serial? i = some serial →
      w.confirms mid.effects serial = w.confirms t.effects serial) :
    t.Evicted w (front ++ back) u where
  pool := by rw [then_.pool, first.pool]
  balanced := then_.balanced
  connecting := then_.connecting.trans first.connecting
  lifo := then_.lifo.trans first.lifo
  closing := by
    have lags : ∀ i ∈ back, mid.pool.registry.Lags (w.confirms mid.effects) i =
        t.pool.registry.Lags (w.confirms t.effects) i := by
      intro i member
      rw [Registry.Lags, Registry.Lags, kept i member]
      cases known : t.pool.registry.serial? i with
      | none => rfl
      | some serial => simp only [Option.any_some, apart i member serial known]
    rw [then_.closing, first.closing, List.filter_congr lags, List.filter_append,
      List.append_assoc]
  effects := by
    have told : ∀ i ∈ back, mid.pool.registry.farewell? i = t.pool.registry.farewell? i :=
      fun i member => by rw [Registry.farewell?, Registry.farewell?, kept i member]
    rw [then_.effects, first.effects, List.filterMap_congr told, List.filterMap_append,
      List.append_assoc]

theorem evicted_discard (b : t.pool.registry.Balanced) (registered : id ∈ t.pool.registry.ids) :
    ∃ serial reg, t.pool.registry.discard? (w.confirms t.effects) id = some (serial, reg) ∧
      (t.discard w id).pool.registry = reg ∧
      (t.discard w id).effects = t.effects ++ [.close serial] ∧
      t.Evicted w [id] (t.discard w id) := by
  obtain ⟨slot, known⟩ := Registry.slot?_of_mem_ids registered
  obtain ⟨e, found, -⟩ := Registry.find?_of_slot? known
  have known : t.pool.registry.serial? id = some e.serial := by
    rw [Registry.serial?, found, Option.map_some]
  obtain ⟨reg, removed, eq⟩ := discard_of_known (w := w) known
  obtain ⟨connecting, lifo⟩ := Registry.frame_discard? removed
  have said : (t.discard w id).effects = t.effects ++ [.close e.serial] := by
    rw [eq]
    exact (adds_emit (t.withRegistry reg) _).effects
  refine ⟨e.serial, reg, removed, by rw [eq]; rfl, said, ?_⟩
  constructor
  case effects =>
    rw [said]
    simp [Registry.farewell?, known]
  all_goals rw [eq]
  · rfl
  · exact Registry.balanced_discard? b removed
  · exact connecting
  · exact lifo
  · exact Registry.closing_of_discard? b removed

theorem evicted_all (apart : w.ClosesApart) (b : t.pool.registry.Balanced)
    (distinct : (t.pool.registry.names.map (·.2)).Nodup) (once : order.Nodup)
    (registered : ∀ id ∈ order, id ∈ t.pool.registry.ids) :
    t.Evicted w order (order.foldl (discard w) t) := by
  induction order generalizing t with
  | nil => exact evicted_nil b
  | cons id rest ih =>
    rw [List.nodup_cons] at once
    rw [List.forall_mem_cons] at registered
    obtain ⟨serial, reg, removed, left, said, first⟩ :=
      evicted_discard (w := w) b registered.1
    have other : ∀ i ∈ rest, i ≠ id := by
      rintro i member rfl
      exact once.1 member
    have kept : ∀ i ∈ rest, (t.discard w id).pool.registry.serial? i =
        t.pool.registry.serial? i := by
      intro i member
      rw [left]
      exact Registry.serial?_discard? removed (other i member)
    have then_ : (t.discard w id).Evicted w rest (rest.foldl (discard w) (t.discard w id)) := by
      apply ih first.balanced _ once.2
      · intro i member
        obtain ⟨slot, known⟩ := Registry.slot?_of_mem_ids (registered.2 i member)
        have still : reg.slot? i = some slot := by
          rw [Registry.slot?_discard? removed, if_neg (other i member), known]
        rw [left]
        exact Registry.mem_ids_of_slot? still
      · rw [left, Registry.names_discard? removed]
        exact distinct.sublist (List.filter_sublist.map _)
    refine first.trans then_ kept fun i member serial' known => ?_
    rw [said]
    -- Connections of two ids are two, so the close of the one says nothing of the other.
    apply apart
    rintro rfl
    have here := Registry.mem_names_of_discard? removed
    have there := Registry.mem_names_of_serial? known
    have same := List.inj_on_of_nodup_map distinct here there rfl
    exact other i member (congrArg Prod.fst same).symm

/-! ### All of them -/

theorem adds_failAll (t : Turn) (rs : List Request) (cause : PoolError) :
    t.Adds (rs.flatMap (·.farewell cause)) (rs.foldl (fun t r => t.fail r cause) t) := by
  induction rs generalizing t with
  | nil => exact adds_refl t
  | cons r rest ih => exact (adds_fail t r cause).trans (ih _)

theorem shutDownIn_of_balanced {p : Pool} (apart : w.ClosesApart) (b : p.registry.Balanced)
    (distinct : (p.registry.names.map (·.2)).Nodup) (listed : order.Perm p.registry.ids) :
    let told := p.pending.requests.flatMap (·.farewell .poolClosed)
    let t := (Turn.mk p []).shutDownIn w order
    t.pool = p.dissolved
        (p.registry.closing ++ order.filter (p.registry.Lags (w.confirms told))) ∧
      t.effects = told ++ order.filterMap p.registry.farewell? := by
  intro told t
  let waiting : Turn :=
    ⟨{ p with closed := true, pending := { p.pending with requests := [] } }, []⟩
  let failed := p.pending.requests.foldl (fun t r => t.fail r .poolClosed) waiting
  have kept : failed.pool = waiting.pool := pool_failAll _ _ _
  have said : failed.effects = told := (adds_failAll waiting _ _).effects
  have evicted : failed.Evicted w order t :=
    evicted_all apart (kept ▸ b) (kept ▸ distinct) (listed.nodup_iff.mpr b.named)
      fun id member => kept ▸ listed.mem_iff.mp member
  have unregistered : t.pool.registry.entries = [] := by
    change (order.foldl (discard w) failed).pool.registry.entries = []
    rw [entries_evictAll, kept, List.filter_eq_nil_iff]
    intro e member
    simpa using listed.mem_iff.mpr (List.mem_map_of_mem member)
  have registry := Registry.eq_of_unregistered evicted.balanced unregistered
  rw [evicted.closing, evicted.connecting, evicted.lifo, said, kept] at registry
  constructor
  · rw [evicted.pool, registry, kept]
    rfl
  · rw [evicted.effects, said, kept]

end Turn

/-! ### Runs -/

/-- No connection is registered twice. -/
theorem nodup_serials {sc : Scene} (attended : sc.Attended) :
    (sc.registry.names.map (·.2)).Nodup := by
  have traced := attended.watched.traced
  have named : sc.registry.names.Nodup := by
    refine List.Nodup.of_map (·.1) ?_
    rw [← Registry.ids_eq_names]
    exact attended.watched.kept.accounted.balanced.named
  refine named.map_on fun n member n' member' same => ?_
  -- Whatever is registered was opened, and each connection is opened once.
  exact eq_of_serial attended.upkept (traced.named n member) (traced.named n' member') same

/-- Whatever the order, each registered connection is told to close once, and no other is. -/
theorem count_farewells {r : Registry} (b : r.Balanced) (distinct : (r.names.map (·.2)).Nodup)
    {order : List ConnId} (listed : order.Perm r.ids) (serial : Serial) :
    (order.filterMap r.farewell?).count (.close serial) =
      if serial ∈ r.names.map (·.2) then 1 else 0 := by
  have calls : r.ids.filterMap r.farewell? = (r.names.map (·.2)).map .close := by
    rw [Registry.ids, Registry.names, List.filterMap_map, List.map_map, List.map_map,
      ← List.filterMap_eq_map]
    refine List.filterMap_congr fun e member => ?_
    have found : r.find? e.id = some e := Keyed.find?_of_mem b.named member
    simp [Registry.farewell?, Registry.serial?, found, Entry.name]
  rw [(listed.filterMap _).count_eq, calls,
    List.count_map_of_injective _ _ fun _ _ same => Effect.close.inj same]
  split
  · next member => exact List.count_eq_one_of_mem distinct member
  · next unknown => exact List.count_eq_zero.mpr unknown

variable {config : Config} {observer : Hook → Nat → Option String} {past : List Site.Record}
  {now : Nat} {s : Site}

/-- Shutting a pool down does not depend on the order in which it finds its connections. In whatever
order they are closed, the pool is left in the same state, and the same is said to those who waited;
each connection that was registered is told to close once, and no other is. Only the order of these
calls differs. -/
theorem shut_down_in_any_order {w : Surroundings} (run : Site.Run config observer past now s)
    (apart : w.ClosesApart) {order order' : List ConnId} (listed : order.Perm s.pool.registry.ids)
    (listed' : order'.Perm s.pool.registry.ids) :
    let t := (Turn.mk s.pool []).shutDownIn w order
    let t' := (Turn.mk s.pool []).shutDownIn w order'
    let told := s.pool.pending.requests.flatMap (·.farewell .poolClosed)
    t.pool.Agrees t'.pool ∧
      t.effects = told ++ order.filterMap s.pool.registry.farewell? ∧
      t'.effects = told ++ order'.filterMap s.pool.registry.farewell? ∧
      ∀ serial,
        t.effects.count (.close serial) =
          (if serial ∈ s.pool.registry.names.map (·.2) then 1 else 0) ∧
        t'.effects.count (.close serial) = t.effects.count (.close serial) := by
  intro t t' told
  obtain ⟨c, attended⟩ := run_invariant Scene.Attended run attended_move
    (attended_start config observer)
  have b : s.pool.registry.Balanced := attended.watched.kept.accounted.balanced
  have distinct : (s.pool.registry.names.map (·.2)).Nodup := nodup_serials attended
  obtain ⟨left, said⟩ := Turn.shutDownIn_of_balanced apart b distinct listed
  obtain ⟨left', said'⟩ := Turn.shutDownIn_of_balanced apart b distinct listed'
  have silent : ∀ serial, told.count (.close serial) = 0 := by
    intro serial
    rw [List.count_eq_zero, List.mem_flatMap]
    rintro ⟨r, -, member⟩
    simp [Request.farewell, stops] at member
  have counted := count_farewells b distinct listed
  have counted' := count_farewells b distinct listed'
  refine ⟨?_, said, said', fun serial => ?_⟩
  · rw [left, left']
    exact ⟨rfl, ((listed'.trans listed.symm).filter _).append_left _⟩
  · rw [said, said', List.count_append, List.count_append, silent, counted, counted']
    exact ⟨Nat.zero_add _, rfl⟩

/-- One connection is on loan, the other one is being checked, and a caller waits. -/
def inFullUse : List (Nat × Option Site.Event) :=
  [(0, some (.acquire ⟨1⟩)), (0, some (.acquire ⟨2⟩)), (0, none), (0, none),
    (2, some (.connected ⟨0⟩ (.ok (⟨1⟩, { confirmation := .after 5 })))),
    (2, some (.connected ⟨1⟩ (.ok (⟨2⟩, { confirmation := .fromOutside })))), (2, none), (2, none),
    (3, some (.read ⟨2⟩)), (4, some (.acquire ⟨3⟩)), (4, none), (5, some (.dropLoan ⟨2⟩)),
    (5, none)]

theorem same_of_inFullUse :
    ∃ past now s, Site.Run { maxConnections := 2, acquireTimeoutMs := 50, timeoutAction := .fail }
        (fun _ _ => none) past now s ∧
      let w := Site.surroundings (s.enactAll now)
      let t := (Turn.mk s.pool []).shutDownIn w [⟨1⟩, ⟨2⟩]
      let t' := (Turn.mk s.pool []).shutDownIn w [⟨2⟩, ⟨1⟩]
      w.ClosesApart ∧ s.pool.registry.ids = [⟨1⟩, ⟨2⟩] ∧ t.pool.Agrees t'.pool ∧
        t.effects = [.disarm ⟨3⟩, .answer ⟨3⟩ (.failed .poolClosed), .close ⟨1⟩, .close ⟨2⟩] ∧
        t'.effects = [.disarm ⟨3⟩, .answer ⟨3⟩ (.failed .poolClosed), .close ⟨2⟩, .close ⟨1⟩] := by
  obtain ⟨past, now, s, run, seen⟩ :=
    Site.exists_run { maxConnections := 2, acquireTimeoutMs := 50, timeoutAction := .fail }
      (fun _ _ => none) inFullUse
      (fun _ s => s.pool.registry.ids == [⟨1⟩, ⟨2⟩] &&
        s.pool.pending.requests.flatMap (·.farewell .poolClosed) ==
          [.disarm ⟨3⟩, .answer ⟨3⟩ (.failed .poolClosed)] &&
        [⟨1⟩, ⟨2⟩].filterMap s.pool.registry.farewell? == [.close ⟨1⟩, .close ⟨2⟩] &&
        [⟨2⟩, ⟨1⟩].filterMap s.pool.registry.farewell? == [.close ⟨2⟩, .close ⟨1⟩])
      (by decide +kernel)
  simp only [Bool.and_eq_true, beq_iff_eq] at seen
  obtain ⟨⟨⟨ids, told⟩, calls⟩, calls'⟩ := seen
  have apart := Site.closesApart now s
  have listed : [⟨1⟩, ⟨2⟩].Perm s.pool.registry.ids := ids ▸ .refl _
  have listed' : [⟨2⟩, ⟨1⟩].Perm s.pool.registry.ids := ids ▸ .swap _ _ _
  obtain ⟨agrees, said, said', -⟩ := shut_down_in_any_order run apart listed listed'
  rw [told, calls] at said
  rw [told, calls'] at said'
  exact ⟨past, now, s, run, apart, ids, agrees, said, said'⟩

end LoanPool
