import LoanPool.Proofs.Precedence
import LoanPool.Proofs.Shelf

/-!
# Which idle connection is lent

A caller is given the first idle connection that reports itself usable when it is asked. They are
asked in the order of the queue, which is the order in which they became idle, latest first or
oldest first; those that report themselves unusable are closed on the way. Where none is usable all
of them are closed, and the caller is given a new connection or a place in line, as if none had
been idle.
-/
namespace LoanPool
open Pending (Request)

/-! ### Connections that are passed over -/

/-- Each of these connections reports itself unusable when it is asked. Those before it have been
closed by then. -/
def Surroundings.Shuns (w : Surroundings) : List Effect → List (ConnId × Serial) → Prop
  | _, [] => True
  | log, n :: rest => w.active log n.2 = false ∧ w.Shuns (log ++ [.close n.2]) rest

def closes (ns : List (ConnId × Serial)) : List Effect :=
  ns.map fun n => .close n.2

namespace Registry
variable {r r' r'' : Registry} {id : ConnId} {serial : Serial} {confirms : Serial → Bool}

/-- The first idle connections are gone, with no trace of their capacity. All else is as it was. -/
structure Without (r : Registry) (gone : List ConnId) (r' : Registry) : Prop where
  idle : r.idle = gone ++ r'.idle
  slots : ∀ i, r'.slot? i = if i ∈ gone then none else r.slot? i
  serials : ∀ n ∈ r'.names, n ∈ r.names
  acquired : r'.acquired = r.acquired
  connecting : r'.connecting = r.connecting
  lifo : r'.lifo = r.lifo
  balanced : r'.Balanced

theorem without_nil (b : r.Balanced) : r.Without [] r where
  idle := rfl
  slots _ := rfl
  serials _ := id
  acquired := rfl
  connecting := rfl
  lifo := rfl
  balanced := b

theorem Without.trans {gone gone' : List ConnId} (first : r.Without gone r')
    (then_ : r'.Without gone' r'') : r.Without (gone ++ gone') r'' where
  idle := by rw [first.idle, then_.idle, List.append_assoc]
  slots i := by
    rw [then_.slots, first.slots]
    by_cases later : i ∈ gone' <;> simp [later]
  serials n member := first.serials n (then_.serials n member)
  acquired := then_.acquired.trans first.acquired
  connecting := then_.connecting.trans first.connecting
  lifo := then_.lifo.trans first.lifo
  balanced := then_.balanced

theorem Without.size_le {gone : List ConnId} (without : r.Without gone r') (b : r.Balanced) :
    r'.size ≤ r.size := by
  have before := size_add_connecting b
  have after := size_add_connecting without.balanced
  have shorter : r'.idle.length ≤ r.idle.length := by
    rw [without.idle, List.length_append]
    exact Nat.le_add_left _ _
  rw [without.acquired, without.connecting] at after
  omega

theorem acquired_checkout? (b : r.Balanced) (taken : r.checkout? = some (id, r')) :
    r'.acquired = r.acquired + 1 := by
  obtain ⟨e, found, -⟩ := find?_of_slot? (slot?_checkout?_self b taken).1
  simp only [checkout?] at taken
  split at taken
  · cases taken
  · cases taken
    rw [if_pos (by simp [found])]

/-- An idle connection that is taken and then closed leaves as if it had never been there. -/
theorem without_first (b : r.Balanced) (taken : r.checkout? = some (id, r'))
    (removed : r'.discard? confirms id = some (serial, r'')) : r.Without [id] r'' := by
  obtain ⟨-, lent⟩ := slot?_checkout?_self b taken
  have vacated := vacated_discard? (by simp [lent]) removed
  constructor
  case idle => rw [vacated.idle, List.singleton_append, Turn.idle_checkout? taken]
  case slots =>
    intro i
    rw [slot?_discard? removed, slot?_checkout? taken]
    by_cases same : i = id <;> simp [same]
  case serials =>
    intro n member
    rw [names_discard? removed, (moved_checkout? taken).names] at member
    exact (List.mem_filter.mp member).1
  case acquired => rw [vacated.acquired, acquired_checkout? b taken, Nat.add_sub_cancel]
  case connecting => exact vacated.connecting.trans (moved_checkout? taken).connecting
  case lifo => exact (wanes_discard? removed).lifo.trans (wanes_checkout? taken).lifo
  case balanced => exact balanced_discard? (balanced_checkout? b taken) removed

end Registry

namespace Turn
variable {w : Surroundings} {t t' u : Turn} {id : ConnId} {serial : Serial} {r : Request}
  {k : Ticket} {skipped : List (ConnId × Serial)}

structure Skips (w : Surroundings) (t : Turn) (skipped : List (ConnId × Serial)) (t' : Turn) :
    Prop where
  asked : w.Shuns t.effects skipped
  known : ∀ n ∈ skipped, n ∈ t.pool.registry.names
  adds : t.Adds (closes skipped) t'
  registry : t.pool.registry.Without (skipped.map (·.1)) t'.pool.registry
  pool : t'.pool = { t.pool with registry := t'.pool.registry }

theorem skips_nil (b : t.pool.registry.Balanced) : t.Skips w [] t :=
  ⟨trivial, List.forall_mem_nil _, adds_refl t, Registry.without_nil b, rfl⟩

theorem Skips.cons (skips : u.Skips w skipped t') (inactive : w.active t.effects serial = false)
    (known : (id, serial) ∈ t.pool.registry.names) (adds : t.Adds [.close serial] u)
    (without : t.pool.registry.Without [id] u.pool.registry)
    (pool : u.pool = { t.pool with registry := u.pool.registry }) :
    t.Skips w ((id, serial) :: skipped) t' where
  asked := by
    have then_ := skips.asked
    rw [adds.effects] at then_
    exact ⟨inactive, then_⟩
  known := List.forall_mem_cons.mpr ⟨known, fun n member =>
    without.serials n (skips.known n member)⟩
  adds := adds.trans skips.adds
  registry := without.trans skips.registry
  pool := by rw [skips.pool, pool]

inductive Looked (w : Surroundings) (t : Turn) : Option ConnId × Turn → Prop where
  | none {skipped : List (ConnId × Serial)} {u : Turn} (skips : t.Skips w skipped u)
      (drained : u.pool.registry.idle = []) : Looked w t (none, u)
  | some {skipped : List (ConnId × Serial)} {u : Turn} {id : ConnId} {serial : Serial}
      {r : Registry} (skips : t.Skips w skipped u)
      (taken : u.pool.registry.checkout? = some (id, r))
      (known : r.serial? id = some serial) (active : w.active u.effects serial = true) :
      Looked w t (some id, u.withRegistry r)

theorem Looked.cons {found : Option ConnId × Turn} (looked : Looked w u found)
    (inactive : w.active t.effects serial = false)
    (known : (id, serial) ∈ t.pool.registry.names) (adds : t.Adds [.close serial] u)
    (without : t.pool.registry.Without [id] u.pool.registry)
    (pool : u.pool = { t.pool with registry := u.pool.registry }) : Looked w t found := by
  cases looked with
  | none skips drained => exact .none (skips.cons inactive known adds without pool) drained
  | some skips taken here active =>
    exact .some (skips.cons inactive known adds without pool) taken here active

theorem looked_checkout (b : t.pool.registry.Balanced) : Looked w t (t.checkout w) := by
  fun_induction Turn.checkout w t with
  | case1 t empty =>
    refine .none (skips_nil b) (idle_checkout (w := w) (t := t) ?_)
    rw [checkout_eq, empty]
  | case2 t first r taken active =>
    simp only [reportsActive] at active
    split at active
    · next serial known => exact .some (skips_nil b) taken known active
    · cases active
  | case3 t first r taken inactive ih =>
    obtain ⟨serial, known⟩ := known_of_slot (t := t.withRegistry r)
      (Registry.slot?_checkout?_self b taken).2
    obtain ⟨reg, removed, closed⟩ := discard_of_known (w := w) known
    have unusable : w.active t.effects serial = false := by
      simp only [reportsActive, known] at inactive
      exact Bool.eq_false_iff.mpr inactive
    have named := Registry.mem_names_of_serial? known
    rw [registry_withRegistry, (Registry.moved_checkout? taken).names] at named
    have without := Registry.without_first b taken removed
    rw [closed] at ih ⊢
    exact (ih without.balanced).cons unusable named (adds_emit _ _) without rfl

/-! ### What becomes of the one that is chosen -/

/-- What is done about a connection that is chosen for a caller while nobody else waits, and where
it ends up: lent, refused by the hook, or without a taker, in which case it is idle again unless it
is one too many. `rest` are the connections that are still idle. -/
inductive Fate (w : Surroundings) (p : Pool) (log : List Effect) (rest : List ConnId) (k : Ticket)
    (id : ConnId) (serial : Serial) : Option Slot → List ConnId → List Effect → Prop where
  | lent (agreed : w.refusal log .acquired serial = none)
      (present : w.gone (log ++ [.hook .acquired serial none]) k = false) :
      Fate w p log rest k id serial (some .onLoan) rest
        [.hook .acquired serial none, .answer k (.loan id serial)]
  | refused {reason : String} (objects : w.refusal log .acquired serial = some reason) :
      Fate w p log rest k id serial none rest
        [.hook .acquired serial (some reason), .close serial,
          .answer k (.failed (.observer reason))]
  | shelved (agreed : w.refusal log .acquired serial = none)
      (left : w.gone (log ++ [.hook .acquired serial none]) k = true) :
      Fate w p log rest k id serial (some .idle) (joined p.registry.lifo rest id)
        [.hook .acquired serial none]
  | surplus (agreed : w.refusal log .acquired serial = none)
      (left : w.gone (log ++ [.hook .acquired serial none]) k = true)
      (shrinks : p.config.overflow = .shrink)
      (crowded : p.config.maxConnections < p.registry.size) :
      Fate w p log rest k id serial none rest [.hook .acquired serial none, .close serial]

structure Puts (t : Turn) (id : ConnId) (slot : Option Slot) (queue : List ConnId)
    (es : List Effect) (t' : Turn) : Prop where
  adds : t.Adds es t'
  slots : ∀ i, t'.pool.registry.slot? i = if i = id then slot else t.pool.registry.slot? i
  idle : t'.pool.registry.idle = queue
  pool : t'.pool = { t.pool with registry := t'.pool.registry }

theorem puts_discard (known : t.pool.registry.serial? id = some serial)
    (lent : t.pool.registry.slot? id = some .onLoan) :
    Puts t id none t.pool.registry.idle [.close serial] (t.discard w id) := by
  obtain ⟨reg, removed, closed⟩ := discard_of_known (w := w) known
  rw [closed]
  refine ⟨adds_emit _ _, fun i => Registry.slot?_discard? removed, ?_, rfl⟩
  exact (Registry.vacated_discard? (by simp [lent]) removed).idle

theorem puts_checkIn (lent : t.pool.registry.slot? id = some .onLoan) :
    Puts t id (some .idle) (joined t.pool.registry.lifo t.pool.registry.idle id) []
      (t.checkIn id) := by
  have slots := fun i => Registry.slot?_checkIn? (i := i) lent (by simp)
  refine ⟨adds_refl t, slots, ?_, rfl⟩
  rcases Registry.checkIn_joins t.pool.registry id with same | ⟨joins, -⟩
  · have here := slots id
    rw [same, if_pos rfl, lent] at here
    cases here
  · exact joins

theorem fate_deliver (known : t.pool.registry.serial? id = some serial)
    (lent : t.pool.registry.slot? id = some .onLoan) (nobody : t.pool.pending.requests = [])
    (unarmed : r.timer = none) : ∃ slot queue es,
      Fate w t.pool t.effects t.pool.registry.idle r.ticket id serial slot queue es ∧
        Puts t id slot queue es (t.deliver w r id) := by
  have called : t.Adds [.hook .acquired serial (t.refusal w .acquired serial)]
      (t.call w .acquired serial) := adds_emit t _
  have closed := puts_discard (w := w) (t := t.call w .acquired serial) known lent
  have stays : ∀ i, t.pool.registry.slot? i =
      if i = id then some .onLoan else t.pool.registry.slot? i := by
    intro i
    split
    · next same => rw [same, lent]
    · rfl
  simp only [deliver, attempt, known, fail, disarm, unarmed]
  cases heard : t.refusal w .acquired serial with
  | some reason =>
    rw [heard] at called
    refine ⟨_, _, _, .refused heard, ?_⟩
    exact ⟨(called.trans closed.adds).trans (adds_emit _ _), closed.slots, closed.idle,
      closed.pool⟩
  | none =>
    rw [heard] at called
    dsimp only
    cases left : w.gone (t.call w .acquired serial).effects r.ticket with
    | false =>
      rw [called.effects] at left
      refine ⟨_, _, _, .lent heard left, called.trans (adds_emit _ _), stays, rfl, rfl⟩
    | true =>
      have nobody_left : (t.call w .acquired serial).popLive w =
          (none, t.call w .acquired serial) := by
        rw [popLive, pool_call, nobody]
        rfl
      rw [called.effects] at left
      simp only [if_true, recycle_eq, nobody_left, shelve]
      split
      · next surplus =>
        refine ⟨_, _, _, .surplus heard left surplus.1 surplus.2, ?_⟩
        exact ⟨called.trans closed.adds, closed.slots, closed.idle, closed.pool⟩
      · have put := puts_checkIn (t := t.call w .acquired serial) lent
        exact ⟨_, _, _, .shelved heard left, called.trans put.adds, put.slots, put.idle, put.pool⟩

/-- What a pool decides about a connection it decides as it did before the others were closed. -/
theorem Fate.of_less {p p' : Pool} {log : List Effect} {rest queue : List ConnId}
    {slot : Option Slot} {es : List Effect} (fate : Fate w p' log rest k id serial slot queue es)
    (lifo : p'.registry.lifo = p.registry.lifo) (config : p'.config = p.config)
    (less : p'.registry.size ≤ p.registry.size) :
    Fate w p log rest k id serial slot queue es := by
  cases fate with
  | lent agreed present => exact .lent agreed present
  | refused objects => exact .refused objects
  | shelved agreed left => exact lifo ▸ .shelved agreed left
  | surplus agreed left shrinks crowded =>
    rw [config] at shrinks crowded
    exact .surplus agreed left shrinks (Nat.lt_of_lt_of_le crowded less)

end Turn

/-! ### The whole turn -/

/-- What an acquire comes to in an open pool with idle connections, of which some are to be handed
out before others. -/
inductive Pool.Served (w : Surroundings) (p : Pool) (k : Ticket)
    (before : ConnId → ConnId → Prop) : Turn → Prop where
  /-- The first connection that reports itself usable is chosen. Those before it are closed, and
  all others stay as they are. -/
  | chosen {skipped : List (ConnId × Serial)} {id : ConnId} {serial : Serial}
      {rest queue : List ConnId} {slot : Option Slot} {es : List Effect} {t : Turn}
      (listed : p.registry.idle = skipped.map (·.1) ++ id :: rest)
      (known : ∀ n ∈ (id, serial) :: skipped, n ∈ p.registry.names)
      (asked : w.Shuns [] skipped) (active : w.active (closes skipped) serial = true)
      (earlier : ∀ n ∈ skipped, before n.1 id) (later : ∀ other ∈ rest, before id other)
      (fate : Turn.Fate w p (closes skipped) rest k id serial slot queue es)
      (effects : t.effects = closes skipped ++ es)
      (slots : ∀ i, t.pool.registry.slot? i =
        if i = id then slot
        else if i ∈ skipped.map (·.1) then none else p.registry.slot? i)
      (idle : t.pool.registry.idle = queue) : Served w p k before t
  /-- None reports itself usable, and all are closed. The capacity that is left is what the
  connections in use and those being opened leave. -/
  | exhausted {skipped : List (ConnId × Serial)} {u : Turn}
      (listed : p.registry.idle = skipped.map (·.1))
      (known : ∀ n ∈ skipped, n ∈ p.registry.names) (asked : w.Shuns [] skipped)
      (effects : u.effects = closes skipped)
      (pool : u.pool = { p with registry := u.pool.registry, nextRequest := p.nextRequest + 1 })
      (idle : u.pool.registry.idle = [])
      (slots : ∀ i, u.pool.registry.slot? i =
        if i ∈ skipped.map (·.1) then none else p.registry.slot? i)
      (acquired : u.pool.registry.acquired = p.registry.acquired)
      (rest : u.pool.registry.size + u.pool.registry.connecting = p.registry.acquired) :
      Served w p k before
        (if p.registry.acquired < p.config.maxConnections then
          u.openFor w (.owned { id := ⟨p.nextRequest⟩, ticket := k })
        else u.lineUp w { id := ⟨p.nextRequest⟩, ticket := k })

theorem Pool.handle_of_quiet {w : Surroundings} {p : Pool} {c : Command}
    (quiet : ((Turn.mk p []).perform w c).pool.Quiet)
    (opened : ((Turn.mk p []).perform w c).pool.closed = false) :
    p.handle w c = (Turn.mk p []).perform w c := by
  rw [handle, Turn.servePending_of_quiet w quiet, Turn.settleClose, if_neg (by simp [opened])]

theorem pool_lineUp {w : Surroundings} {t : Turn} {r : Request} :
    (t.lineUp w r).pool.registry = t.pool.registry ∧ (t.lineUp w r).pool.config = t.pool.config ∧
      (t.lineUp w r).pool.closed = t.pool.closed := by
  have pruned : (t.prune w).pool = (t.withPending (t.pool.pending.prune (w.gone t.effects))).pool :=
    Turn.pool_disarmAll _ _
  simp only [Turn.lineUp, Turn.enqueue]
  split
  · rw [Turn.pool_fail, Turn.count, pruned]
    exact ⟨rfl, rfl, rfl⟩
  · split <;>
    · simp only [Turn.withPending, Turn.pool_emit, pruned]
      exact ⟨trivial, trivial, trivial⟩

namespace Pool
variable {w : Surroundings} {p : Pool} {before : ConnId → ConnId → Prop} {k : Ticket}
  {skipped : List (ConnId × Serial)} {u : Turn} {id : ConnId} {serial : Serial} {r : Registry}

theorem served_of_found (opened : p.closed = false) (nobody : p.pending.requests = [])
    (b : p.registry.Balanced) (order : p.registry.idle.Pairwise before)
    (skips : ((Turn.mk p []).newRequest k).2.Skips w skipped u)
    (taken : u.pool.registry.checkout? = some (id, r))
    (known : r.serial? id = some serial) (active : w.active u.effects serial = true)
    (found : ((Turn.mk p []).newRequest k).2.checkout w = (some id, u.withRegistry r)) :
    Served w p k before (p.handle w (.acquire k)) := by
  have acted : (Turn.mk p []).perform w (.acquire k) =
      (u.withRegistry r).deliver w ((Turn.mk p []).newRequest k).1 id := by
    simp only [Turn.perform, Turn.acquire, opened, Bool.false_eq_true, if_false, found]
  have without := skips.registry
  have effects : u.effects = closes skipped := skips.adds.effects
  have listed : p.registry.idle = skipped.map (·.1) ++ id :: r.idle := by
    rw [← Turn.idle_checkout? taken]
    exact without.idle
  have waiting : (u.withRegistry r).pool.pending.requests = [] := by
    rw [Turn.pending_withRegistry, skips.pool]
    exact nobody
  have names := (Registry.moved_checkout? taken).names
  have lent : r.slot? id = some .onLoan := (Registry.slot?_checkout?_self without.balanced taken).2
  obtain ⟨slot, queue, es, fate, puts⟩ := Turn.fate_deliver (w := w) (t := u.withRegistry r)
    (r := ((Turn.mk p []).newRequest k).1) known lent waiting rfl
  rw [← acted] at puts
  have still : p.handle w (.acquire k) = (Turn.mk p []).perform w (.acquire k) := by
    refine handle_of_quiet (.inl ?_) ?_
    · rw [puts.pool]
      exact waiting
    · rw [puts.pool, Turn.withRegistry, skips.pool]
      exact opened
  rw [still]
  have named : (id, serial) ∈ p.registry.names :=
    without.serials _ (names ▸ Registry.mem_names_of_serial? known)
  rw [listed, List.pairwise_append, List.pairwise_cons] at order
  obtain ⟨-, ⟨later, -⟩, earlier⟩ := order
  have all : ((Turn.mk p []).perform w (.acquire k)).effects = closes skipped ++ es := by
    rw [puts.adds.effects, ← effects]
    rfl
  have less : r.size ≤ p.registry.size := by
    rw [Registry.size_eq, (Registry.moved_checkout? taken).ids, ← Registry.size_eq]
    exact without.size_le b
  have decided : Turn.Fate w p (closes skipped) r.idle k id serial slot queue es := by
    rw [← effects]
    refine fate.of_less ((Registry.wanes_checkout? taken).lifo.trans without.lifo) ?_ less
    rw [Turn.withRegistry, skips.pool]
    rfl
  have slots : ∀ i, ((Turn.mk p []).perform w (.acquire k)).pool.registry.slot? i =
      if i = id then slot
      else if i ∈ skipped.map (·.1) then none else p.registry.slot? i := by
    intro i
    have passed : u.pool.registry.slot? i = _ := without.slots i
    rw [puts.slots, Turn.registry_withRegistry, Registry.slot?_checkout? taken, passed]
    split <;> rfl
  refine .chosen listed (List.forall_mem_cons.mpr ⟨named, skips.known⟩) skips.asked
    (effects ▸ active) ?_ later decided all slots puts.idle
  exact fun n member => earlier n.1 (List.mem_map_of_mem member) id List.mem_cons_self

theorem served_of_none (opened : p.closed = false) (nobody : p.pending.requests = [])
    (skips : ((Turn.mk p []).newRequest k).2.Skips w skipped u)
    (drained : u.pool.registry.idle = [])
    (found : ((Turn.mk p []).newRequest k).2.checkout w = (none, u)) :
    Served w p k before (p.handle w (.acquire k)) := by
  have without := skips.registry
  have acquired : u.pool.registry.acquired = p.registry.acquired := without.acquired
  have config : u.pool.config = p.config := by
    rw [skips.pool]
    rfl
  have going : u.pool.closed = false := by
    rw [skips.pool]
    exact opened
  have waiting : u.pool.pending.requests = [] := by
    rw [skips.pool]
    exact nobody
  have acted : (Turn.mk p []).perform w (.acquire k) =
      if p.registry.acquired < p.config.maxConnections then
        u.openFor w (.owned { id := ⟨p.nextRequest⟩, ticket := k })
      else u.lineUp w { id := ⟨p.nextRequest⟩, ticket := k } := by
    simp only [Turn.perform, Turn.acquire, opened, Bool.false_eq_true, if_false, found]
    rw [acquired, config]
    rfl
  have still : p.handle w (.acquire k) = (Turn.mk p []).perform w (.acquire k) := by
    apply handle_of_quiet <;> rw [acted] <;> split
    · left
      rw [Turn.pending_openFor_owned, waiting]
    · next busy =>
      obtain ⟨registry, limits, -⟩ := pool_lineUp (w := w) (t := u)
        (r := { id := ⟨p.nextRequest⟩, ticket := k })
      right
      rw [registry, limits, acquired, config]
      exact ⟨drained, Nat.le_of_not_lt busy⟩
    · rw [Turn.closed_openFor, going]
    · rw [pool_lineUp.2.2, going]
  have listed : p.registry.idle = skipped.map (·.1) := by
    have idle : p.registry.idle = _ := without.idle
    rw [idle, drained, List.append_nil]
  have rest := Registry.size_add_connecting without.balanced
  rw [drained, acquired, List.length_nil, Nat.zero_add] at rest
  rw [still, acted]
  exact .exhausted listed skips.known skips.asked skips.adds.effects skips.pool drained
    without.slots acquired rest

theorem served_acquire (b : p.registry.Balanced) (quiet : p.Quiet) (opened : p.closed = false)
    (spare : p.registry.idle ≠ []) (order : p.registry.idle.Pairwise before) (k : Ticket) :
    Served w p k before (p.handle w (.acquire k)) := by
  -- Where connections are idle, nobody waits.
  have nobody : p.pending.requests = [] := quiet.resolve_right fun spent => spare spent.1
  have looked := Turn.looked_checkout (w := w) (t := ((Turn.mk p []).newRequest k).2) b
  generalize found : ((Turn.mk p []).newRequest k).2.checkout w = result at looked
  cases looked with
  | some skips taken known active =>
    exact served_of_found opened nobody b order skips taken known active found
  | none skips drained => exact served_of_none opened nobody skips drained found

end Pool

variable {config : Config} {observer : Hook → Nat → Option String} {past : List Site.Record}
  {now : Nat} {s : Site}

/-- At every moment of a run the idle connections stand in the order in which they became idle. In
that order an acquire asks them, closes those that are unusable, and takes the first that is
usable. -/
theorem lent_in_order (run : Site.Run config observer past now s) :
    Site.AllInOrder config past s.pool ∧
      ∀ {later : Nat} {rest : Site} {k : Ticket} (course : Site.Course later rest),
        s.next? = some (some (.acquire k), rest) → s.pool.closed = false →
        s.pool.registry.idle ≠ [] →
        Pool.Served (Site.surroundings course.amid) s.pool k (Site.Precedes config past)
          (course.turn (some (.acquire k))) := by
  have settled := settled_of_run run
  obtain ⟨order, -⟩ := Site.allInOrder_of_run run
  refine ⟨order, fun {later rest k} course due opened spare => ?_⟩
  rw [Site.Course.turn, Site.pool_next? due]
  exact Pool.served_acquire settled.balanced settled.quiet opened spare order.now k

/-- Three connections become idle, the second one last, and it breaks before anybody asks. -/
def latestBroken : List (Nat × Option Site.Event) :=
  [(0, some (.acquire ⟨1⟩)), (0, none), (1, some (.acquire ⟨2⟩)), (1, none),
    (2, some (.acquire ⟨3⟩)), (2, none), (3, some (.connected ⟨0⟩ (.ok (⟨1⟩, {})))), (3, none),
    (4, some (.connected ⟨1⟩ (.ok (⟨2⟩, {})))), (4, none),
    (5, some (.connected ⟨2⟩ (.ok (⟨3⟩, {})))), (5, none), (6, some (.read ⟨1⟩)),
    (6, some (.read ⟨2⟩)), (6, some (.read ⟨3⟩)), (7, some (.dropLoan ⟨1⟩)), (7, none),
    (8, some (.dropLoan ⟨3⟩)), (8, none), (9, some (.dropLoan ⟨2⟩)), (9, none),
    (10, some (.kill ⟨2⟩)), (11, some (.acquire ⟨4⟩))]

/-- The broken one is closed, and the one that became idle before it is lent. -/
theorem lent_of_latestBroken :
    ∃ past now s rest, ∃ course : Site.Course 11 rest,
      Site.Run { maxConnections := 3, checkOnRelease := false } (fun _ _ => none) past now s ∧
      s.next? = some (some (.acquire ⟨4⟩), rest) ∧ s.pool.registry.idle = [⟨2⟩, ⟨3⟩, ⟨1⟩] ∧
      Pool.Served (Site.surroundings course.amid) s.pool ⟨4⟩
        (Site.Precedes { maxConnections := 3, checkOnRelease := false } past)
        (course.turn (some (.acquire ⟨4⟩))) ∧
      (course.turn (some (.acquire ⟨4⟩))).effects =
        [.close ⟨2⟩, .hook .acquired ⟨3⟩ none, .answer ⟨4⟩ (.loan ⟨3⟩ ⟨3⟩)] := by
  obtain ⟨past, now, s, c, rest, run, order, due, seen⟩ := Site.exists_due
    { maxConnections := 3, checkOnRelease := false } (fun _ _ => none) latestBroken 11
    (fun _ s c rest => c.bind Command.acquirer? == some ⟨4⟩ && s.pool.closed == false &&
      s.pool.registry.idle == [⟨2⟩, ⟨3⟩, ⟨1⟩] &&
      ((Site.Course.alone 11 rest).turn (some (.acquire ⟨4⟩))).effects ==
        [.close ⟨2⟩, .hook .acquired ⟨3⟩ none, .answer ⟨4⟩ (.loan ⟨3⟩ ⟨3⟩)])
    (by decide +kernel)
  simp only [Bool.and_eq_true, beq_iff_eq] at seen
  obtain ⟨⟨⟨asks, opened⟩, idle⟩, effects⟩ := seen
  obtain rfl := acquire_of_acquirer asks
  have served := (lent_in_order run).2 (.alone 11 rest) due opened (by simp [idle])
  exact ⟨past, now, s, rest, .alone 11 rest, run, due, idle, served, effects⟩

end LoanPool
