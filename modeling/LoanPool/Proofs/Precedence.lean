import LoanPool.Proofs.Lineup
import LoanPool.Proofs.Reconciliation
import LoanPool.Proofs.Refill

/-!
# First come, first served

A pool that takes up a request while others wait has nothing to serve it with, so it waits behind
them. Whatever becomes free goes to the oldest request whose caller is still there, and a request
that leaves the queue before an older one is not served in its place.
-/
namespace LoanPool
open Pending (Request Queue)

variable {sc sc' : Scene} {past : List Site.Record} {r r' : Request} {id : RequestId} {k : Ticket}

/-! ### What is in hand -/

def Scene.Poised (sc : Scene) : Prop :=
  ∀ c, sc.hand.task = some c →
    sc.hand = { task := some c } ∧ sc.command = c ∧ sc.pool = sc.memory.before

theorem poised_move (poised : sc.Poised) (move : Move sc sc') : sc'.Poised := by
  intro c task
  cases move with
  | event order allowed => simpa [Scene.pool] using poised c task
  | wait order => exact poised c task
  | begin free due =>
    cases task
    exact ⟨rfl, rfl, Site.pool_next? due⟩
  | _ =>
    first
    | cases task
    | (have only := (poised c task).1
       simp_all)

/-- As long as nothing is left to serve anybody with, nobody is served. -/
theorem spent_move (move : Move sc sc') (free : sc.hand.task = none)
    (opened : sc.pool.closed = false) (spent : sc.Spent) : sc'.Spent := by
  obtain ⟨empty, drained, full⟩ := spent
  have unheld : ∀ id, sc.hand.conn ≠ some id := by simp [empty]
  cases move with
  | event order allowed =>
    simpa [Scene.Spent, Scene.registry, Scene.pool] using ⟨empty, drained, full⟩
  | begin free' due =>
    refine ⟨rfl, ?_, ?_⟩
    · simpa only [Scene.registry, Site.pool_next? due] using drained
    · simpa only [Scene.registry, Scene.pool, Site.pool_next? due] using full
  | checkout free' empty' opened' taken => simp [Registry.checkout?, drained] at taken
  | evict free' empty' closed honest removed => simp [opened] at closed
  | connect held opened' unarmed reachable drained' room => omega
  | report free' closed complete => simp [opened] at closed
  | _ =>
    first
    | exact absurd ‹sc.hand.conn = some _› (unheld _)
    | (simp_all; done)
    | (refine ⟨empty, ?_, ?_⟩
       · simpa only [Scene.registry, Scene.pool_emit, Scene.pool_alter] using drained
       · simpa only [Scene.registry, Scene.pool_emit, Scene.pool_alter] using full)

/-- In a pool that is closed nothing comes to hand any more. -/
theorem empty_move (move : Move sc sc') (free : sc.hand.task = none)
    (closed : sc.pool.closed = true) (empty : sc.hand.conn = none) : sc'.hand.conn = none := by
  cases move with
  | event order allowed => exact empty
  | wait order => exact empty
  | checkout free' empty' opened taken => simp [closed] at opened
  | takeBack task back opened lent => simp [task] at free
  | connectDone task => simp [task] at free
  | verdict task checking => simp [task] at free
  | _ => first | rfl | exact empty

/-- Why the pool may deal with a request: it is the one a connection was asked for, no older one is
queued, or there is nothing to serve it with. -/
inductive Scene.Entitled (sc : Scene) (r : Request) : Prop where
  | owned {r' : Request} {result : Except String Serial}
      (command : sc.command = some (.connected (.owned r') result)) (same : r'.ticket = r.ticket)
  | called {result : Except String Serial}
      (command : sc.command = some (.connected (.queued r.id) result))
  | oldest (first : ∀ k ∈ sc.pool.pending.keys, r.id.number < k.1.number)
  | spent (opened : sc.pool.closed = false) (spent : sc.Spent)
  | doomed (closed : sc.pool.closed = true) (empty : sc.hand.conn = none)

theorem entitled_keep (move : Move sc sc') (free : sc.hand.task = none)
    (going : sc'.command = sc.command)
    (fewer : sc'.pool.pending.keys.Sublist sc.pool.pending.keys) (same : r'.key = r.key)
    (entitled : sc.Entitled r) : sc'.Entitled r' := by
  have id : r'.id = r.id := congrArg Prod.fst same
  have ticket : r'.ticket = r.ticket := congrArg Prod.snd same
  cases entitled with
  | owned command owner => exact .owned (going.trans command) (owner.trans ticket.symm)
  | called command => exact .called (id ▸ going.trans command)
  | oldest first => exact .oldest fun k member => id ▸ first k (fewer.subset member)
  | spent opened spent =>
    rcases closed_move move with closed | ⟨-, closer, task⟩
    · exact .spent (closed.trans opened) (spent_move move free opened spent)
    · simp [task] at free
  | doomed closed empty =>
    rcases closed_move move with closed' | ⟨-, closer, task⟩
    · exact .doomed (closed'.trans closed) (empty_move move free closed empty)
    · simp [task] at free

def Scene.Rightful (sc : Scene) : Prop :=
  ∀ r, sc.hand.requests.getLast? = some r → sc.Entitled r

theorem free_of_held (poised : sc.Poised) {rs : List Request} (held : sc.hand.requests = r :: rs) :
    sc.hand.task = none := by
  cases task : sc.hand.task with
  | none => rfl
  | some c =>
    rw [(poised c task).1] at held
    cases held

theorem free_of_last (poised : sc.Poised) (last : sc.hand.requests.getLast? = some r) :
    sc.hand.task = none := by
  cases held : sc.hand.requests with
  | nil => simp [held] at last
  | cons first rest => exact free_of_held poised held

theorem oldest_of_front (listed : sc.Listed) {rest : List Request}
    (front : sc.pool.pending.requests = r :: rest) :
    ∀ k ∈ ({ sc.pool.pending with requests := rest } : Queue).keys, r.id.number < k.1.number := by
  have sorted := listed.sorted
  rw [Queue.keys, front, List.map_cons, List.pairwise_cons] at sorted
  exact sorted.1

theorem rightful_move (poised : sc.Poised) (listed : sc.Listed) (shut : sc.Shut)
    (rightful : sc.Rightful) (move : Move sc sc') : sc'.Rightful := by
  intro r last
  -- Where the last request stays the last one, so does the reason for it.
  have keep : ∀ {q : Request}, sc.hand.requests.getLast? = some q → sc'.command = sc.command →
      sc'.pool.pending.keys.Sublist sc.pool.pending.keys → r.key = q.key → sc'.Entitled r := by
    intro q held going fewer same
    exact entitled_keep move (free_of_last poised held) going fewer same (rightful q held)
  cases move with
  | event order allowed =>
    exact keep last rfl (by simp [Scene.pool]) rfl
  | wait order => exact keep last rfl (List.Sublist.refl _) rfl
  | @acquire k task opened quiet =>
    cases last
    rcases quiet with nobody | ⟨drained, full⟩
    · refine .oldest fun k member => ?_
      simp only [Scene.pool_alter] at member
      simp [Queue.keys, nobody] at member
    · exact .spent opened ⟨rfl, drained, full⟩
  | @connectDone target serial task =>
    cases target with
    | owned r' =>
      cases last
      exact .owned (poised _ (congrArg Hand.task task)).2.1 rfl
    | queued id => cases last
  | @connectFailed target cause task =>
    cases target with
    | owned r' =>
      cases last
      exact .owned (poised _ (congrArg Hand.task task)).2.1 rfl
    | queued id => cases last
  | shut task ends opened => exact .doomed rfl rfl
  | pop free bare front =>
    cases last
    exact .oldest (oldest_of_front listed front)
  | sift held left =>
    change (_ ++ [_] : List Request).getLast? = some r at last
    rw [List.getLast?_concat] at last
    cases last
    exact keep (by rw [held]; rfl) rfl (List.filter_sublist.map _) rfl
  | @fetch id r₀ q free bare called found =>
    cases last
    obtain ⟨_, queued, eq⟩ := Option.map_eq_some_iff.mp found
    cases eq
    have named := (Queue.mem_of_find? queued).2
    rcases called with ⟨result, command⟩ | ⟨command, spent, -⟩
    · exact .called (named ▸ command)
    · -- A closed pool has nobody queued.
      have opened : sc.pool.closed = false := by
        cases closed : sc.pool.closed with
        | false => rfl
        | true => simp [Queue.find?, shut closed] at queued
      exact .spent opened spent
  | @disarm r₀ rs timer held armed =>
    cases rs with
    | nil =>
      cases last
      exact keep (q := r₀) (by rw [held]; rfl) rfl (by simp) rfl
    | cons next rest =>
      exact keep (by rw [held]; exact last) rfl (by simp) rfl
  | @forsake r₀ rs held unarmed left =>
    cases rs with
    | nil => cases last
    | cons next rest => exact keep (by rw [held]; exact last) rfl (List.Sublist.refl _) rfl
  | @fail r₀ rs cause held unarmed grounds =>
    cases rs with
    | nil => cases last
    | cons next rest => exact keep (by rw [held]; exact last) rfl (by simp) rfl
  | @arm r₀ timeout held unarmed limited =>
    cases last
    exact keep (q := r₀) (by rw [held]; rfl) rfl (by simp) rfl
  | _ =>
    first
    | cases last
    | exact keep last rfl (by simp) rfl

/-! ### Newcomers -/

def Scene.Direct (sc : Scene) : Prop :=
  ∀ k, sc.command = some (.acquire k) → sc.hand.task = none →
    sc.memory.before.pending.requests = [] ∨ sc.pool.closed = false ∧ sc.Spent

theorem direct_move (poised : sc.Poised) (shut : sc.Shut) (direct : sc.Direct)
    (move : Move sc sc') : sc'.Direct := by
  intro k command free'
  obtain ⟨same, before⟩ := memory_move move free'
  rw [before]
  cases task : sc.hand.task with
  | none =>
    refine (direct k (same.symm.trans command) task).imp_right fun ⟨opened, spent⟩ => ?_
    rcases closed_move move with closed | ⟨-, closer, busy⟩
    · exact ⟨closed.trans opened, spent_move move task opened spent⟩
    · simp [busy] at task
  | some c =>
    obtain ⟨only, known, unmoved⟩ := poised c task
    have asked : c = some (.acquire k) := known.symm.trans (same.symm.trans command)
    subst asked
    rw [← unmoved]
    cases move with
    | acquire task' opened quiet =>
      exact quiet.imp_right fun ⟨drained, full⟩ => ⟨opened, rfl, drained, full⟩
    | refuse task' closed => exact .inl (shut closed)
    | @dismiss c' task' moot =>
      rw [only] at task'
      cases task'
      exact moot.elim
    | event order allowed => simp [only] at free'
    | wait order => simp [only] at free'
    | begin free due => cases free'
    | _ => simp_all [Command.returned?]

/-! ### Those who leave -/

/-- Why a request leaves the queue while an older one stays: its caller has left, a connection that
was asked for on its behalf came to its end, or its deadline passed. Where a deadline asks for a
connection, a request that it passed for stays queued as long as anybody holds on to the pool. -/
def Scene.Dismissed (sc : Scene) (r : Request) : Prop :=
  sc.site.standing r.ticket = .abandoned ∨
    (∃ result, sc.command = some (.connected (.queued r.id) result)) ∨
    sc.command = some (.timedOut r.id) ∧
      (sc.pool.config.timeoutAction = .fail ∨
        sc.pool.config.timeoutAction = .newConnection ∧ sc.site.isReachable = false)

inductive Scene.Left (sc : Scene) (r : Request) : Prop where
  | queued (member : r.key ∈ sc.pool.pending.keys)
  | first (first : ∀ k ∈ sc.pool.pending.keys, r.id.number < k.1.number)
  | dismissed (dismissed : sc.Dismissed r)

structure Scene.Waited (sc : Scene) (r : Request) : Prop where
  older : r.id.number < sc.pool.nextRequest
  caller : Site.caller? sc.past r.id = some r.ticket
  left : sc.Left r

theorem dismissed_move (move : Move sc sc') (going : sc'.command = sc.command)
    (dismissed : sc.Dismissed r) : sc'.Dismissed r := by
  rcases dismissed with left | ⟨result, command⟩ | ⟨command, action⟩
  · exact .inl (abandoned_move move left)
  · exact .inr (.inl ⟨result, going.trans command⟩)
  · refine .inr (.inr ⟨going.trans command, ?_⟩)
    rw [config_move move]
    exact action.imp_right (And.imp_right (lost_move move))

theorem dismissed_of_calls (called : sc.Calls r.id) : sc.Dismissed r := by
  rcases called with connected | ⟨command, -, action⟩
  · exact .inr (.inl connected)
  · exact .inr (.inr ⟨command, action⟩)

/-- A request leaves the queue as the oldest one, or is dismissed. -/
theorem left_of_queued (listed : sc.Listed) (move : Move sc sc') (going : sc'.command = sc.command)
    (member : r.key ∈ sc.pool.pending.keys) : sc'.Left r := by
  obtain ⟨r₁, queued, same⟩ := List.mem_map.mp member
  have ticket : r₁.ticket = r.ticket := congrArg Prod.snd same
  have id : r₁.id = r.id := congrArg Prod.fst same
  cases queueing_move move with
  | same keys => exact .queued (keys ▸ member)
  | popped front held =>
    rw [front] at queued
    rcases List.mem_cons.mp queued with rfl | behind
    · refine .first fun k member => ?_
      rw [← id]
      exact oldest_of_front listed front k member
    · exact .queued (same ▸ List.mem_map_of_mem behind)
  | @sifted gone gone_left kept =>
    by_cases gone_here : gone r₁.ticket = true
    · have abandoned := abandoned_move move (gone_left _ gone_here)
      exact .dismissed (.inl (ticket ▸ abandoned))
    · refine .queued ?_
      rw [kept, ← same]
      exact List.mem_map_of_mem (List.mem_filter.mpr ⟨queued, by simpa using gone_here⟩)
  | fetched called found held =>
    obtain ⟨_, first, eq⟩ := Option.map_eq_some_iff.mp found
    simp only [Prod.mk.injEq] at eq
    obtain ⟨rfl, rest⟩ := eq
    rcases mem_eraseP first queued with still | rfl
    · refine .queued ?_
      rw [← rest, ← same]
      exact List.mem_map_of_mem still
    · have named := (Queue.mem_of_find? first).2
      exact .dismissed (dismissed_move move going (dismissed_of_calls (id ▸ named ▸ called)))
  | emptied nobody =>
    refine .first fun k member => ?_
    rw [Queue.keys, nobody] at member
    cases member
  | queued held newest last =>
    refine .queued ?_
    rw [last, ← same]
    exact List.mem_map_of_mem (List.mem_append_left _ queued)

/-- A request that no queued one is older than stays so: whoever comes after it has a later name. -/
theorem left_of_first (listed : sc.Listed) (move : Move sc sc') (waited : sc.Waited r)
    (first : ∀ k ∈ sc.pool.pending.keys, r.id.number < k.1.number) : sc'.Left r := by
  rcases keys_move move with fewer | ⟨r₂, held, newest, last⟩
  · exact .first fun k member => first k (fewer.subset member)
  · by_cases again : r.id.number = r₂.id.number
    · -- A name has one caller, so the request that is queued is the same one.
      have id : r.id = r₂.id := congrArg RequestId.mk again
      have named := (listed.caller _ _ (bearing_of_held (held ▸ List.mem_singleton_self r₂))).2
      rw [← id, waited.caller] at named
      have same : r₂.key = r.key := Prod.ext id.symm (Option.some.inj named).symm
      refine .queued ?_
      rw [last, ← same]
      exact List.mem_append_right _ (List.mem_singleton_self _)
    · refine .first fun k member => ?_
      rw [last] at member
      rcases List.mem_append.mp member with member | new
      · exact first k member
      · have older := waited.older
        rw [List.mem_singleton.mp new]
        change r.id.number < r₂.id.number
        omega

theorem waited_keep (listed : sc.Listed) (move : Move sc sc') (going : sc'.command = sc.command)
    (waited : sc.Waited r) : sc'.Waited r where
  older := Nat.lt_of_lt_of_le waited.older (nextRequest_move move)
  caller := caller?_move move waited.caller
  left := by
    cases waited.left with
    | queued member => exact left_of_queued listed move going member
    | first first => exact left_of_first listed move waited first
    | dismissed dismissed => exact .dismissed (dismissed_move move going dismissed)

theorem waited_move (listed : sc.Listed)
    (waited : ∀ r ∈ sc.memory.before.pending.requests, sc.Waited r) (move : Move sc sc') :
    ∀ r ∈ sc'.memory.before.pending.requests, sc'.Waited r := by
  intro r member
  cases recording_move move with
  | begin free due =>
    have queued : r ∈ sc.pool.pending.requests := member
    obtain ⟨older, caller⟩ := listed.caller _ _ (bearing_of_queued queued)
    refine ⟨Nat.lt_of_lt_of_le older (nextRequest_move move), caller?_append caller _, .queued ?_⟩
    simp only [Scene.pool, Site.pool_next? due]
    exact List.mem_map_of_mem queued
  | same past memory =>
    exact waited_keep listed move (congrArg Memory.command memory) (waited r (memory ▸ member))
  | effect p h e => exact waited_keep listed move rfl (waited r member)

/-! ### Those who have asked -/

structure Scene.Asked (sc : Scene) (k : Ticket) : Prop where
  keeps : sc.Keeps k
  once : sc.site.underWay.countP (fun c => c.acquirer? = some k) = 0
  used : sc.site.isNew k = false

structure Scene.Known (sc : Scene) : Prop where
  asked : ∀ k ∈ Site.acquires sc.past, sc.Asked k
  distinct : (Site.acquires sc.past).Nodup

theorem blind_acquirer (k : Ticket) : Command.Blind fun c => c.acquirer? = some k :=
  ⟨fun _ _ => rfl, fun _ _ _ => rfl⟩

theorem concerns_of_acquirer {c : Command} (asks : c.acquirer? = some k) :
    (c.concerns (fun r => r.ticket = k) fun t => t = k) = true := by
  cases c with
  | acquire k' =>
    cases asks
    simp [Command.concerns, Command.requests, Command.replies]
  | _ => cases asks

/-- Whoever has asked does not ask again. -/
theorem unasked_move (a : sc.Accounted) (move : Move sc sc') (known : sc.site.isNew k = false)
    (unasked : sc.site.underWay.countP (fun c => c.acquirer? = some k) = 0) :
    sc'.site.underWay.countP (fun c => c.acquirer? = some k) = 0 := by
  have shift := shift_move move
  generalize sc'.site = after at shift
  cases shift with
  | @event later e allowed =>
    have other : e.asks ≠ some k := by
      intro asks
      rw [Site.isNew_of_asks allowed asks] at known
      cases known
    have sent := Site.countP_sends (s := sc.site) (e := e) k
    rw [if_neg other, Nat.le_zero] at sent
    have nothing : (sc.site.sends e).countP (fun c => c.acquirer? = some k) = 0 := by
      refine Nat.le_zero.mp (Nat.le_trans (List.countP_mono_left fun c _ asks => ?_)
        (Nat.le_of_eq sent))
      exact concerns_of_acquirer (by simpa using asks)
    rw [Site.countP_underWay_happen a.numbered (blind_acquirer k), unasked, nothing]
  | begin due =>
    rw [Site.underWay_next? due, List.countP_append] at unasked
    omega
  | pool p => exact unasked
  | @effect p h e reachable =>
    have started : e.starts.countP (fun c => c.acquirer? = some k) = 0 := by
      cases e with
      | _ => rfl
    exact (Site.countP_underWay_enact (s := sc.site.withPool p) sc.now e).trans
      (by rw [started]; exact unasked)

theorem asked_move (a : sc.Accounted) (move : Move sc sc') (asked : sc.Asked k) : sc'.Asked k where
  keeps := keeps_move a move asked.keeps
  once := unasked_move a move asked.used asked.once
  used := by
    rw [Bool.eq_false_iff]
    intro new
    cases (isNew_of_move move new).symm.trans asked.used

theorem known_of_same (a : sc.Accounted) (known : sc.Known) (move : Move sc sc')
    (same : Site.acquires sc'.past = Site.acquires sc.past) : sc'.Known where
  asked k member := asked_move a move (known.asked k (same ▸ member))
  distinct := same ▸ known.distinct

/-- A caller whose command is taken up has not asked before, and has not asked twice. -/
theorem asked_begin (ledger : sc.Ledger) {rest : Site}
    (free : sc.hand = {}) (due : sc.site.next? = some (some (.acquire k), rest))
    (move : Move sc sc') (site : sc'.site = rest)
    (task : sc'.hand = { task := some (some (.acquire k)) }) :
    sc.site.underWay.countP (fun c => c.acquirer? = some k) = 1 ∧ sc'.Asked k := by
  have asks : sc.site.underWay.countP (fun c => c.acquirer? = some k) =
      1 + rest.underWay.countP fun c => c.acquirer? = some k := by
    rw [Site.underWay_next? due]
    change List.countP _ (.acquire k :: rest.underWay) = _
    rw [countP_cons_toNat]
    simp [Command.acquirer?]
  have owed : sc.site.underWay.countP (fun c => c.acquirer? = some k) ≤ sc.owed k := by
    refine Nat.le_trans ?_ places_le_owed
    rw [Scene.places, Scene.underWay_of_free free, countP_carried]
    omega
  have once := ledger.once k
  refine ⟨by omega, ?_, ?_, ?_⟩
  · left
    rw [places_of_task task, toNat_carried_acquire]
    simp only [decide_true, Bool.toNat_true]
    omega
  · rw [site]
    omega
  · rw [Bool.eq_false_iff]
    intro new
    have nothing := owed_of_isNew ledger (isNew_of_move move new)
    omega

theorem known_begin (a : sc.Accounted) (ledger : sc.Ledger) (known : sc.Known) {rest : Site}
    (free : sc.hand = {}) (due : sc.site.next? = some (some (.acquire k), rest))
    (move : Move sc sc') (site : sc'.site = rest)
    (task : sc'.hand = { task := some (some (.acquire k)) })
    (recorded : Site.acquires sc'.past = Site.acquires sc.past ++ [k]) : sc'.Known := by
  obtain ⟨asks, asked⟩ := asked_begin ledger free due move site task
  constructor
  · intro k' member
    rw [recorded] at member
    rcases List.mem_append.mp member with member | new
    · exact asked_move a move (known.asked k' member)
    · exact List.mem_singleton.mp new ▸ asked
  · rw [recorded]
    refine List.nodup_append.mpr ⟨known.distinct, List.pairwise_singleton _ k, ?_⟩
    rintro k' member _ single rfl
    have before := (known.asked k' member).once
    rw [List.mem_singleton.mp single, asks] at before
    cases before

theorem acquire_of_acquirer {c : Option Command} (asks : c.bind Command.acquirer? = some k) :
    c = some (.acquire k) := by
  match c with
  | some (.acquire k') =>
    cases asks
    rfl

theorem known_move (a : sc.Accounted) (ledger : sc.Ledger) (known : sc.Known)
    (move : Move sc sc') : sc'.Known := by
  cases recording_move move with
  | same past memory => exact known_of_same a known move (congrArg Site.acquires past)
  | effect p h e => exact known_of_same a known move (acquires_effect p h e)
  | @begin c rest free due =>
    have recorded := acquires_begin sc.past sc.now c sc.pool
    cases asks : c.bind Command.acquirer? with
    | none =>
      rw [asks] at recorded
      exact known_of_same a known move (recorded.trans (List.append_nil _))
    | some k =>
      obtain rfl := acquire_of_acquirer asks
      exact known_begin a ledger known free due move rfl rfl recorded

/-! ### Who came first -/

namespace Site

def Ahead (past : List Record) (k k' : Ticket) : Prop :=
  [k, k'].Sublist (acquires past)

/-- A caller need not wait in the queue: a connection is being opened for it, it has been answered,
or it has left. -/
def Attends (s : Site) (past : List Record) (k : Ticket) : Prop :=
  1 ≤ s.openings k ∨ 1 ≤ answers past k ∨ s.standing k = .abandoned

end Site

theorem sublist_of_numbered {α : Type} {l : List α} (ns : List (Nat × α)) (m : Nat)
    (sorted : ns.Pairwise fun a b => a.1 < b.1) (above : ∀ n ∈ ns, m ≤ n.1)
    (found : ∀ n ∈ ns, l[n.1]? = some n.2) : (ns.map (·.2)).Sublist (l.drop m) := by
  induction ns generalizing m with
  | nil => exact List.nil_sublist _
  | cons n rest ih =>
    obtain ⟨i, a⟩ := n
    have here : l[i]? = some a := found _ List.mem_cons_self
    obtain ⟨inside, eq⟩ := List.getElem?_eq_some_iff.mp here
    rw [List.pairwise_cons] at sorted
    have behind := ih (i + 1) sorted.2 (fun n member => sorted.1 n member)
      fun n member => found n (List.mem_cons_of_mem _ member)
    have least : m ≤ i := above _ List.mem_cons_self
    have split : (l.drop m).drop (i - m) = a :: l.drop (i + 1) := by
      rw [List.drop_drop, Nat.add_sub_cancel' least, List.drop_eq_getElem_cons inside, eq]
    refine List.Sublist.trans ?_ (List.drop_sublist (i - m) _)
    rw [split]
    exact List.cons_sublist_cons.mpr behind

/-- Names that are in order belong to callers that are in order. -/
theorem sublist_of_named {ns : List (RequestId × Ticket)}
    (sorted : ns.Pairwise fun a b => a.1.number < b.1.number)
    (named : ∀ n ∈ ns, Site.caller? past n.1 = some n.2) :
    (ns.map (·.2)).Sublist (Site.acquires past) := by
  have found : ∀ n ∈ ns, n.1.number ≠ 0 ∧
      (Site.acquires past)[n.1.number - 1]? = some n.2 := by
    intro n member
    have caller := named n member
    rw [Site.caller?] at caller
    split at caller
    · cases caller
    · next numbered => exact ⟨numbered, caller⟩
  have indexed := sublist_of_numbered (l := Site.acquires past)
    (ns.map fun n => (n.1.number - 1, n.2)) 0 ?_ (fun _ _ => Nat.zero_le _) ?_
  · simpa [List.map_map, Function.comp_def] using indexed
  · rw [List.pairwise_map]
    refine sorted.imp_of_mem fun left right less => ?_
    have numbered := (found _ left).1
    dsimp only
    omega
  · intro _ member
    obtain ⟨n, named', rfl⟩ := List.mem_map.mp member
    exact (found n named').2

theorem lt_of_ahead {id' : RequestId} {k' : Ticket} (distinct : (Site.acquires past).Nodup)
    (named : Site.caller? past id = some k) (named' : Site.caller? past id' = some k')
    (ahead : Site.Ahead past k k') : id.number < id'.number := by
  -- Each caller stands in one position of the list, so two of them stand in one order.
  have placed : (Site.acquires past).Pairwise fun a b => ∀ i j : Nat,
      (Site.acquires past)[i]? = some a → (Site.acquires past)[j]? = some b → i < j := by
    refine List.pairwise_iff_getElem.mpr fun m n inside inside' less i j first second => ?_
    rw [← List.getElem?_eq_getElem inside] at first
    rw [← List.getElem?_eq_getElem inside'] at second
    rw [← (List.getElem?_inj inside distinct).mp first.symm,
      ← (List.getElem?_inj inside' distinct).mp second.symm]
    exact less
  simp only [Site.caller?] at named named'
  split at named
  · cases named
  · split at named'
    · cases named'
    · have less := List.pairwise_iff_forall_sublist.mp placed ahead _ _ named named'
      omega

/-! ### Runs -/

structure Scene.Orderly (sc : Scene) : Prop where
  kept : sc.Kept
  shut : sc.Shut
  listed : sc.Listed
  poised : sc.Poised
  rightful : sc.Rightful
  direct : sc.Direct
  waited : ∀ r ∈ sc.memory.before.pending.requests, sc.Waited r
  known : sc.Known

theorem orderly_move (move : Move sc sc') (orderly : sc.Orderly) : sc'.Orderly where
  kept := kept_move move orderly.kept
  shut := shut_move move orderly.shut
  listed := listed_move orderly.kept.accounted move orderly.listed
  poised := poised_move orderly.poised move
  rightful := rightful_move orderly.poised orderly.listed orderly.shut orderly.rightful move
  direct := direct_move orderly.poised orderly.shut orderly.direct move
  waited := waited_move orderly.listed orderly.waited move
  known := known_move orderly.kept.accounted orderly.kept.ledger orderly.known move

theorem orderly_start (config : Config) (observer : Hook → Nat → Option String) :
    (Scene.start config observer).Orderly where
  kept := kept_start config observer
  shut _ := rfl
  listed := listed_start config observer
  poised _ idle := by cases idle
  rightful _ idle := by cases idle
  direct _ idle := by cases idle
  waited := List.forall_mem_nil _
  known := ⟨List.forall_mem_nil _, List.nodup_nil⟩

def Effect.serves? : Effect → Option Ticket
  | .answer k (.loan _ _) => some k
  | .connect (.owned r) => some r.ticket
  | _ => none

structure Scene.Serves (sc : Scene) (k : Ticket) (r : Request) : Prop where
  held : sc.hand.requests = [r]
  ticket : r.ticket = k
  unspent : ¬sc.Spent
  able : sc.pool.closed = true → sc.hand.conn ≠ none

theorem serves_move {p : Pool} {h : Hand} {e : Effect} (move : Move sc ((sc.alter p h).emit e))
    (serves : e.serves? = some k) : ∃ r, sc.Serves k r := by
  cases e with
  | answer k' outcome =>
    cases outcome with
    | loan id serial =>
      cases serves
      obtain ⟨-, answering⟩ := answering_move move rfl
      cases answering with
      | lend held conn => exact ⟨_, held, rfl, by simp [Scene.Spent, conn], by simp [conn]⟩
      | reply owed plain => rcases plain with plain | ⟨reason, plain⟩ <;> cases plain
    | _ => cases serves
  | connect target =>
    cases target with
    | owned r =>
      cases serves
      obtain ⟨-, -, held, opened, room⟩ := connecting_move move rfl
      refine ⟨r, held, rfl, fun spent => ?_, by simp [opened]⟩
      exact absurd room (Nat.not_lt.mpr spent.2.2)
    | queued id => cases serves
  | _ => cases serves

theorem keys_emit {p : Pool} {h : Hand} {e : Effect} (move : Move sc sc')
    (eq : sc' = (sc.alter p h).emit e) : p.pending.keys = sc.pool.pending.keys := by
  cases move with
  | @overflow id r r' task queued due reachable drained =>
    obtain ⟨rfl, -, -⟩ := emit_inj eq
    have same := key_expire sc.pool.config r
    rw [due] at same
    exact keys_replace queued same
  | begin free due => exact absurd eq (ne_emit_begin rfl rfl)
  | _ =>
    first
    | exact absurd eq (ne_emit rfl)
    | (obtain ⟨rfl, -, -⟩ := emit_inj eq
       rfl)

/-! ### What a moment of a turn tells -/

theorem keys_in_order (listed : sc.Listed) :
    (sc.pool.pending.keys.map (·.2)).Sublist (Site.acquires sc.past) := by
  refine sublist_of_named listed.sorted fun n member => ?_
  obtain ⟨r, queued, rfl⟩ := List.mem_map.mp member
  exact (listed.caller _ _ (bearing_of_queued queued)).2

/-- A caller that has asked, and whose request is neither queued nor in hand, is attended to. -/
theorem attends_of_asked (asked : sc.Asked k) (free : sc.hand.task = none)
    (unheld : sc.hand.requests.countP (fun r => r.ticket = k) = 0)
    (unqueued : sc.pool.pending.requests.countP (fun r => r.ticket = k) = 0) :
    sc.site.Attends sc.past k := by
  refine asked.keeps.imp_left fun placed => ?_
  rw [places_eq, free, unheld, unqueued, countP_carried sc.site.underWay, asked.once,
    countP_opensFor] at placed
  simpa using placed

/-- When the oldest request is served, nobody who asked before still waits in the queue. -/
theorem past_of_oldest (orderly : sc.Orderly) (held : sc.hand.requests = [r])
    (first : ∀ n ∈ sc.pool.pending.keys, r.id.number < n.1.number) :
    (∀ r' ∈ sc.pool.pending.requests, ¬Site.Ahead sc.past r'.ticket r.ticket) ∧
      ∀ k', Site.Ahead sc.past k' r.ticket → sc.site.Attends sc.past k' := by
  have named := (orderly.listed.caller _ _ (bearing_of_held (held ▸ List.mem_singleton_self r))).2
  have later : ∀ r' ∈ sc.pool.pending.requests, ¬Site.Ahead sc.past r'.ticket r.ticket := by
    intro r' queued ahead
    have named' := (orderly.listed.caller _ _ (bearing_of_queued queued)).2
    have earlier := lt_of_ahead orderly.known.distinct named' named ahead
    exact absurd earlier (Nat.not_lt.mpr (Nat.le_of_lt (first _ (List.mem_map_of_mem queued))))
  refine ⟨later, fun k' ahead => ?_⟩
  have asked : k' ∈ Site.acquires sc.past := ahead.subset List.mem_cons_self
  have other : r.ticket ≠ k' := by
    rintro rfl
    have twice := orderly.known.distinct.sublist ahead
    simp at twice
  refine attends_of_asked (orderly.known.asked k' asked) (free_of_held orderly.poised held) ?_ ?_
  · simp [held, other]
  · refine List.countP_eq_zero.mpr fun r' queued mine => ?_
    simp only [decide_eq_true_eq] at mine
    exact later r' queued (mine.symm ▸ ahead)

def Target.caller? (past : List Site.Record) : Target → Option Ticket
  | .owned r => some r.ticket
  | .queued id => Site.caller? past id

/-- Whoever is served is the oldest one, or is served because of the connection that was asked for
on its behalf. -/
theorem turn_of_serves (orderly : sc.Orderly) (serves : sc.Serves k r) :
    (∃ target result, sc.command = some (.connected target result) ∧
        target.caller? sc.past = some k) ∨
      (∀ r' ∈ sc.pool.pending.requests, ¬Site.Ahead sc.past r'.ticket k) ∧
        ∀ k', Site.Ahead sc.past k' k → sc.site.Attends sc.past k' := by
  obtain ⟨held, rfl, unspent, able⟩ := serves
  cases orderly.rightful r (by rw [held]; rfl) with
  | @owned r' result command same => exact .inl ⟨_, result, command, congrArg some same⟩
  | @called result command =>
    have member : r ∈ sc.hand.requests := held ▸ List.mem_singleton_self r
    exact .inl ⟨_, result, command, (orderly.listed.caller _ _ (bearing_of_held member)).2⟩
  | oldest first => exact .inr (past_of_oldest orderly held first)
  | spent opened spent => exact absurd spent unspent
  | doomed closed empty => exact absurd empty (able closed)

theorem alone_of_serves (orderly : sc.Orderly) (serves : sc.Serves k r) {k' : Ticket}
    (command : sc.command = some (.acquire k')) : sc.memory.before.pending.requests = [] := by
  have free := free_of_held orderly.poised serves.held
  rcases orderly.direct k' command free with nobody | ⟨-, spent⟩
  · exact nobody
  · exact absurd spent serves.unspent

/-- A request that leaves while an older one stays is dismissed. -/
theorem dismissed_of_ahead (orderly : sc.Orderly) {r' : Request}
    (waited : r ∈ sc.memory.before.pending.requests) (queued : r' ∈ sc.pool.pending.requests)
    (ahead : Site.Ahead sc.past r'.ticket r.ticket)
    (gone : r.key ∉ sc.pool.pending.keys) : sc.Dismissed r := by
  cases (orderly.waited r waited).left with
  | queued member => exact absurd member gone
  | first first =>
    have named := (orderly.waited r waited).caller
    have named' := (orderly.listed.caller _ _ (bearing_of_queued queued)).2
    have earlier := lt_of_ahead orderly.known.distinct named' named ahead
    exact absurd earlier (Nat.not_lt.mpr (Nat.le_of_lt (first _ (List.mem_map_of_mem queued))))
  | dismissed dismissed => exact dismissed

variable {config : Config} {observer : Hook → Nat → Option String} {past' : List Site.Record}
  {before : Pool} {c : Option Command} {s s' : Site} {next : Option Effect} {now : Nat}

/-- A moment of a turn is as the moment before the effect that comes next, but for the pool, whose
queue is the same. -/
theorem orderly_of_midst (midst : Site.Midst config observer past before c s next) :
    ∃ (sc : Scene) (p : Pool), sc.Orderly ∧ sc.pool.config = config ∧ sc.past = past ∧
      sc.memory.before = before ∧ sc.command = c ∧ sc.site.withPool p = s ∧
      p.pending.keys = sc.pool.pending.keys ∧
        ∀ k, next.bind Effect.serves? = some k → ∃ r, sc.Serves k r := by
  have step : ∀ {a b : Scene}, Move a b → a.Orderly ∧ a.pool.config = config →
      b.Orderly ∧ b.pool.config = config :=
    fun move held => ⟨orderly_move move held.1, (config_move move).trans held.2⟩
  cases next with
  | none =>
    obtain ⟨sc, held, past, before, command, rfl, -⟩ :=
      holds_of_done midst step ⟨orderly_start config observer, rfl⟩
    exact ⟨sc, sc.pool, held.1, held.2, past, before, command, rfl, rfl,
      fun _ nobody => by cases nobody⟩
  | some e =>
    cases happens_of_midst midst step ⟨orderly_start config observer, rfl⟩ with
    | @intro sc sc' p h e held move eq =>
      subst eq
      exact ⟨sc, p, held.1, held.2, rfl, rfl, rfl, rfl, keys_emit move rfl,
        fun k serves => serves_move move serves⟩

/-! ### Deadlines in vain -/

/-- What becomes of the queue where a deadline asks for a connection: the request stays in it, or
its caller is told that the pool is closed and nothing else happens. -/
inductive Turn.Overran (p : Pool) (k : Ticket) (t : Turn) : Prop where
  | stays (meanwhile : ∀ m ∈ t.log, m.pool.pending.keys = p.pending.keys)
      (still : t.pool.pending.keys = p.pending.keys)
  | forsaken (told : t.effects = [.answer k (.failed .poolClosed)])

variable {w : Surroundings} {p : Pool}

/-- The queue makes nothing of a deadline that has passed. -/
theorem Pool.handle_timedOut (quiet : p.Quiet) (opened : p.closed = false) (request : RequestId) :
    p.handle w (.timedOut request) = (Turn.mk p []).timedOut w request := by
  rw [handle_of_open opened rfl rfl]
  exact Turn.servePending_of_quiet w (Turn.quiet_timedOut (t := ⟨p, []⟩) quiet request)

theorem overran_of_handle (quiet : p.Quiet) (opened : p.closed = false)
    (action : p.config.timeoutAction = .newConnection) (queued : p.pending.find? id = some r) :
    Turn.Overran p r.ticket (p.handle w (.timedOut id)) := by
  have replaced := keys_replace queued (key_expire p.config r)
  have named := (Queue.mem_of_find? queued).2
  rw [Pool.handle_timedOut quiet opened]
  simp only [Turn.timedOut, queued]
  cases due : (p.config.expire r).1 with
  | fail after => cases action.symm.trans (action_of_expire due)
  | ignore => exact .stays (List.forall_mem_nil _) replaced
  | openOverflow =>
    simp only [Turn.openFor]
    split
    · exact .stays (List.forall_mem_singleton.mpr replaced) replaced
    · -- Its timer is spent, so its failure is all that there is to tell.
      have found := Queue.find?_replace queued ((id_expire p.config r).trans named)
      refine .forsaken ?_
      simp only [Turn.failTarget, Turn.takePending, Turn.count, Turn.withPending,
        Queue.remove?, found, Option.map_some, Turn.fail, Turn.disarm, timer_expire,
        ticket_expire]
      rfl

/-- An effect comes next, or came last. -/
def Site.Tells (past : List Site.Record) (next : Option Effect) (e : Effect) : Prop :=
  next = some e ∨ ∃ rec, past.getLast? = some rec ∧ rec.effect = some e

theorem orderly_of_run (run : Site.Run config observer past now s) :
    ∃ m, Scene.Orderly { now, site := s, memory := m, past } :=
  run_invariant Scene.Orderly run orderly_move (orderly_start config observer)

theorem open_of_queued (run : Site.Run config observer past now s)
    (queued : r ∈ s.pool.pending.requests) : s.pool.closed = false := by
  obtain ⟨_, orderly⟩ := orderly_of_run run
  by_contra shut
  have nobody : s.pool.pending.requests = [] := orderly.shut (eq_true_of_ne_false shut)
  rw [nobody] at queued
  cases queued

theorem find?_of_queued (run : Site.Run config observer past now s)
    (queued : r ∈ s.pool.pending.requests) : s.pool.pending.find? r.id = some r := by
  obtain ⟨_, orderly⟩ := orderly_of_run run
  have sorted := orderly.listed.sorted
  rw [Queue.keys, List.pairwise_map] at sorted
  have distinct : (s.pool.pending.requests.map (·.id)).Nodup := by
    refine List.pairwise_map.mpr (sorted.imp fun less same => ?_)
    exact Nat.ne_of_lt less (congrArg RequestId.number same)
  exact Keyed.find?_of_mem distinct queued

theorem overran_of_run {later : Nat} {rest : Site}
    (run : Site.Run config observer past now s) (course : Site.Course later rest)
    (due : s.next? = some (some (.timedOut r.id), rest))
    (action : config.timeoutAction = .newConnection) (waited : r ∈ s.pool.pending.requests) :
    Turn.Overran s.pool r.ticket (course.turn (some (.timedOut r.id))) := by
  rw [Site.Course.turn, Site.pool_next? due]
  exact overran_of_handle (path_of_run run).2 (open_of_queued run waited)
    ((congrArg _ (config_of_run run)).trans action) (find?_of_queued run waited)

/-- A request that leaves the queue at a deadline which asks for a connection is told that the pool
is closed. -/
theorem tells_of_midst
    (midst : Site.Midst config observer past before (some (.timedOut r.id)) s next)
    (action : config.timeoutAction = .newConnection) (waited : r ∈ before.pending.requests)
    (gone : r.key ∉ s.pool.pending.keys) :
    Site.Tells past next (.answer r.ticket (.failed .poolClosed)) := by
  cases midst with
  | effect run order due course here =>
    cases overran_of_run run course due action waited with
    | stays meanwhile still =>
      rw [Site.pool_withPool, meanwhile _ (here ▸ by simp)] at gone
      exact absurd (List.mem_map_of_mem waited) gone
    | forsaken told =>
      rw [Turn.effects, here, List.map_append, List.map_cons] at told
      rcases List.append_eq_singleton_iff.mp told with ⟨-, comes⟩ | ⟨-, nothing⟩
      · exact .inl (congrArg some (List.cons.inj comes).1)
      · cases nothing
  | @done past' now later s' rest c run order due course =>
    cases overran_of_run run course due action waited with
    | stays meanwhile still =>
      rw [Site.Course.after, Site.pool_withPool, still] at gone
      exact absurd (List.mem_map_of_mem waited) gone
    | forsaken told =>
      obtain ⟨m, here, answers⟩ := List.map_eq_singleton_iff.mp told
      refine .inr ⟨{ now := later, command := some (.timedOut r.id), effect := some m.effect
                     pool := m.pool }, ?_, congrArg some answers⟩
      simp [Site.records, here]

theorem tickets_keys (q : Queue) : q.requests.map (·.ticket) = q.keys.map (·.2) := by
  rw [Queue.keys, List.map_map]
  rfl

/-- The queue holds its requests in the order in which they were taken up. Whoever is served is
served because of the connection that was asked for on its behalf, or is the oldest one: nobody who
asked before is queued, and each of them is attended to or has left. Whoever is served in the turn
in which it asks finds nobody in the queue. And a request leaves the queue before an older one only
because its caller has left, a connection that was asked for on its behalf has come to something, or
its deadline has passed, which under `newConnection` is in vain when nothing holds on to the pool
any more: then it is told that the pool is closed. -/
theorem served_in_turn (run : Site.Run config observer past' now s')
    (midst : Site.Midst config observer past before c s next) :
    (s'.pool.pending.requests.map (·.ticket)).Sublist (Site.acquires past') ∧
    (s.pool.pending.requests.map (·.ticket)).Sublist (Site.acquires past) ∧
    (∀ k, next.bind Effect.serves? = some k →
      ((∃ target result, c = some (.connected target result) ∧ target.caller? past = some k) ∨
        (∀ r ∈ s.pool.pending.requests, ¬Site.Ahead past r.ticket k) ∧
          ∀ k', Site.Ahead past k' k → s.Attends past k') ∧
      ∀ k', c = some (.acquire k') → before.pending.requests = []) ∧
    ∀ r ∈ before.pending.requests, ∀ r' ∈ s.pool.pending.requests,
      Site.Ahead past r'.ticket r.ticket →
        (∀ q ∈ s.pool.pending.requests, q.ticket ≠ r.ticket) →
          s.standing r.ticket = .abandoned ∨
            (∃ result, c = some (.connected (.queued r.id) result)) ∨
            c = some (.timedOut r.id) ∧ (config.timeoutAction = .fail ∨
              config.timeoutAction = .newConnection ∧ s.isReachable = false ∧
                Site.Tells past next (.answer r.ticket (.failed .poolClosed))) := by
  obtain ⟨_, orderly'⟩ := orderly_of_run run
  obtain ⟨sc, p, orderly, configured, rfl, rfl, rfl, rfl, keys, serves⟩ := orderly_of_midst midst
  have tickets : p.pending.requests.map (·.ticket) = sc.pool.pending.requests.map (·.ticket) := by
    rw [tickets_keys, tickets_keys, keys]
  -- Each request of the one queue stands for one of the other.
  have queued : ∀ r ∈ p.pending.requests, ∃ r' ∈ sc.pool.pending.requests, r'.key = r.key := by
    intro r member
    have listed : r.key ∈ p.pending.keys := List.mem_map_of_mem member
    rw [keys] at listed
    exact List.mem_map.mp listed
  refine ⟨?_, ?_, fun k served => ?_, fun r waited r' member ahead gone => ?_⟩
  · rw [tickets_keys]
    exact keys_in_order orderly'.listed
  · rw [Site.pool_withPool, tickets, tickets_keys]
    exact keys_in_order orderly.listed
  · obtain ⟨r, serves⟩ := serves k served
    refine ⟨(turn_of_serves orderly serves).imp_right fun ⟨oldest, attended⟩ => ⟨?_, attended⟩,
      fun k' command => alone_of_serves orderly serves command⟩
    intro r' member ahead
    obtain ⟨r₀, member₀, same⟩ := queued r' member
    have ticket : r₀.ticket = r'.ticket := congrArg Prod.snd same
    exact oldest r₀ member₀ (ticket ▸ ahead)
  · have unqueued : r.key ∉ p.pending.keys := fun still => by
      obtain ⟨q, member, same⟩ := List.mem_map.mp still
      exact gone q member (congrArg Prod.snd same)
    obtain ⟨r₀, member₀, same⟩ := queued r' member
    have ticket : r₀.ticket = r'.ticket := congrArg Prod.snd same
    rcases dismissed_of_ahead orderly waited member₀ (ticket ▸ ahead) (keys ▸ unqueued) with
      left | called | ⟨command, fails | ⟨action, lost⟩⟩
    · exact .inl left
    · exact .inr (.inl called)
    · exact .inr (.inr ⟨command, .inl (configured ▸ fails)⟩)
    · have action : config.timeoutAction = .newConnection := configured ▸ action
      rw [command] at midst
      exact .inr (.inr ⟨command, .inr ⟨action, lost, tells_of_midst midst action waited unqueued⟩⟩)

/-- Two callers wait for the only connection, which is dropped by its holder and found healthy. -/
def handedOn : List (Nat × Option Site.Event) :=
  [(0, some (.acquire ⟨1⟩)), (0, none), (5, some (.connected ⟨0⟩ (.ok (⟨1⟩, {})))), (5, none),
    (6, some (.read ⟨1⟩)), (6, some (.acquire ⟨2⟩)), (6, none), (6, some (.acquire ⟨3⟩)), (6, none),
    (7, some (.dropLoan ⟨1⟩)), (7, none), (9, some (.checked ⟨1⟩ true))]

theorem turn_of_handedOn :
    (∃ past now s, Site.Run { maxConnections := 1 } (fun _ _ => none) past now s ∧
      s.pool.pending.requests.map (·.ticket) = [⟨2⟩, ⟨3⟩] ∧
      [⟨2⟩, ⟨3⟩].Sublist (Site.acquires past)) ∧
    ∃ past before c s e,
      Site.Midst { maxConnections := 1 } (fun _ _ => none) past before c s (some e) ∧
      e.serves? = some ⟨2⟩ ∧ Site.Ahead past ⟨1⟩ ⟨2⟩ ∧ s.Attends past ⟨1⟩ := by
  obtain ⟨past', now, s', run, seen'⟩ :=
    Site.exists_run { maxConnections := 1 } (fun _ _ => none) handedOn
      (fun _ s => s.pool.pending.requests.map (·.ticket) == [⟨2⟩, ⟨3⟩]) (by decide +kernel)
  obtain ⟨past, before, c, s, next, midst, seen⟩ :=
    Site.exists_midst { maxConnections := 1 } (fun _ _ => none) handedOn 1
      (fun past _ c _ next => next.bind Effect.serves? == some ⟨2⟩ && c.any (!·.isConnected) &&
        [⟨1⟩, ⟨2⟩].isSublist (Site.acquires past))
      (by decide +kernel)
  obtain ⟨⟨served, verdict⟩, ahead⟩ : (next.bind Effect.serves? = some ⟨2⟩ ∧
      c.any (!·.isConnected) = true) ∧ [⟨1⟩, ⟨2⟩].Sublist (Site.acquires past) := by
    simpa using seen
  have queue : s'.pool.pending.requests.map (·.ticket) = [⟨2⟩, ⟨3⟩] := by simpa using seen'
  obtain ⟨listed, -, turns, -⟩ := served_in_turn run midst
  refine ⟨⟨past', now, s', run, queue, queue ▸ listed⟩, ?_⟩
  cases next with
  | none => cases served
  | some e =>
    refine ⟨past, before, c, s, e, midst, served, ahead, ?_⟩
    rcases (turns ⟨2⟩ served).1 with ⟨target, result, rfl, -⟩ | ⟨-, attended⟩
    · cases verdict
    · exact attended ⟨1⟩ ahead

/-- One caller waits because another one has the only connection. A connection past capacity is on
its way to it when the last handle is dropped, and then the deadline of a third one passes. -/
def deserted : List (Nat × Option Site.Event) :=
  [(0, some (.acquire ⟨1⟩)), (0, none), (0, some (.connected ⟨0⟩ (.ok (⟨1⟩, {})))), (0, none),
    (0, some (.read ⟨1⟩)), (0, some (.acquire ⟨2⟩)), (0, none), (5, some (.acquire ⟨3⟩)), (5, none),
    (10000020, some (.deadline ⟨2⟩)), (10000020, none), (10000020, some .dropHandle),
    (10000020, some (.deadline ⟨3⟩)), (10000020, some (.connected ⟨1⟩ (.ok (⟨2⟩, {}))))]

/-- The third caller leaves the queue before the second one. It is there still, its deadline is not
one that fails a request, and no connection was asked for on its behalf. -/
theorem overtaken_of_deserted :
    ¬∀ config observer past before c s next, Site.Midst config observer past before c s next →
      ∀ r ∈ before.pending.requests, ∀ r' ∈ s.pool.pending.requests,
        Site.Ahead past r'.ticket r.ticket →
          (∀ q ∈ s.pool.pending.requests, q.ticket ≠ r.ticket) →
            s.standing r.ticket = .abandoned ∨
              (∃ result, c = some (.connected (.queued r.id) result)) ∨
              c = some (.timedOut r.id) ∧ config.timeoutAction = .fail := by
  intro claim
  obtain ⟨past, before, c, s, next, midst, seen⟩ :=
    Site.exists_midst
      { maxConnections := 1, acquireTimeoutMs := 10, timeoutAction := .newConnection }
      (fun _ _ => none) deserted 100
      (fun past before c s _ => before.pending.requests.any (·.ticket == ⟨3⟩) &&
        s.pool.pending.requests.map (·.ticket) == [⟨2⟩] &&
        [⟨2⟩, ⟨3⟩].isSublist (Site.acquires past) && s.standing ⟨3⟩ != .abandoned &&
        c.any (!·.isConnected))
      (by decide +kernel)
  simp only [Bool.and_eq_true, List.any_eq_true, beq_iff_eq, bne_iff_ne] at seen
  obtain ⟨⟨⟨⟨⟨r, waited, ticket⟩, queue⟩, ahead⟩, present⟩, other⟩ := seen
  obtain ⟨r', queued, ticket'⟩ : ∃ r' ∈ s.pool.pending.requests, r'.ticket = ⟨2⟩ :=
    List.mem_map.mp (queue ▸ List.mem_singleton_self _)
  have gone : ∀ q ∈ s.pool.pending.requests, q.ticket ≠ r.ticket := by
    intro q member same
    have listed : q.ticket ∈ s.pool.pending.requests.map (·.ticket) := List.mem_map_of_mem member
    rw [queue, same, ticket] at listed
    simp at listed
  have first : Site.Ahead past r'.ticket r.ticket := by
    rw [ticket, ticket']
    exact List.isSublist_iff_sublist.mp ahead
  rcases claim _ _ _ _ _ _ _ midst r waited r' queued first gone with
    left | ⟨result, rfl⟩ | ⟨-, fails⟩
  · exact present (ticket ▸ left)
  · cases other
  · cases fails

end LoanPool
