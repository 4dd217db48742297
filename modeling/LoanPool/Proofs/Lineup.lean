import LoanPool.Proofs.Capacity
import LoanPool.Proofs.Custody

/-!
# The order of requests

Requests are named in the order in which the commands that ask for them are handled, and the queue
holds them in the order of their names. Whatever leaves the queue before its end leaves it for a
reason of its own.
-/
namespace LoanPool
open Pending (Request Queue)

def Pending.Request.key (r : Request) : RequestId × Ticket :=
  (r.id, r.ticket)

def Pending.Queue.keys (q : Queue) : List (RequestId × Ticket) :=
  q.requests.map Request.key

namespace Site

def Record.acquirer? (rec : Record) : Option Ticket :=
  match rec.effect with
  | none => rec.command.bind Command.acquirer?
  | some _ => none

def acquires (past : List Record) : List Ticket :=
  past.filterMap (·.acquirer?)

/-- The caller whose request has a name. Names count the requests from one. -/
def caller? (past : List Record) (id : RequestId) : Option Ticket :=
  if id.number = 0 then none else (acquires past)[id.number - 1]?

end Site

variable {sc sc' : Scene} {past : List Site.Record} {id : RequestId} {k : Ticket}

/-! ### The record -/

theorem acquires_concat (past : List Site.Record) (rec : Site.Record) :
    Site.acquires (past ++ [rec]) = Site.acquires past ++ rec.acquirer?.toList :=
  Site.filterMap_concat _ past rec

theorem caller?_append (named : Site.caller? past id = some k) (rec : Site.Record) :
    Site.caller? (past ++ [rec]) id = some k := by
  simp only [Site.caller?, acquires_concat] at named ⊢
  split at named
  · cases named
  · next numbered =>
    rw [if_neg numbered, List.getElem?_append_left (List.getElem?_eq_some_iff.mp named).1]
    exact named

theorem caller?_move (move : Move sc sc') (named : Site.caller? sc.past id = some k) :
    Site.caller? sc'.past id = some k := by
  cases recording_move move with
  | same past memory => rwa [past]
  | begin free due => exact caller?_append named _
  | effect p h e => exact caller?_append named _

theorem acquires_effect (p : Pool) (h : Hand) (e : Effect) :
    Site.acquires ((sc.alter p h).emit e).past = Site.acquires sc.past :=
  (acquires_concat _ _).trans (List.append_nil _)

theorem acquires_begin (past : List Site.Record) (now : Nat) (c : Option Command) (p : Pool) :
    Site.acquires (past ++ [{ now, command := c, pool := p }]) =
      Site.acquires past ++ (c.bind Command.acquirer?).toList :=
  acquires_concat _ _

/-! ### What moves do to the queue -/

theorem map_set {α β : Type} {l : List α} {g : α → Bool} {a : α} (found : l.find? g = some a)
    (a' : α) (f : α → β) (same : f a' = f a) : (l.set (l.findIdx g) a').map f = l.map f := by
  induction l with
  | nil => cases found
  | cons first rest ih =>
    by_cases here : g first = true
    · rw [List.find?_cons_of_pos here] at found
      cases found
      simp [List.findIdx_cons, here, same]
    · rw [List.find?_cons_of_neg here] at found
      simp [List.findIdx_cons, here, ih found]

theorem keys_replace {q : Queue} {r : Request} (queued : q.find? id = some r) {r' : Request}
    (same : r'.key = r.key) : (q.replace id r').keys = q.keys :=
  map_set queued r' Request.key same

theorem key_expire (config : Config) (r : Request) : (config.expire r).2.key = r.key := by
  rw [Request.key, Request.key, id_expire, ticket_expire]

theorem mem_eraseP {α : Type} {l : List α} {g : α → Bool} {a b : α} (found : l.find? g = some a)
    (member : b ∈ l) : b ∈ l.eraseP g ∨ b = a := by
  induction l with
  | nil => cases found
  | cons first rest ih =>
    by_cases here : g first = true
    · rw [List.find?_cons_of_pos here] at found
      cases found
      rw [List.eraseP_cons_of_pos here]
      exact (List.mem_cons.mp member).symm
    · rw [List.find?_cons_of_neg here] at found
      rw [List.eraseP_cons_of_neg here]
      rcases List.mem_cons.mp member with rfl | member
      · exact .inl List.mem_cons_self
      · exact (ih found member).imp_left (List.mem_cons_of_mem _)

inductive Queueing (sc sc' : Scene) : Prop where
  | same (keys : sc'.pool.pending.keys = sc.pool.pending.keys)
  | popped {r : Request}
      (front : sc.pool.pending.requests = r :: sc'.pool.pending.requests)
      (held : sc'.hand.requests = [r])
  | sifted {gone : Ticket → Bool} (left : ∀ k, gone k = true → sc.site.standing k = .abandoned)
      (kept : sc'.pool.pending = sc.pool.pending.prune gone)
  | fetched {id : RequestId} {r : Request} (called : sc.Calls id)
      (found : sc.pool.pending.remove? id = some (r, sc'.pool.pending))
      (held : sc'.hand.requests = [r])
  | emptied (nobody : sc'.pool.pending.requests = [])
  | queued {r : Request} (held : sc.hand.requests = [r])
      (newest : r.id.number + 1 = sc.pool.nextRequest)
      (last : sc'.pool.pending = sc.pool.pending.push r)
      (asked : sc.command = some (.acquire r.ticket))
      (armed : ∀ timeout, sc.pool.config.acquireTimeout = some timeout → sc.Armed r timeout)
      (past : sc'.past = sc.past)

theorem queueing_move (move : Move sc sc') : Queueing sc sc' := by
  cases move with
  | event order allowed => exact .same (by simp [Scene.pool])
  | wait order => exact .same rfl
  | begin free due => exact .same (by simp [Scene.pool, Site.pool_next? due])
  | shut task ends opened => exact .emptied rfl
  | expire task queued => exact .same (keys_replace queued (key_expire _ _))
  | @overflow id r r' task queued due reachable drained =>
    have same := key_expire sc.pool.config r
    rw [due] at same
    refine .same ?_
    simp only [Scene.pool_emit, Scene.pool_alter]
    exact keys_replace queued same
  | pop free bare front => exact .popped front rfl
  | sift held left => exact .sifted left rfl
  | fetch free bare called found => exact .fetched called found rfl
  | enqueue held opened newest room asked armed => exact .queued held newest rfl asked armed rfl
  | _ =>
    refine .same ?_
    simp only [Scene.pool_emit, Scene.pool_alter]

theorem sublist_remove? {q rest : Queue} {r : Request}
    (found : q.remove? id = some (r, rest)) : rest.requests.Sublist q.requests := by
  obtain ⟨r', queued, eq⟩ := Option.map_eq_some_iff.mp found
  cases eq
  exact List.eraseP_sublist

theorem keys_move (move : Move sc sc') :
    sc'.pool.pending.keys.Sublist sc.pool.pending.keys ∨
      ∃ r, sc.hand.requests = [r] ∧ r.id.number + 1 = sc.pool.nextRequest ∧
        sc'.pool.pending.keys = sc.pool.pending.keys ++ [r.key] := by
  cases queueing_move move with
  | same keys => exact .inl (keys ▸ List.Sublist.refl _)
  | popped front held =>
    left
    rw [Queue.keys, Queue.keys, front]
    exact List.sublist_cons_self _ _
  | sifted left kept =>
    rw [kept]
    exact .inl (List.filter_sublist.map _)
  | fetched called found held => exact .inl ((sublist_remove? found).map _)
  | emptied nobody =>
    rw [Queue.keys, nobody]
    exact .inl (List.nil_sublist _)
  | queued held newest last =>
    refine .inr ⟨_, held, newest, ?_⟩
    rw [last]
    exact List.map_append

/-- Whoever comes into the queue has asked for a connection in this turn. If waiting is limited, the
timer was started just before. -/
theorem newcomer_move (move : Move sc sc') {r : Request}
    (member : r ∈ sc'.pool.pending.requests) :
    r.key ∈ sc.pool.pending.keys ∨
      sc.hand.requests = [r] ∧ sc.command = some (.acquire r.ticket) ∧ sc'.past = sc.past ∧
        ∀ timeout, sc.pool.config.acquireTimeout = some timeout → sc.Armed r timeout := by
  have here : r.key ∈ sc'.pool.pending.keys := List.mem_map_of_mem member
  cases queueing_move move with
  | same keys => exact .inl (keys ▸ here)
  | popped front held =>
    rw [Queue.keys, front]
    exact .inl (List.mem_cons_of_mem _ here)
  | sifted left kept =>
    rw [kept] at here
    exact .inl ((List.filter_sublist.map _).subset here)
  | fetched called found held => exact .inl (((sublist_remove? found).map _).subset here)
  | emptied nobody =>
    rw [nobody] at member
    cases member
  | queued held newest last asked armed past =>
    rw [last] at member
    rcases List.mem_append.mp member with before | new
    · exact .inl (List.mem_map_of_mem before)
    · cases List.mem_singleton.mp new
      exact .inr ⟨held, asked, past, armed⟩

/-! ### Names -/

def Scene.bearing (sc : Scene) (id : RequestId) (k : Ticket) : Nat :=
  sc.dues (fun r => r.id = id ∧ r.ticket = k) fun _ => false

def Scene.named (sc : Scene) (id : RequestId) : Nat :=
  sc.dues (fun r => r.id = id) fun _ => false

def Scene.asking (sc : Scene) : Option Ticket :=
  sc.hand.task.join.bind Command.acquirer?

structure Scene.Listed (sc : Scene) : Prop where
  count : sc.pool.closed = false →
    (Site.acquires sc.past).length + 1 = sc.pool.nextRequest + sc.asking.toList.length
  latest : ∀ k, sc.asking = some k → (Site.acquires sc.past).getLast? = some k
  caller : ∀ id k, 0 < sc.bearing id k →
    id.number < sc.pool.nextRequest ∧ Site.caller? sc.past id = some k
  once : ∀ id, sc.named id ≤ if id.number < sc.pool.nextRequest then 1 else 0
  sorted : sc.pool.pending.keys.Pairwise fun a b => a.1.number < b.1.number

theorem bearing_of_held {r : Request} (member : r ∈ sc.hand.requests) :
    0 < sc.bearing r.id r.ticket := by
  have counted : 0 < sc.hand.requests.countP fun r' => r'.id = r.id ∧ r'.ticket = r.ticket :=
    List.countP_pos_iff.mpr ⟨r, member, by simp⟩
  simp only [Scene.bearing, Scene.dues, Hand.dues]
  omega

theorem bearing_of_queued {r : Request} (member : r ∈ sc.pool.pending.requests) :
    0 < sc.bearing r.id r.ticket := by
  have counted :
      0 < sc.pool.pending.requests.countP fun r' => r'.id = r.id ∧ r'.ticket = r.ticket :=
    List.countP_pos_iff.mpr ⟨r, member, by simp⟩
  simp only [Scene.bearing, Scene.dues, Pool.dues]
  omega

theorem named_of_held {r : Request} (member : r ∈ sc.hand.requests) : 0 < sc.named r.id := by
  have counted : 0 < sc.hand.requests.countP fun r' => r'.id = r.id :=
    List.countP_pos_iff.mpr ⟨r, member, by simp⟩
  simp only [Scene.named, Scene.dues, Hand.dues]
  omega

/-- A request in hand is not queued. -/
theorem ne_of_held_queued (listed : sc.Listed) {r r' : Request} (held : sc.hand.requests = [r])
    (member : r' ∈ sc.pool.pending.requests) : r'.id ≠ r.id := by
  intro same
  have counted : 0 < sc.pool.pending.requests.countP fun r' => r'.id = r.id :=
    List.countP_pos_iff.mpr ⟨r', member, by simpa using same⟩
  have once := listed.once r.id
  simp only [Scene.named, Scene.dues, Hand.dues, Pool.dues, held, countP_cons_toNat, decide_true,
    Bool.toNat_true] at once
  split at once <;> omega

theorem nextRequest_move (move : Move sc sc') : sc.pool.nextRequest ≤ sc'.pool.nextRequest := by
  by_cases same : sc'.pool.nextRequest = sc.pool.nextRequest
  · exact Nat.le_of_eq same.symm
  · obtain ⟨k, task, rfl⟩ := named_of_acquire move same
    exact Nat.le_succ _

theorem dues_named {p : Request → Bool} {k : Ticket}
    (task : sc.hand = { task := some (some (.acquire k)) }) :
    ((sc.alter { sc.pool with nextRequest := sc.pool.nextRequest + 1 }
      { requests := [{ id := ⟨sc.pool.nextRequest⟩, ticket := k }]
        fresh := true }).dues p fun _ => false) =
        (sc.dues p fun _ => false) +
          (p { id := ⟨sc.pool.nextRequest⟩, ticket := k }).toNat := by
  rw [dues_of_task task, dues_alter]
  simp only [Hand.dues, Pool.dues, Command.requests, Command.replies, countP_cons_toNat,
    List.countP_nil, Option.join_none, Option.toList_none, Bool.toNat_false]
  omega

theorem latest_caller (listed : sc.Listed) {k : Ticket} (opened : sc.pool.closed = false)
    (task : sc.hand = { task := some (some (.acquire k)) }) :
    Site.caller? sc.past ⟨sc.pool.nextRequest⟩ = some k := by
  have asking : sc.asking = some k := by
    rw [Scene.asking, task]
    rfl
  have count := listed.count opened
  have latest := listed.latest k asking
  rw [asking, Option.toList_some, List.length_singleton] at count
  have length : (Site.acquires sc.past).length = sc.pool.nextRequest := Nat.succ.inj count
  have some_asked : (Site.acquires sc.past).length ≠ 0 := by
    intro none_asked
    rw [List.length_eq_zero_iff.mp none_asked] at latest
    cases latest
  rw [List.getLast?_eq_getElem?, length] at latest
  rw [Site.caller?, if_neg (by rw [← length]; exact some_asked)]
  exact latest

theorem acquirer_of_carried {c : Command} (plain : c.carried? = none) : c.acquirer? = none :=
  (Option.or_eq_none_iff.mp plain).1

theorem asking_of_task {c : Command} (task : sc.hand = { task := some (some c) }) :
    sc.asking = c.acquirer? := by
  rw [Scene.asking, task]
  rfl

inductive Asking (sc sc' : Scene) : Prop where
  | same (asking : sc'.asking = sc.asking)
      (recorded : Site.acquires sc'.past = Site.acquires sc.past)
  | begun (free : sc.asking = none)
      (recorded : Site.acquires sc'.past = Site.acquires sc.past ++ sc'.asking.toList)
  | served {k : Ticket} (task : sc.hand = { task := some (some (.acquire k)) })
      (done : sc'.asking = none) (recorded : Site.acquires sc'.past = Site.acquires sc.past)
      (named : sc.pool.closed = true ∨ sc'.pool.nextRequest = sc.pool.nextRequest + 1)

theorem asking_move (move : Move sc sc') : Asking sc sc' := by
  -- A command that asks for no connection is taken up and acted upon without a trace.
  have plain : ∀ {c : Command}, sc.hand = { task := some (some c) } → c.acquirer? = none →
      sc'.hand.task = none → Site.acquires sc'.past = Site.acquires sc.past → Asking sc sc' := by
    intro c task other done recorded
    refine .same ?_ recorded
    rw [asking_of_task task, other, Scene.asking, done]
    rfl
  cases move with
  | begin free due =>
    refine .begun ?_ (acquires_begin _ _ _ _)
    rw [Scene.asking, free]
    rfl
  | dismiss task moot =>
    exact plain task (acquirer_of_carried (carried_of_moot moot)) rfl rfl
  | refuse task closed => exact .served task rfl (acquires_effect _ _ _) (.inl closed)
  | acquire task opened quiet => exact .served task rfl rfl (.inr rfl)
  | stats task => exact plain task rfl rfl (acquires_effect _ _ _)
  | @shut c closer task ends opened =>
    subst ends
    cases closer with
    | none =>
      refine .same ?_ rfl
      rw [Scene.asking, Scene.asking, task]
      rfl
    | some k => exact plain task rfl rfl rfl
  | seize task back closed honest removed =>
    exact plain task (acquirer_of_carried (carried_of_returned back)) rfl (acquires_effect _ _ _)
  | takeBack task back opened lent =>
    exact plain task (acquirer_of_carried (carried_of_returned back)) rfl rfl
  | connectDone task => exact plain task rfl rfl (acquires_effect _ _ _)
  | connectFailed task => exact plain task rfl rfl rfl
  | verdict task checking => exact plain task rfl rfl rfl
  | expire task queued => exact plain task rfl rfl rfl
  | overflow task queued due reachable drained => exact plain task rfl rfl (acquires_effect _ _ _)
  | forget task => exact plain task rfl rfl rfl
  | report free closed complete =>
    refine .same ?_ rfl
    rw [Scene.asking, Scene.asking, free]
    rfl
  | _ => first | exact .same rfl rfl | exact .same rfl (acquires_effect _ _ _)

theorem opened_of_named (move : Move sc sc')
    (named : sc'.pool.nextRequest ≠ sc.pool.nextRequest) : sc.pool.closed = false := by
  cases move with
  | acquire task opened quiet => exact opened
  | event order allowed => exact absurd (by simp [Scene.pool]) named
  | wait order => exact absurd rfl named
  | begin free due => exact absurd (by simp [Scene.pool, Site.pool_next? due]) named
  | _ => exact absurd (by simp only [Scene.pool_emit, Scene.pool_alter]) named

theorem caller_move (a : sc.Accounted) (listed : sc.Listed) (move : Move sc sc') (id : RequestId)
    (k : Ticket) (some_left : 0 < sc'.bearing id k) :
    id.number < sc'.pool.nextRequest ∧ Site.caller? sc'.past id = some k := by
  have kept : 0 < sc.bearing id k →
      id.number < sc'.pool.nextRequest ∧ Site.caller? sc'.past id = some k := by
    intro before
    obtain ⟨older, named⟩ := listed.caller id k before
    exact ⟨Nat.lt_of_lt_of_le older (nextRequest_move move), caller?_move move named⟩
  by_cases same : sc'.pool.nextRequest = sc.pool.nextRequest
  · apply kept
    refine Nat.lt_of_lt_of_le some_left
      (requests_move a.numbered move (fun _ same => same) (fun _ same => same)
        (fun new => absurd same new) ?_)
    intro r
    rw [ticket_expire, id_expire]
    exact fun same => same
  · have opened := opened_of_named move same
    obtain ⟨k', task, rfl⟩ := named_of_acquire move same
    rw [Scene.bearing, dues_named task] at some_left
    by_cases mine : (⟨sc.pool.nextRequest⟩ : RequestId) = id ∧ k' = k
    · obtain ⟨rfl, rfl⟩ := mine
      exact ⟨Nat.lt_succ_self _, latest_caller listed opened task⟩
    · rw [decide_eq_false mine] at some_left
      exact kept some_left

theorem once_named_move (a : sc.Accounted) (listed : sc.Listed) (move : Move sc sc')
    (id : RequestId) : sc'.named id ≤ if id.number < sc'.pool.nextRequest then 1 else 0 := by
  have once := listed.once id
  by_cases same : sc'.pool.nextRequest = sc.pool.nextRequest
  · rw [same]
    refine Nat.le_trans (requests_move a.numbered move (fun _ same => same) (fun _ same => same)
      (fun new => absurd same new) ?_) once
    intro r
    rw [id_expire]
    exact fun same => same
  · obtain ⟨k, task, rfl⟩ := named_of_acquire move same
    rw [Scene.named, dues_named task]
    change _ ≤ if id.number < sc.pool.nextRequest + 1 then 1 else 0
    by_cases mine : (⟨sc.pool.nextRequest⟩ : RequestId) = id
    · subst mine
      rw [if_neg (Nat.lt_irrefl _)] at once
      simp only [Nat.lt_succ_self, if_true, decide_true, Bool.toNat_true]
      exact Nat.succ_le_succ once
    · rw [decide_eq_false mine, Bool.toNat_false]
      refine Nat.le_trans once ?_
      split <;> split <;> omega

theorem open_of_move (move : Move sc sc') (opened : sc'.pool.closed = false) :
    sc.pool.closed = false := by
  rcases closed_move move with same | ⟨closed, -⟩
  · exact same.symm.trans opened
  · rw [closed] at opened
    cases opened

theorem count_move (listed : sc.Listed) (move : Move sc sc') (opened : sc'.pool.closed = false) :
    (Site.acquires sc'.past).length + 1 = sc'.pool.nextRequest + sc'.asking.toList.length := by
  have before := open_of_move move opened
  have count := listed.count before
  have unnamed : sc.asking = none ∨ sc'.asking = sc.asking →
      sc'.pool.nextRequest = sc.pool.nextRequest := by
    intro other
    by_contra named
    obtain ⟨k, task, rfl⟩ := named_of_acquire move named
    rw [asking_of_task task] at other
    rcases other with none_asks | same
    · cases none_asks
    · cases same
  cases asking_move move with
  | same asking recorded =>
    rw [recorded, asking, unnamed (.inr asking)]
    exact count
  | begun free recorded =>
    rw [recorded, List.length_append, unnamed (.inl free)]
    rw [free, Option.toList_none, List.length_nil] at count
    omega
  | served task done recorded named =>
    rw [recorded, done, named.resolve_left (by simp [before])]
    rw [asking_of_task task] at count
    simpa [Command.acquirer?] using count

theorem latest_move (listed : sc.Listed) (move : Move sc sc') (k : Ticket)
    (asking : sc'.asking = some k) : (Site.acquires sc'.past).getLast? = some k := by
  cases asking_move move with
  | same same recorded => exact recorded ▸ listed.latest k (same.symm.trans asking)
  | begun free recorded =>
    rw [recorded, asking]
    exact List.getLast?_concat
  | served task done recorded named =>
    rw [done] at asking
    cases asking

theorem sorted_move (listed : sc.Listed) (move : Move sc sc') :
    sc'.pool.pending.keys.Pairwise fun a b => a.1.number < b.1.number := by
  rcases keys_move move with fewer | ⟨r, held, newest, last⟩
  · exact listed.sorted.sublist fewer
  · rw [last, List.pairwise_append]
    refine ⟨listed.sorted, List.pairwise_singleton _ _, ?_⟩
    rintro _ member _ single
    rw [List.mem_singleton.mp single]
    obtain ⟨r', queued, rfl⟩ := List.mem_map.mp member
    -- Whoever is queued has an older name than the latest.
    have older := (listed.caller _ _ (bearing_of_queued queued)).1
    have other := ne_of_held_queued listed held queued
    have differs : r'.id.number ≠ r.id.number := fun same => other (congrArg RequestId.mk same)
    change r'.id.number < r.id.number
    omega

theorem listed_move (a : sc.Accounted) (move : Move sc sc') (listed : sc.Listed) : sc'.Listed where
  count := count_move listed move
  latest := latest_move listed move
  caller := caller_move a listed move
  once := once_named_move a listed move
  sorted := sorted_move listed move

theorem listed_start (config : Config) (observer : Hook → Nat → Option String) :
    (Scene.start config observer).Listed where
  count _ := rfl
  latest _ none_asks := by cases none_asks
  caller _ _ some_left := absurd some_left (Nat.lt_irrefl 0)
  once _ := Nat.zero_le _
  sorted := List.Pairwise.nil

end LoanPool
