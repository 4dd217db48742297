import LoanPool.Proofs.Traffic

/-!
# Dues

Requests and callers that are still to be dealt with, wherever they are: in commands under way, in
the hand of the pool, in the queue, or among those who wait for the close. They are counted by two
questions, one about requests and one about callers, and a move only ever moves them about or ends
them. New ones come from events alone.
-/
namespace LoanPool
open Pending (Request Queue)

def Command.concerns (p : Request → Bool) (q : Ticket → Bool) (c : Command) : Bool :=
  c.requests.any p || c.replies.any q

def Hand.dues (p : Request → Bool) (q : Ticket → Bool) (h : Hand) : Nat :=
  h.requests.countP p + h.replies.countP q + h.closer.toList.countP q

def Pool.dues (p : Request → Bool) (q : Ticket → Bool) (pool : Pool) : Nat :=
  pool.pending.requests.countP p + pool.closeWaiters.countP q

def Scene.dues (p : Request → Bool) (q : Ticket → Bool) (sc : Scene) : Nat :=
  sc.underWay.countP (·.concerns p q) + sc.hand.dues p q + sc.pool.dues p q

variable {α : Type} {sc sc' : Scene} {p : Request → Bool} {q : Ticket → Bool}

theorem toNat_le {a b : Bool} (le : a = true → b = true) : a.toNat ≤ b.toNat := by
  cases a with
  | false => exact Nat.zero_le _
  | true => simp [le rfl]

theorem countP_cons_toNat (p : α → Bool) (a : α) (l : List α) :
    (a :: l).countP p = (p a).toNat + l.countP p := by
  rw [List.countP_cons, Nat.add_comm]
  cases p a <;> rfl

theorem blind_concerns : Command.Blind (·.concerns p q) :=
  ⟨fun _ _ => rfl, fun _ _ _ => rfl⟩

theorem toNat_concerns (c : Command) :
    (c.concerns p q).toNat = c.requests.countP p + c.replies.countP q := by
  cases c with
  | connected target result =>
    cases target with
    | owned r => cases hit : p r <;> simp [Command.concerns, Command.requests, Target.requests,
        Command.replies, hit]
    | queued id => rfl
  | checked id healthy reply =>
    cases reply with
    | some k => cases hit : q k <;> simp [Command.concerns, Command.requests, Command.replies, hit]
    | none => rfl
  | acquire k =>
    cases hit : q k <;> simp [Command.concerns, Command.requests, Command.replies, hit]
  | release id k =>
    cases hit : q k <;> simp [Command.concerns, Command.requests, Command.replies, hit]
  | close k =>
    cases hit : q k <;> simp [Command.concerns, Command.requests, Command.replies, hit]
  | stats k =>
    cases hit : q k <;> simp [Command.concerns, Command.requests, Command.replies, hit]
  | _ => rfl

/-! ### The queue -/

theorem countP_set {rs : List Request} {g : Request → Bool} {r : Request}
    (found : rs.find? g = some r) (r' : Request) (p : Request → Bool) :
    (rs.set (rs.findIdx g) r').countP p + (p r).toNat = rs.countP p + (p r').toNat := by
  induction rs with
  | nil => cases found
  | cons first rest ih =>
    by_cases here : g first = true
    · rw [List.find?_cons_of_pos here] at found
      cases found
      simp only [List.findIdx_cons, here, cond_true, List.set_cons_zero, List.countP_cons]
      cases p r <;> cases p r' <;> simp
    · rw [List.find?_cons_of_neg here] at found
      have later := ih found
      simp only [List.findIdx_cons, here, cond_false, List.set_cons_succ, List.countP_cons]
      omega

theorem countP_eraseP {rs : List Request} {g : Request → Bool} {r : Request}
    (found : rs.find? g = some r) (p : Request → Bool) :
    (rs.eraseP g).countP p + (p r).toNat = rs.countP p := by
  induction rs with
  | nil => cases found
  | cons first rest ih =>
    by_cases here : g first = true
    · rw [List.find?_cons_of_pos here] at found
      cases found
      rw [List.eraseP_cons_of_pos here, List.countP_cons]
      cases p r <;> simp
    · rw [List.find?_cons_of_neg here] at found
      have later := ih found
      rw [List.eraseP_cons_of_neg here, List.countP_cons, List.countP_cons]
      omega

theorem countP_replace {queue : Queue} {id : RequestId} {r : Request}
    (found : queue.find? id = some r) (r' : Request) (p : Request → Bool) :
    (queue.replace id r').requests.countP p + (p r).toNat =
      queue.requests.countP p + (p r').toNat :=
  countP_set found r' p

theorem countP_remove? {queue rest : Queue} {id : RequestId} {r : Request}
    (removed : queue.remove? id = some (r, rest)) (p : Request → Bool) :
    rest.requests.countP p + (p r).toNat = queue.requests.countP p := by
  obtain ⟨r', found, eq⟩ := Option.map_eq_some_iff.mp removed
  cases eq
  exact countP_eraseP found p

theorem countP_prune (queue : Queue) (gone : Ticket → Bool) (p : Request → Bool) :
    (queue.prune gone).requests.countP p + (queue.abandoned gone).countP p =
      queue.requests.countP p := by
  simp only [Queue.prune, Queue.abandoned]
  induction queue.requests with
  | nil => rfl
  | cons first rest ih =>
    by_cases left : gone first.ticket = true
    · simp only [List.filter_cons, left, Bool.not_true, Bool.false_eq_true, if_false, if_true,
        List.countP_cons]
      omega
    · simp only [Bool.not_eq_true] at left
      simp only [List.filter_cons, left, Bool.not_false, Bool.false_eq_true, if_false, if_true,
        List.countP_cons]
      omega

namespace Pending.Queue

theorem mem_of_find? {queue : Queue} {id : RequestId} {r : Request}
    (found : queue.find? id = some r) : r ∈ queue.requests ∧ r.id = id := by
  simp only [find?] at found
  exact ⟨List.mem_of_find?_eq_some found, by simpa using List.find?_some found⟩

theorem mem_replace {queue : Queue} {id : RequestId} {r : Request}
    (found : queue.find? id = some r) (r' : Request) :
    r' ∈ (queue.replace id r').requests := by
  obtain ⟨member, named⟩ := mem_of_find? found
  refine List.mem_set ?_ r'
  rw [List.findIdx_lt_length]
  exact ⟨r, member, by simpa using named⟩

end Pending.Queue

/-! ### Moves -/

theorem dues_alter (pool : Pool) (h : Hand) :
    (sc.alter pool h).dues p q = h.task.join.toList.countP (·.concerns p q) +
      sc.site.underWay.countP (·.concerns p q) + h.dues p q + pool.dues p q := by
  rw [Scene.dues, Scene.underWay_alter, List.countP_append]
  rfl

theorem dues_emit (e : Effect) :
    (sc.emit e).dues p q = sc.dues p q + e.starts.countP (·.concerns p q) := by
  simp only [Scene.dues, Scene.countP_underWay_emit, Scene.pool_emit, Scene.hand_emit]
  omega

theorem dues_eq :
    sc.dues p q = sc.hand.task.join.toList.countP (·.concerns p q) +
      sc.site.underWay.countP (·.concerns p q) + sc.hand.dues p q + sc.pool.dues p q :=
  dues_alter sc.pool sc.hand

theorem dues_of_task {c : Command} (task : sc.hand = { task := some (some c) }) :
    sc.dues p q = c.requests.countP p + c.replies.countP q +
      sc.site.underWay.countP (·.concerns p q) + sc.pool.dues p q := by
  rw [dues_eq, task]
  simp only [Option.join_some, Option.toList_some, countP_cons_toNat, toNat_concerns, Hand.dues,
    List.countP_nil, Option.toList_none]
  omega

theorem dues_happen (numbered : sc.site.Numbered) (later : Nat) (e : Site.Event) :
    ({ sc with now := later, site := sc.site.happen e } : Scene).dues p q =
      sc.dues p q + (sc.site.sends e).countP (·.concerns p q) := by
  simp only [Scene.dues, Scene.underWay, List.countP_append, Scene.pool, Site.pool_happen,
    Site.countP_underWay_happen numbered blind_concerns]
  omega

theorem dues_begin {c : Option Command} {rest : Site} (free : sc.hand = {})
    (due : sc.site.next? = some (c, rest)) (past : List Site.Record) :
    ({ sc with
        site := rest, hand := { task := some c }, memory := sc.memory.begin c sc.site
        past } : Scene).dues p q = sc.dues p q := by
  rw [Scene.dues, Scene.dues, ← Scene.underWay_begin free due, free]
  simp only [Scene.pool, Site.pool_next? due]
  rfl

/-! What is begun or put down in the course of a turn has to be covered by what was in hand. -/

theorem dues_alter_le {pool : Pool} {h : Hand} (task : h.task = sc.hand.task)
    (covered : h.dues p q + pool.dues p q ≤ sc.hand.dues p q + sc.pool.dues p q) :
    (sc.alter pool h).dues p q ≤ sc.dues p q := by
  rw [dues_alter, dues_eq, task]
  omega

theorem dues_emit_le {pool : Pool} {h : Hand} {e : Effect} (task : h.task = sc.hand.task)
    (covered : e.starts.countP (·.concerns p q) + h.dues p q + pool.dues p q ≤
      sc.hand.dues p q + sc.pool.dues p q) :
    ((sc.alter pool h).emit e).dues p q ≤ sc.dues p q := by
  rw [dues_emit, dues_alter, dues_eq, task]
  omega

theorem dues_act_le {c : Command} {pool : Pool} {h : Hand}
    (task : sc.hand = { task := some (some c) }) (acted : h.task = none)
    (covered : h.dues p q + pool.dues p q ≤
      c.requests.countP p + c.replies.countP q + sc.pool.dues p q) :
    (sc.alter pool h).dues p q ≤ sc.dues p q := by
  rw [dues_alter, dues_of_task task, acted]
  simp only [Option.join_none, Option.toList_none, List.countP_nil]
  omega

theorem dues_say {pool : Pool} {h : Hand} {e : Effect} {n : Nat} (idle : e.starts = [])
    (less : (sc.alter pool h).dues p q ≤ n) : ((sc.alter pool h).emit e).dues p q ≤ n := by
  rw [dues_emit, idle]
  exact less

/-- A command that is done with leaves at most its request in hand, and the callers who have still
to be answered. -/
theorem dues_done {c : Command} {pool : Pool} {h : Hand}
    (task : sc.hand = { task := some (some c) }) (acted : h.task = none)
    (unclosed : h.closer = none) (same : pool.dues p q = sc.pool.dues p q)
    (requests : h.requests.countP p ≤ c.requests.countP p)
    (replies : h.replies.countP q ≤ c.replies.countP q) :
    (sc.alter pool h).dues p q ≤ sc.dues p q := by
  apply dues_act_le task acted
  simp only [Hand.dues, unclosed, same, Option.toList_none, List.countP_nil]
  omega

/-- The request stands for its caller from here on. -/
theorem dues_acquire {k : Ticket} {n : Nat} (task : sc.hand = { task := some (some (.acquire k)) })
    (fresh : p { id := ⟨sc.pool.nextRequest⟩, ticket := k } = true → q k = true) :
    (sc.alter { sc.pool with nextRequest := n }
      { requests := [{ id := ⟨sc.pool.nextRequest⟩, ticket := k }], fresh := true }).dues p q ≤
        sc.dues p q := by
  have less := toNat_le fresh
  apply dues_act_le task rfl
  simp only [Hand.dues, Pool.dues, List.countP_nil, countP_cons_toNat, Command.requests,
    Command.replies, Option.toList_none]
  omega

theorem dues_shut {closer : Option Ticket} (task : sc.hand = { task := some (closer.map .close) }) :
    (sc.alter { sc.pool with closed := true, pending := { sc.pool.pending with requests := [] } }
      { requests := sc.pool.pending.requests, closer }).dues p q ≤ sc.dues p q := by
  cases closer with
  | none =>
    rw [dues_alter, dues_eq, task]
    simp only [Hand.dues, Pool.dues, Option.map_none, Option.join_none, Option.join_some,
      Option.toList_none, List.countP_nil]
    omega
  | some k =>
    apply dues_act_le task rfl
    simp only [Hand.dues, Pool.dues, Option.toList_some, List.countP_nil, Command.requests,
      Command.replies]
    omega

theorem dues_expire {id : RequestId} {r r' : Request} {pool : Pool}
    (task : sc.hand = { task := some (some (.timedOut id)) })
    (queued : sc.pool.pending.find? id = some r) (kept : p r' = true → p r = true)
    (queue : pool.pending = sc.pool.pending.replace id r')
    (waiters : pool.closeWaiters = sc.pool.closeWaiters) :
    (sc.alter pool {}).dues p q ≤ sc.dues p q := by
  have replaced := countP_replace queued r' p
  have less := toNat_le kept
  apply dues_act_le task rfl
  simp only [Hand.dues, Pool.dues, queue, waiters, List.countP_nil, Option.toList_none]
  omega

theorem starts_overflow (id : RequestId) :
    (Effect.connect (.queued id)).starts.countP (·.concerns p q) = 0 := by
  simp only [Effect.starts, countP_cons_toNat, toNat_concerns, Command.requests, Command.replies,
    Target.requests, List.countP_nil]

/-- The request in hand is answered, is dropped, or has its timer changed. -/
theorem dues_request {rs : List Request} {pool : Pool} {h : Hand} (task : h.task = sc.hand.task)
    (replies : h.replies = sc.hand.replies) (closer : h.closer = sc.hand.closer)
    (same : pool.dues p q = sc.pool.dues p q) (held : sc.hand.requests = rs)
    (fewer : h.requests.countP p ≤ rs.countP p) : (sc.alter pool h).dues p q ≤ sc.dues p q := by
  apply dues_alter_le task
  simp only [Hand.dues, held, replies, closer, same]
  omega

/-- What a request in hand is put to work for is told by the work. -/
theorem dues_connect {r : Request} {reg : Registry} (held : sc.hand.requests = [r]) :
    ((sc.withRegistry reg { sc.hand with requests := [] }).emit (.connect (.owned r))).dues p q ≤
      sc.dues p q := by
  refine dues_emit_le rfl ?_
  simp only [Hand.dues, Pool.dues, held, countP_cons_toNat, Effect.starts, toNat_concerns,
    Command.requests, Command.replies, Target.requests, List.countP_nil]
  omega

/-- Only an event adds to what is due, as long as the questions do not come to hold of a request
when its timer is stopped or started, when it is named, or when it expires. -/
theorem dues_move (move : Move sc sc')
    (stopped : ∀ r, p { r with timer := none } = true → p r = true)
    (started : ∀ r, p { r with timer := some ⟨r.id.number⟩ } = true → p r = true)
    (fresh : sc'.pool.nextRequest ≠ sc.pool.nextRequest →
      ∀ k, p { id := ⟨sc.pool.nextRequest⟩, ticket := k } = true → q k = true)
    (expired : ∀ r, p (sc.pool.config.expire r).2 = true → p r = true) :
    sc'.dues p q ≤ sc.dues p q ∨ ∃ later e, sc.site.allows later e = true ∧
      sc' = { sc with now := later, site := sc.site.happen e } := by
  have zero {n : Nat} : 0 ≤ n := Nat.zero_le n
  cases move with
  | event order allowed => exact .inr ⟨_, _, allowed, rfl⟩
  | wait order => exact .inl (Nat.le_refl _)
  | begin free due => exact .inl (Nat.le_of_eq (dues_begin free due _))
  | dismiss task moot => exact .inl (dues_done task rfl rfl rfl zero (Nat.le_refl _))
  | refuse task closed => exact .inl (dues_say rfl (dues_done task rfl rfl rfl zero zero))
  | acquire task opened quiet => exact .inl (dues_acquire task (fresh (Nat.succ_ne_self _) _))
  | stats task => exact .inl (dues_say rfl (dues_done task rfl rfl rfl zero zero))
  | shut task ends opened =>
    rw [ends] at task
    exact .inl (dues_shut task)
  | seize task back closed honest removed =>
    exact .inl (dues_say rfl (dues_done task rfl rfl rfl zero (Nat.le_refl _)))
  | takeBack task back opened lent =>
    exact .inl (dues_done task rfl rfl rfl zero (Nat.le_refl _))
  | connectDone task =>
    exact .inl (dues_say rfl (dues_done task rfl rfl rfl (Nat.le_refl _) zero))
  | connectFailed task => exact .inl (dues_done task rfl rfl rfl (Nat.le_refl _) zero)
  | verdict task checking => exact .inl (dues_done task rfl rfl rfl zero (Nat.le_refl _))
  | expire task queued lost => exact .inl (dues_expire task queued (expired _) rfl rfl)
  | @overflow id r r' task queued due reachable drained =>
    have kept := expired r
    rw [due] at kept
    rw [dues_emit, starts_overflow]
    exact .inl (dues_expire task queued kept rfl rfl)
  | forget task => exact .inl (dues_done task rfl rfl rfl zero zero)
  | check held replies reachable known checking =>
    refine .inl (dues_emit_le rfl ?_)
    simp only [Hand.dues, replies, List.countP_nil, Effect.starts, countP_cons_toNat,
      toNat_concerns, Command.requests, Command.replies]
    omega
  | pop free bare front =>
    refine .inl (dues_alter_le rfl ?_)
    simp only [Hand.dues, Pool.dues, bare, front, countP_cons_toNat, List.countP_nil]
    omega
  | @sift r gone held left =>
    have split := countP_prune sc.pool.pending gone p
    refine .inl (dues_alter_le rfl ?_)
    simp only [Hand.dues, Pool.dues, held, List.countP_append]
    omega
  | fetch free bare called found =>
    have taken := countP_remove? found p
    refine .inl (dues_alter_le rfl ?_)
    simp only [Hand.dues, Pool.dues, bare, countP_cons_toNat, List.countP_nil]
    omega
  | @disarm r rs timer held armed =>
    refine .inl (dues_say rfl (dues_request rfl rfl rfl rfl held ?_))
    rw [countP_cons_toNat, countP_cons_toNat]
    exact Nat.add_le_add_right (toNat_le (stopped r)) _
  | forsake held unarmed gone =>
    exact .inl (dues_request rfl rfl rfl rfl held ((List.sublist_cons_self _ _).countP_le))
  | fail held unarmed grounds overdue =>
    refine .inl (dues_say rfl (dues_request rfl rfl rfl rfl held ?_))
    exact (List.sublist_cons_self _ _).countP_le
  | lend held unarmed conn known lent present =>
    exact .inl (dues_say rfl (dues_request rfl rfl rfl rfl held zero))
  | connect held opened unarmed reachable drained room => exact .inl (dues_connect held)
  | @arm r timeout held unarmed limited =>
    refine .inl (dues_say rfl (dues_request rfl rfl rfl rfl held ?_))
    rw [countP_cons_toNat, countP_cons_toNat]
    exact Nat.add_le_add_right (toNat_le (started r)) _
  | enqueue held opened newest room =>
    refine .inl (dues_alter_le rfl ?_)
    simp only [Hand.dues, Pool.dues, held, countP_cons_toNat, Queue.push, List.countP_append,
      List.countP_nil]
    omega
  | answer owed plain =>
    refine .inl (dues_emit_le rfl ?_)
    simp only [Hand.dues, owed, countP_cons_toNat, Effect.starts, List.countP_nil]
    omega
  | await owed =>
    refine .inl (dues_alter_le rfl ?_)
    simp only [Hand.dues, Pool.dues, owed, countP_cons_toNat, List.countP_append, List.countP_nil,
      Option.toList_some, Option.toList_none]
    omega
  | report free closed complete =>
    refine .inl (dues_alter_le (by rw [free]) ?_)
    simp only [Hand.dues, Pool.dues, free, List.countP_nil]
    omega
  | _ => exact .inl (Nat.le_refl _)

/-- Requests come from nowhere but the commands that ask for them: no kind of them grows, unless it
is the one that is named. -/
theorem requests_move (numbered : sc.site.Numbered) (move : Move sc sc')
    (stopped : ∀ r, p { r with timer := none } = true → p r = true)
    (started : ∀ r, p { r with timer := some ⟨r.id.number⟩ } = true → p r = true)
    (fresh : sc'.pool.nextRequest ≠ sc.pool.nextRequest →
      ∀ k, p { id := ⟨sc.pool.nextRequest⟩, ticket := k } = false)
    (expired : ∀ r, p (sc.pool.config.expire r).2 = true → p r = true) :
    (sc'.dues p fun _ => false) ≤ sc.dues p fun _ => false := by
  have unfresh : sc'.pool.nextRequest ≠ sc.pool.nextRequest →
      ∀ k, p { id := ⟨sc.pool.nextRequest⟩, ticket := k } = true → (false : Bool) = true := by
    intro new k named
    rw [fresh new k] at named
    exact named
  rcases dues_move (q := fun _ => false) move stopped started unfresh expired with
    less | ⟨later, e, allowed, rfl⟩
  · exact less
  · have nothing : (sc.site.sends e).countP (·.concerns p fun _ => false) = 0 := by
      rw [List.countP_eq_zero]
      intro c member
      simp [Command.concerns, (Site.plain_of_sends member).1]
    have sent := dues_happen (p := p) (q := fun _ => false) numbered later e
    rw [nothing] at sent
    exact Nat.le_of_eq sent

end LoanPool
