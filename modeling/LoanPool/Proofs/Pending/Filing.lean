import Mathlib.Data.List.Nodup
import LoanPool.Pending.Session
import LoanPool.Proofs.Lineup

/-!
# Requests by name

The requests of a session, the callers that wait for them and the alarms of their timers are told
apart by names, as long as no name comes twice: each is numbered by the place of its name among all
that came. Every operation keeps to this, whatever it does to the queue.
-/
namespace LoanPool.Pending

def Op.pushes? : Op → Option RequestId
  | .push id => some id
  | _ => none

def pushed (ops : List Op) : List RequestId :=
  ops.filterMap Op.pushes?

namespace Session

def silence (s : Session) (rs : List Request) : Session :=
  { s with clock := s.clock.cancel fun t => rs.any fun r => r.timer = some t.1 }

variable {s s' : Session} {r : Request} {id : RequestId} {done : List Op} {op : Op}

/-! ### What the parts of an operation leave alone -/

theorem foldl_disarm (s : Session) (rs : List Request) : rs.foldl disarm s = s.silence rs := by
  induction rs generalizing s with
  | nil =>
    have all : s.clock.alarms.filter (fun _ => !false) = s.clock.alarms :=
      List.filter_eq_self.mpr fun _ _ => rfl
    simp only [List.foldl_nil, silence, Clock.cancel, List.any_nil, all]
  | cons r rest ih =>
    rw [List.foldl_cons, ih]
    simp only [silence, disarm, Clock.cancel, List.filter_filter, List.any_cons, Bool.not_or,
      Bool.and_comm]

theorem isGone_congr (same : s'.callers = s.callers) : s'.isGone = s.isGone := by
  funext k
  rw [isGone, isGone, same]

structure Aside (s s' : Session) : Prop where
  queue : s'.queue = s.queue
  callers : s'.callers = s.callers
  clock : s'.clock = s.clock
  letters : s'.letters.length = s.letters.length

theorem aside_setLetter (s : Session) (k : Ticket) (l : Letter) : Aside s (s.setLetter k l) :=
  ⟨rfl, rfl, rfl, List.length_set⟩

theorem aside_forget (s : Session) (r : Request) : Aside s (s.forget r) := by
  unfold forget
  split
  · exact aside_setLetter s _ _
  · exact ⟨rfl, rfl, rfl, rfl⟩

theorem aside_putAside (s : Session) (r : Request) : Aside s (s.putAside r) := by
  unfold putAside
  split
  · next old found =>
    obtain ⟨queue, callers, clock, letters⟩ := aside_forget s old
    exact ⟨queue, callers, clock, letters⟩
  · exact ⟨rfl, rfl, rfl, rfl⟩

theorem aside_putAll (s : Session) (rs : List Request) : Aside s (rs.foldl putAside s) := by
  induction rs generalizing s with
  | nil => exact ⟨rfl, rfl, rfl, rfl⟩
  | cons r rest ih =>
    obtain ⟨queue, callers, clock, letters⟩ := ih (s.putAside r)
    have first := aside_putAside s r
    exact ⟨queue.trans first.queue, callers.trans first.callers, clock.trans first.clock,
      letters.trans first.letters⟩

theorem held_putAside (s : Session) (r : Request) : (s.putAside r).held.getLast? = some r := by
  unfold putAside
  exact List.getLast?_concat

theorem leave_of_absent (absent : ∀ c ∈ s.callers, c.1 ≠ id) : s.leave id = (false, [], s) := by
  have unknown : s.callers.lookup id = none := by
    apply List.lookup_eq_none_iff.mpr
    intro c member
    exact bne_iff_ne.mpr (Ne.symm (absent c member))
  rw [leave, unknown]

theorem session_leave (s : Session) (id : RequestId) :
    (s.leave id).2.2 = { s with callers := s.callers.filter (·.1 ≠ id) } := by
  cases known : s.callers.lookup id with
  | none =>
    have absent : ∀ c ∈ s.callers, c.1 ≠ id := by
      intro c member same
      have other := List.lookup_eq_none_iff.mp known c member
      exact bne_iff_ne.mp other same.symm
    have all : s.callers.filter (·.1 ≠ id) = s.callers :=
      List.filter_eq_self.mpr fun c member => decide_eq_true (absent c member)
    rw [leave_of_absent absent, all]
  | some k => rw [leave, known]

/-! ### Names, tickets and timers -/

/-- A number was given out together with a name: it is the place of the name among all of them. -/
def Bears (names : List RequestId) (id : RequestId) (number : Nat) : Prop :=
  id ∈ names ∧ number = names.idxOf id

theorem bears_concat {names : List RequestId} {number : Nat} (bears : Bears names id number)
    (new : RequestId) : Bears (names ++ [new]) id number := by
  obtain ⟨known, place⟩ := bears
  refine ⟨List.mem_append_left _ known, ?_⟩
  rw [List.idxOf_append_of_mem known]
  exact place

theorem bears_last {names : List RequestId} (fresh : id ∉ names) :
    Bears (names ++ [id]) id names.length := by
  refine ⟨List.mem_concat_self, ?_⟩
  rw [List.idxOf_append_of_notMem fresh, List.idxOf_cons_self, Nat.add_zero]

theorem Bears.eq {names : List RequestId} {id' : RequestId} {number : Nat}
    (bears : Bears names id number) (other : Bears names id' number) : id = id' := by
  apply (List.idxOf_inj bears.1).mp
  rw [← bears.2, ← other.2]

/-- The requests, their callers and their timers are numbered as they come, no two requests in the
queue have the same name, and an alarm that bears the name of one of them is that of its timer. -/
structure Filed (done : List Op) (s : Session) : Prop where
  letters : s.letters.length = (pushed done).length
  tickets : ∀ r ∈ s.queue.requests, Bears (pushed done) r.id r.ticket.number
  timers : ∀ r ∈ s.queue.requests, ∀ t ∈ r.timer, Bears (pushed done) r.id t.number
  callers : ∀ c ∈ s.callers, Bears (pushed done) c.1 c.2.number
  alarms : ∀ a ∈ s.clock.alarms, Bears (pushed done) a.what.2 a.what.1.number
  distinct : (s.queue.requests.map (·.id)).Nodup
  running : ∀ a ∈ s.clock.alarms, ∀ r ∈ s.queue.requests, a.what.2 = r.id →
    .expire r.id ∉ done → r.timer = some a.what.1

theorem filed_start (config : Config) (limit : Nat) : Filed [] (start config limit) where
  letters := rfl
  tickets _ member := absurd member List.not_mem_nil
  timers _ member := absurd member List.not_mem_nil
  callers _ member := absurd member List.not_mem_nil
  alarms _ member := absurd member List.not_mem_nil
  distinct := List.nodup_nil
  running _ member := absurd member List.not_mem_nil

theorem isGone_of_filed (filed : Filed done s) (queued : r ∈ s.queue.requests) :
    s.isGone r.ticket = !s.callers.any fun c => c.1 = r.id := by
  have ticket := filed.tickets r queued
  rw [isGone, Bool.not_inj_iff, Bool.eq_iff_iff, List.any_eq_true, List.any_eq_true]
  apply exists_congr
  intro c
  apply and_congr_right
  intro member
  have own := filed.callers c member
  rw [decide_eq_true_eq, decide_eq_true_eq]
  constructor
  · intro same
    rw [same] at own
    exact own.eq ticket
  · intro same
    have number : c.2.number = r.ticket.number := by rw [own.2, ticket.2, same]
    exact congrArg Ticket.mk number

theorem pushed_concat (done : List Op) (op : Op) :
    pushed (done ++ [op]) = pushed done ++ op.pushes?.toList := by
  rw [pushed, pushed, List.filterMap_append]
  cases h : op.pushes? with
  | none =>
    rw [List.filterMap_cons_none h]
    rfl
  | some id =>
    rw [List.filterMap_cons_some h]
    rfl

theorem pushed_of_none (none_new : op.pushes? = none) : pushed (done ++ [op]) = pushed done := by
  rw [pushed_concat, none_new]
  exact List.append_nil _

theorem not_expired (later : .expire id ∉ done ++ [op]) : .expire id ∉ done :=
  fun before => later (List.mem_append_left _ before)

/-- What only takes away leaves the rest as it was. -/
theorem filed_of_less (filed : Filed done s) (none_new : op.pushes? = none)
    (requests : s'.queue.requests.Sublist s.queue.requests) (callers : s'.callers ⊆ s.callers)
    (alarms : s'.clock.alarms ⊆ s.clock.alarms) (letters : s'.letters.length = s.letters.length) :
    Filed (done ++ [op]) s' := by
  have names : pushed (done ++ [op]) = pushed done := pushed_of_none none_new
  refine ⟨?_, ?_, ?_, ?_, ?_, ?_, ?_⟩
  · rw [letters, names]
    exact filed.letters
  · rw [names]
    exact fun r queued => filed.tickets r (requests.subset queued)
  · rw [names]
    exact fun r queued => filed.timers r (requests.subset queued)
  · rw [names]
    exact fun c member => filed.callers c (callers member)
  · rw [names]
    exact fun a member => filed.alarms a (alarms member)
  · exact filed.distinct.sublist (requests.map _)
  · intro a member r queued same early
    exact filed.running a (alarms member) r (requests.subset queued) same (not_expired early)

/-! ### A request that comes -/

structure Arrives (s : Session) (r : Request) (s' : Session) : Prop where
  queue : s'.queue = s.queue.push r
  ticket : r.ticket = ⟨s.letters.length⟩
  timer : ∀ t ∈ r.timer, t = ⟨s.letters.length⟩
  callers : s'.callers = s.callers ++ [(r.id, r.ticket)]
  letters : s'.letters.length = s.letters.length + 1
  alarms : ∀ a ∈ s'.clock.alarms, a ∈ s.clock.alarms ∨ r.timer = some a.what.1 ∧ a.what.2 = r.id

theorem absent_of_fresh (filed : Filed done s) (fresh : id ∉ pushed done) :
    ∀ c ∈ s.callers, c.1 ≠ id := by
  rintro c member rfl
  exact fresh (filed.callers c member).1

theorem arrives_push (absent : ∀ c ∈ s.callers, c.1 ≠ id) :
    ∃ r, r.id = id ∧ Arrives s r (s.push id).2 := by
  simp only [push, leave_of_absent absent]
  cases s.config.acquireTimeout with
  | none =>
    refine ⟨{ id, ticket := ⟨s.letters.length⟩ }, rfl, rfl, rfl, ?_, rfl, List.length_append, ?_⟩
    · intro t none_set
      cases none_set
    · intro a before
      exact .inl before
  | some after =>
    refine ⟨{ id, ticket := ⟨s.letters.length⟩, timer := some ⟨s.letters.length⟩ }, rfl, rfl, rfl,
      ?_, rfl, List.length_append, ?_⟩
    · rintro t ⟨rfl⟩
      rfl
    · intro a member
      rcases List.mem_append.mp member with before | new
      · exact .inl before
      · rw [List.mem_singleton] at new
        rw [new]
        exact .inr ⟨rfl, rfl⟩

/-- The names that came before keep their places, and the new one has the next. -/
theorem filed_of_arrives (filed : Filed done s) (fresh : r.id ∉ pushed done)
    (arrives : Arrives s r s') : Filed (done ++ [.push r.id]) s' := by
  have names : pushed (done ++ [.push r.id]) = pushed done ++ [r.id] := pushed_concat done _
  have requests : s'.queue.requests = s.queue.requests ++ [r] := by
    rw [arrives.queue]
    rfl
  have last : Bears (pushed done ++ [r.id]) r.id s.letters.length := by
    rw [filed.letters]
    exact bears_last fresh
  have unlike : ∀ r' ∈ s.queue.requests, r'.id ≠ r.id := by
    intro r' queued same
    exact fresh (same ▸ (filed.tickets r' queued).1)
  refine ⟨?_, ?_, ?_, ?_, ?_, ?_, ?_⟩
  · rw [arrives.letters, names, filed.letters, List.length_append]
    rfl
  · rw [names, requests, List.forall_mem_append, List.forall_mem_singleton, arrives.ticket]
    exact ⟨fun r' queued => bears_concat (filed.tickets r' queued) _, last⟩
  · rw [names, requests, List.forall_mem_append, List.forall_mem_singleton]
    refine ⟨fun r' queued t set => bears_concat (filed.timers r' queued t set) _, fun t set => ?_⟩
    rw [arrives.timer t set]
    exact last
  · rw [names, arrives.callers, List.forall_mem_append, List.forall_mem_singleton, arrives.ticket]
    exact ⟨fun c member => bears_concat (filed.callers c member) _, last⟩
  · rw [names]
    intro a member
    rcases arrives.alarms a member with before | ⟨set, named⟩
    · exact bears_concat (filed.alarms a before) _
    · rw [named, arrives.timer _ set]
      exact last
  · rw [requests, List.map_append, List.nodup_append]
    refine ⟨filed.distinct, List.nodup_singleton _, ?_⟩
    intro i before j behind
    obtain ⟨r', queued, rfl⟩ := List.mem_map.mp before
    rw [List.mem_singleton.mp behind]
    exact unlike r' queued
  · intro a member r' queued same early
    rw [requests, List.mem_append, List.mem_singleton] at queued
    rcases arrives.alarms a member with before | ⟨set, named⟩
    · rcases queued with queued | rfl
      · exact filed.running a before r' queued same (not_expired early)
      · exact absurd (same ▸ (filed.alarms a before).1) fresh
    · rcases queued with queued | rfl
      · exact absurd (same.symm.trans named) (unlike r' queued)
      · exact set

/-! ### A request that changes -/

/-- A queued request changes in its place. If its timer is lost, there is no alarm for it any more,
unless its deadline was dealt with. -/
theorem filed_of_changed {changed : Request} (filed : Filed done s) (none_new : op.pushes? = none)
    (queued : s.queue.find? id = some r) (key : changed.key = r.key)
    (timer : changed.timer = r.timer ∨ changed.timer = none ∧
      ∀ a ∈ s'.clock.alarms, a.what.2 = id → .expire id ∈ done ++ [op])
    (queue : s'.queue = s.queue.replace id changed) (callers : s'.callers = s.callers)
    (alarms : s'.clock.alarms ⊆ s.clock.alarms) (letters : s'.letters.length = s.letters.length) :
    Filed (done ++ [op]) s' := by
  have names : pushed (done ++ [op]) = pushed done := pushed_of_none none_new
  obtain ⟨member, named⟩ := Queue.mem_of_find? queued
  obtain ⟨name, ticket⟩ : changed.id = r.id ∧ changed.ticket = r.ticket := Prod.mk.inj key
  have among : ∀ r' ∈ s'.queue.requests, r' ∈ s.queue.requests ∨ r' = changed := by
    rw [queue]
    exact fun r' here => List.mem_or_eq_of_mem_set here
  refine ⟨?_, ?_, ?_, ?_, ?_, ?_, ?_⟩
  · rw [letters, names]
    exact filed.letters
  · rw [names]
    intro r' here
    rcases among r' here with before | rfl
    · exact filed.tickets r' before
    · rw [name, ticket]
      exact filed.tickets r member
  · rw [names]
    intro r' here t set
    rcases among r' here with before | rfl
    · exact filed.timers r' before t set
    · rcases timer with same | ⟨lost, -⟩
      · rw [name]
        exact filed.timers r member t (same ▸ set)
      · rw [lost] at set
        cases set
  · rw [names, callers]
    exact filed.callers
  · rw [names]
    exact fun a before => filed.alarms a (alarms before)
  · have ids : (s.queue.replace id changed).requests.map (·.id) = s.queue.requests.map (·.id) :=
      map_set queued changed _ name
    rw [queue, ids]
    exact filed.distinct
  · intro a before r' here same early
    rcases among r' here with old | rfl
    · exact filed.running a (alarms before) r' old same (not_expired early)
    · rw [name] at same early
      rcases timer with kept | ⟨-, late⟩
      · rw [kept]
        exact filed.running a (alarms before) r member same (not_expired early)
      · rw [named] at same early
        exact absurd (late a before same) early

/-! ### What the operations do -/

inductive Popping (s : Session) : Report × Session → Prop where
  | found {gone rest : List Request} {r : Request}
      (split : s.queue.requests = gone ++ r :: rest) (left : ∀ r ∈ gone, s.isGone r.ticket = true)
      (waits : s.isGone r.ticket = false) :
      Popping s ({ answer := .request r.id },
        { s.silence gone with queue := { s.queue with requests := rest } }.putAside r)
  | nobody (left : ∀ r ∈ s.queue.requests, s.isGone r.ticket = true) :
      Popping s ({ answer := .nothing },
        { s.silence s.queue.requests with queue := { s.queue with requests := [] } })

theorem pop_popping (s : Session) : Popping s s.pop := by
  have split : s.queue.stale s.isGone ++ s.queue.requests.dropWhile (fun r => s.isGone r.ticket) =
      s.queue.requests := List.takeWhile_append_dropWhile
  have left : ∀ r ∈ s.queue.stale s.isGone, s.isGone r.ticket = true :=
    List.all_eq_true.mp List.all_takeWhile
  have first := List.head_dropWhile_not (fun r : Request => s.isGone r.ticket)
    (l := s.queue.requests)
  simp only [pop, Queue.popLive?, foldl_disarm]
  cases next : s.queue.requests.dropWhile fun r => s.isGone r.ticket with
  | nil =>
    rw [next, List.append_nil] at split
    rw [split] at left ⊢
    exact .nobody left
  | cons r rest =>
    simp only [next] at split first
    exact .found split.symm left (first (List.cons_ne_nil _ _))

theorem prune_eq (s : Session) : s.prune =
    { s.silence (s.queue.abandoned s.isGone) with queue := s.queue.prune s.isGone } := by
  rw [prune, foldl_disarm]
  rfl

theorem aside_settle {f : Request → Session → Report × Session}
    (aside : ∀ r s, Aside s (f r s).2) (s : Session) (id : RequestId) :
    (s.settle id f).2.queue = s.queue ∧ (s.settle id f).2.callers = s.callers ∧
      (s.settle id f).2.clock.alarms ⊆ s.clock.alarms ∧
      (s.settle id f).2.letters.length = s.letters.length := by
  rw [settle, takeHeld?]
  cases s.held.find? (·.id = id) with
  | none => exact ⟨rfl, rfl, List.Subset.refl _, rfl⟩
  | some r =>
    obtain ⟨queue, callers, clock, letters⟩ :=
      aside r ({ s with held := s.held.filter (·.id ≠ id) }.disarm r)
    refine ⟨queue, callers, ?_, letters⟩
    have fewer : ({ s with held := s.held.filter (·.id ≠ id) }.disarm r).clock.alarms ⊆
        s.clock.alarms := List.filter_sublist.subset
    exact clock ▸ fewer

end Session
end LoanPool.Pending
