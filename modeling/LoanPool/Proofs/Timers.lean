import LoanPool.Proofs.Precedence

/-!
# Deadline timers

The timer of a request is started when the request is put in line, and never again. From then on
the deadline is set, or its passing is on the way to the pool, or the pool has heard of it: one of
these at most. A deadline that is set is that of a request which is still queued, or which the pool
is just taking out of the queue.
-/
namespace LoanPool
open Pending (Request Queue)

def Command.expired? : Command → Option RequestId
  | .timedOut id => some id
  | _ => none

def Effect.armed? : Effect → Option RequestId
  | .arm _ id _ => some id
  | _ => none

namespace Site

def armings (past : List Record) (id : RequestId) : Nat :=
  past.countP fun rec => rec.effect.bind Effect.armed? = some id

def Record.expired? (rec : Record) : Option RequestId :=
  match rec.effect with
  | none => rec.command.bind Command.expired?
  | some _ => none

def expiries (past : List Record) (id : RequestId) : Nat :=
  past.countP fun rec => rec.expired? = some id

/-- The deadlines of a request that are set, or have passed without the pool having heard of it. -/
def alarms (s : Site) (id : RequestId) : Nat :=
  s.deadlines.countP (fun d => d.request = id) +
    s.underWay.countP fun c => c.expired? = some id

variable {s : Site} {id : RequestId} {now : Nat}

/-! ### What events and effects do to deadlines -/

theorem blind_expired (id : RequestId) : Command.Blind fun c => c.expired? = some id :=
  ⟨fun _ _ => rfl, fun _ _ _ => rfl⟩

theorem deadlines_report (c : Command) : (s.report c).deadlines = s.deadlines := by
  simp only [report]
  split <;> rfl

theorem deadlines_happen (e : Event) : (s.happen e).deadlines.Sublist s.deadlines := by
  cases e with
  | release k reply =>
    simp only [happen, release]
    split <;> exact List.Sublist.refl _
  | read k =>
    simp only [happen, read]
    split <;> exact List.Sublist.refl _
  | abandon k =>
    simp only [happen, abandon]
    split
    · exact List.Sublist.refl _
    · rw [deadlines_report]
      exact List.Sublist.refl _
    · exact List.Sublist.refl _
    · exact List.Sublist.refl _
  | dropLoan k =>
    simp only [happen, dropLoan]
    split
    · rw [deadlines_report]
      exact List.Sublist.refl _
    · exact List.Sublist.refl _
  | connected job result =>
    simp only [happen, finishConnect]
    split
    · exact List.Sublist.refl _
    · split <;> exact List.Sublist.refl _
  | checked job healthy =>
    simp only [happen, finishCheck]
    split <;> exact List.Sublist.refl _
  | deadline timer =>
    simp only [happen, passDeadline]
    split
    · exact List.Sublist.refl _
    · rw [deadlines_report]
      exact List.filter_sublist
  | notice id =>
    have same : (s.noticeClose id).deadlines = s.deadlines := deadlines_report _
    exact same ▸ List.Sublist.refl _
  | _ => exact List.Sublist.refl _

/-- What is sent from outside tells of a deadline only if that has passed. -/
theorem expired_of_sends {e : Event} {c : Command} (sent : c ∈ s.sends e)
    (expired : c.expired? = some id) :
    ∃ timer d, e = .deadline timer ∧ s.deadlines.find? (·.timer = timer) = some d ∧
      d.request = id := by
  have lone : ∀ {only : Command}, c ∈ [only] → only.expired? = some id := by
    intro only sent
    rw [← List.mem_singleton.mp sent]
    exact expired
  cases e with
  | deadline timer =>
    simp only [sends] at sent
    split at sent
    · next d found =>
      split at sent
      · exact ⟨timer, d, rfl, found, Option.some.inj (lone sent)⟩
      · cases sent
    · cases sent
  | release k reply =>
    simp only [sends] at sent
    split at sent
    · cases lone sent
    · cases sent
  | abandon k =>
    simp only [sends] at sent
    split at sent
    · split at sent
      · cases lone sent
      · cases sent
    · cases sent
  | dropLoan k =>
    simp only [sends] at sent
    split at sent
    · split at sent
      · cases lone sent
      · cases sent
    · cases sent
  | notice id =>
    simp only [sends] at sent
    split at sent
    · cases lone sent
    · cases sent
  | acquire k => cases lone sent
  | close k => cases lone sent
  | stats k => cases lone sent
  | _ => cases sent

theorem alarms_happen (numbered : s.Numbered) (e : Event) (id : RequestId) :
    (s.happen e).alarms id ≤ s.alarms id := by
  have set : (s.happen e).deadlines.countP (fun d => d.request = id) ≤
      s.deadlines.countP fun d => d.request = id := (deadlines_happen e).countP_le
  rw [alarms, alarms, countP_underWay_happen numbered (blind_expired id)]
  by_cases silent : (s.sends e).countP (fun c => c.expired? = some id) = 0
  · omega
  · obtain ⟨c, sent, expired⟩ := List.countP_pos_iff.mp (Nat.pos_of_ne_zero silent)
    obtain ⟨timer, d, rfl, found, request⟩ := expired_of_sends sent (by simpa using expired)
    have one : (s.sends (.deadline timer)).countP (fun c => c.expired? = some id) ≤ 1 := by
      refine Nat.le_trans List.countP_le_length ?_
      simp only [sends, found]
      split <;> simp
    have removed : (s.happen (.deadline timer)).deadlines =
        s.deadlines.filter (·.timer ≠ timer) := by
      simp only [happen, passDeadline, found]
      exact deadlines_report _
    have gone : 0 < (s.deadlines.filter fun d => ¬d.timer ≠ timer).countP
        fun d => d.request = id := by
      have named : d.timer = timer := by simpa using List.find?_some found
      apply List.countP_pos_iff.mpr
      refine ⟨d, List.mem_filter.mpr ⟨List.mem_of_find?_eq_some found, ?_⟩, by simpa using request⟩
      simpa using named
    have split := List.countP_eq_countP_filter_add s.deadlines (fun d => d.request = id)
      fun d => d.timer ≠ timer
    rw [removed]
    simp only [decide_not] at split gone ⊢
    omega

theorem deadlines_enact (now : Nat) (e : Effect) {d : Deadline}
    (member : d ∈ (s.enact now e).deadlines) :
    d ∈ s.deadlines ∧ e ≠ .disarm d.timer ∨
      ∃ timer id after, e = .arm timer id after ∧ d = ⟨timer, id, now + after.toMillis⟩ := by
  cases e with
  | arm timer id after =>
    rcases List.mem_append.mp member with before | new
    · exact .inl ⟨before, by simp⟩
    · exact .inr ⟨timer, id, after, rfl, List.mem_singleton.mp new⟩
  | disarm timer =>
    obtain ⟨before, other⟩ := List.mem_filter.mp member
    refine .inl ⟨before, ?_⟩
    rintro same
    cases same
    simp at other
  | answer k outcome =>
    simp only [enact] at member
    split at member <;> exact .inl ⟨member, by simp⟩
  | _ => exact .inl ⟨member, by simp⟩

theorem alarms_enact (now : Nat) (e : Effect) (id : RequestId) :
    (s.enact now e).alarms id ≤ s.alarms id + (decide (e.armed? = some id)).toNat := by
  have silent : e.starts.countP (fun c => c.expired? = some id) = 0 := by
    cases e <;> rfl
  rw [alarms, alarms, countP_underWay_enact, silent]
  cases e with
  | arm timer id' after =>
    simp only [enact, List.countP_append, List.countP_singleton, Effect.armed?, Option.some.injEq]
    split
    · simp_all
      omega
    · simp_all
  | disarm timer =>
    have fewer : (s.deadlines.filter (·.timer ≠ timer)).countP (fun d => d.request = id) ≤
        s.deadlines.countP fun d => d.request = id := List.filter_sublist.countP_le
    simp only [enact]
    omega
  | answer k outcome =>
    simp only [enact]
    split
    · exact Nat.le_add_right _ _
    · exact Nat.le_add_right _ _
  | _ => exact Nat.le_add_right _ _

theorem alarms_next? {c : Option Command} {rest : Site} (due : s.next? = some (c, rest))
    (id : RequestId) :
    s.alarms id = rest.alarms id + (decide (c.bind Command.expired? = some id)).toNat := by
  have deadlines : rest.deadlines = s.deadlines := by cases next_of_due due <;> rfl
  rw [alarms, alarms, underWay_next? due, deadlines, List.countP_append]
  cases c with
  | none => simp
  | some c =>
    rw [Option.toList_some, countP_cons_toNat, List.countP_nil]
    simp only [Option.bind_some]
    omega

end Site

variable {sc sc' : Scene} {r : Request} {id : RequestId}

/-! ### The record -/

theorem armings_concat (past : List Site.Record) (rec : Site.Record) (id : RequestId) :
    Site.armings (past ++ [rec]) id = Site.armings past id +
      (decide (rec.effect.bind Effect.armed? = some id)).toNat := by
  rw [Site.armings, List.countP_append, countP_cons_toNat, List.countP_nil]
  rfl

theorem expiries_concat (past : List Site.Record) (rec : Site.Record) (id : RequestId) :
    Site.expiries (past ++ [rec]) id =
      Site.expiries past id + (decide (rec.expired? = some id)).toNat := by
  rw [Site.expiries, List.countP_append, countP_cons_toNat, List.countP_nil]
  rfl

theorem armings_emit (p : Pool) (h : Hand) (e : Effect) (id : RequestId) :
    Site.armings ((sc.alter p h).emit e).past id =
      Site.armings sc.past id + (decide (e.armed? = some id)).toNat :=
  armings_concat _ _ _

inductive Passage (sc : Scene) : Scene → Prop where
  | event {later : Nat} {e : Site.Event} (order : sc.now ≤ later)
      (allowed : sc.site.allows later e = true) :
      Passage sc { sc with now := later, site := sc.site.happen e }
  | silent {sc' : Scene} {p : Pool} (order : sc.now ≤ sc'.now)
      (site : sc'.site = sc.site.withPool p) (past : sc'.past = sc.past)
      (memory : sc'.memory = sc.memory) : Passage sc sc'
  | begin {c : Option Command} {rest : Site} (free : sc.hand = {})
      (due : sc.site.next? = some (c, rest)) :
      Passage sc
        { sc with
          site := rest
          hand := { task := some c }
          memory := sc.memory.begin c sc.site
          past := sc.past ++ [{ now := sc.now, command := c, pool := sc.pool }] }
  | effect (p : Pool) (h : Hand) (e : Effect) : Passage sc ((sc.alter p h).emit e)

theorem passage_move (move : Move sc sc') : Passage sc sc' := by
  cases move with
  | event order allowed => exact .event order allowed
  | wait order => exact .silent (p := sc.pool) order rfl rfl rfl
  | begin free due => exact .begin free due
  | _ => first | exact .silent (Nat.le_refl _) rfl rfl rfl | exact .effect _ _ _

inductive Arming (sc : Scene) : Hand → TimerId → RequestId → Duration → Prop where
  | intro {r : Request} {timeout : Duration} (held : sc.hand.requests = [r])
      (limited : sc.pool.config.acquireTimeout = some timeout)
      (newest : r.id.number + 1 = sc.pool.nextRequest) (fresh : sc.hand.fresh = true) :
      Arming sc
        { sc.hand with requests := [{ r with timer := some ⟨r.id.number⟩ }], fresh := false }
        ⟨r.id.number⟩ r.id timeout

theorem arming_move {p : Pool} {h : Hand} {timer : TimerId} {after : Duration}
    (move : Move sc sc') (eq : sc' = (sc.alter p h).emit (.arm timer id after)) :
    p = sc.pool ∧ Arming sc h timer id after := by
  cases move with
  | arm held unarmed limited newest fresh =>
    obtain ⟨rfl, rfl, same⟩ := emit_inj eq
    cases same
    exact ⟨rfl, .intro held limited newest fresh⟩
  | begin free due => exact absurd eq (ne_emit_begin rfl rfl)
  | _ => first | exact absurd eq (ne_emit rfl) | cases (emit_inj eq).2.2

inductive Winding (sc : Scene) : Scene → Prop where
  | still {sc' : Scene} (same : ∀ id, Site.armings sc'.past id = Site.armings sc.past id)
      (newer : sc'.hand.fresh.toNat + sc.pool.nextRequest ≤
        sc.hand.fresh.toNat + sc'.pool.nextRequest) : Winding sc sc'
  | armed {h : Hand} {timer : TimerId} {id : RequestId} {after : Duration}
      (arming : Arming sc h timer id after) :
      Winding sc ((sc.alter sc.pool h).emit (.arm timer id after))

theorem winding_move (move : Move sc sc') : Winding sc sc' := by
  have quiet : ∀ (p : Pool) (h : Hand) {e : Effect}, e.armed? = none → ∀ id,
      Site.armings ((sc.alter p h).emit e).past id = Site.armings sc.past id := by
    intro p h e other id
    rw [armings_emit, other]
    rfl
  cases move with
  | arm held unarmed limited newest fresh => exact .armed (.intro held limited newest fresh)
  | begin free due =>
    refine .still (fun id => (armings_concat _ _ id).trans rfl) ?_
    simp [free, Scene.pool, Site.pool_next? due]
  | event order allowed => exact .still (fun _ => rfl) (by simp [Scene.pool])
  | wait order => exact .still (fun _ => rfl) (Nat.le_refl _)
  | acquire task opened quiet =>
    refine .still (fun _ => rfl) ?_
    simp only [Scene.hand_alter, Scene.pool_alter, task, Bool.toNat_true, Bool.toNat_false]
    omega
  | settle fresh => exact .still (fun _ => rfl) (by simp)
  | enqueue held opened newest room => exact .still (fun _ => rfl) (by simp)
  | report free closed complete => exact .still (fun _ => rfl) (by simp)
  | _ =>
    first
    | exact .still (fun _ => rfl) (by simp_all)
    | exact .still (quiet _ _ rfl) (by simp_all)

/-! ### The invariant -/

def Scene.requests (sc : Scene) : List Request :=
  sc.hand.requests ++ sc.pool.pending.requests

structure Scene.Wound (sc : Scene) : Prop where
  once : ∀ id, sc.site.alarms id + Site.expiries sc.past id ≤ Site.armings sc.past id
  single : ∀ id, Site.armings sc.past id ≤ 1
  older : ∀ id, 0 < Site.armings sc.past id →
    id.number + sc.hand.fresh.toNat < sc.pool.nextRequest
  begun : ∀ c, sc.hand.task = some c →
    ∃ rec, sc.past.getLast? = some rec ∧ rec.effect = none ∧ rec.command = c
  fresh : sc.hand.fresh = true → ∃ k, sc.command = some (.acquire k)
  named : ∀ d ∈ sc.site.deadlines, d.timer = ⟨d.request.number⟩
  kept : ∀ d ∈ sc.site.deadlines,
    ∃ r ∈ sc.requests, r.id = d.request ∧ r.timer = some d.timer

theorem unwound_of_arming (wound : sc.Wound) {h : Hand} {timer : TimerId} {after : Duration}
    (arming : Arming sc h timer id after) : Site.armings sc.past id = 0 := by
  cases arming with
  | intro held limited newest fresh =>
    by_contra before
    have older := wound.older _ (Nat.pos_of_ne_zero before)
    rw [fresh, Bool.toNat_true] at older
    omega

/-- A deadline that the pool has heard of is set no longer. -/
theorem alarms_of_expired (wound : sc.Wound) (task : sc.hand.task = some (some (.timedOut id))) :
    sc.site.alarms id = 0 := by
  obtain ⟨rec, last, effect, command⟩ := wound.begun _ task
  have heard : 0 < Site.expiries sc.past id := by
    apply List.countP_pos_iff.mpr
    refine ⟨rec, List.mem_of_getLast? last, ?_⟩
    simp [Site.Record.expired?, effect, command, Command.expired?]
  have once := wound.once id
  have single := wound.single id
  omega

theorem alarms_of_deadline {d : Deadline} (member : d ∈ sc.site.deadlines) :
    0 < sc.site.alarms d.request := by
  have counted : 0 < sc.site.deadlines.countP fun d' => d'.request = d.request :=
    List.countP_pos_iff.mpr ⟨d, member, by simp⟩
  rw [Site.alarms]
  omega

theorem older_move (wound : sc.Wound) (move : Move sc sc') (id : RequestId)
    (armed : 0 < Site.armings sc'.past id) :
    id.number + sc'.hand.fresh.toNat < sc'.pool.nextRequest := by
  cases winding_move move with
  | still same newer =>
    rw [same] at armed
    have older := wound.older id armed
    omega
  | @armed h timer id' after arming =>
    rw [armings_emit] at armed
    cases arming with
    | @intro r _ held limited newest fresh =>
      simp only [Scene.pool_emit, Scene.pool_alter, Scene.hand_emit, Scene.hand_alter,
        Bool.toNat_false]
      by_cases mine : r.id = id
      · rw [← mine]
        omega
      · have older := wound.older id (by simpa [Effect.armed?, mine] using armed)
        omega

theorem single_wound_move (wound : sc.Wound) (move : Move sc sc') (id : RequestId) :
    Site.armings sc'.past id ≤ 1 := by
  have single := wound.single id
  cases winding_move move with
  | still same newer =>
    rw [same]
    exact single
  | @armed h timer id' after arming =>
    rw [armings_emit]
    by_cases mine : id' = id
    · subst mine
      rw [unwound_of_arming wound arming]
      simp [Effect.armed?]
    · simpa [Effect.armed?, mine] using single

theorem once_wound_move (a : sc.Accounted) (wound : sc.Wound) (move : Move sc sc')
    (id : RequestId) :
    sc'.site.alarms id + Site.expiries sc'.past id ≤ Site.armings sc'.past id := by
  have once := wound.once id
  cases passage_move move with
  | @event later e order allowed =>
    have fewer := Site.alarms_happen a.numbered e id
    exact Nat.le_trans (Nat.add_le_add_right fewer _) once
  | silent order site past memory =>
    rw [site, past]
    exact once
  | @begin c rest free due =>
    have begun := Site.alarms_next? due id
    have heard : Site.expiries (sc.past ++ [{ now := sc.now, command := c, pool := sc.pool }]) id =
        Site.expiries sc.past id + (decide (c.bind Command.expired? = some id)).toNat :=
      expiries_concat _ _ _
    rw [heard, armings_concat]
    dsimp only
    omega
  | effect p h e =>
    have more : ((sc.alter p h).emit e).site.alarms id ≤ sc.site.alarms id + _ :=
      Site.alarms_enact (s := sc.site.withPool p) sc.now e id
    have unheard : Site.expiries ((sc.alter p h).emit e).past id = Site.expiries sc.past id :=
      expiries_concat _ _ _
    rw [unheard, armings_emit]
    omega

theorem begun_wound_move (poised : sc.Poised) (wound : sc.Wound) (move : Move sc sc')
    (c : Option Command) (task : sc'.hand.task = some c) :
    ∃ rec, sc'.past.getLast? = some rec ∧ rec.effect = none ∧ rec.command = c := by
  cases move with
  | begin free due =>
    cases task
    exact ⟨_, List.getLast?_concat, rfl, rfl⟩
  | event order allowed => exact wound.begun c task
  | wait order => exact wound.begun c task
  | _ =>
    first
    | cases task
    | exact wound.begun c task
    | (have only := (poised c task).1
       simp_all)

theorem fresh_wound_move (poised : sc.Poised) (wound : sc.Wound) (move : Move sc sc')
    (fresh : sc'.hand.fresh = true) : ∃ k, sc'.command = some (.acquire k) := by
  cases move with
  | @acquire k task opened quiet =>
    exact ⟨k, (poised _ (congrArg Hand.task task)).2.1⟩
  | _ => first | exact wound.fresh fresh | cases fresh

/-- A deadline that is set was set before, and not stopped just now; or it is new. -/
theorem deadline_move (move : Move sc sc') {d : Deadline} (member : d ∈ sc'.site.deadlines) :
    d ∈ sc.site.deadlines ∧ (∀ p h, sc' ≠ (sc.alter p h).emit (.disarm d.timer)) ∨
      ∃ p h timer id after, sc' = (sc.alter p h).emit (.arm timer id after) ∧
        d = ⟨timer, id, sc.now + after.toMillis⟩ := by
  cases passage_move move with
  | event order allowed =>
    exact .inl ⟨(Site.deadlines_happen _).subset member, fun p h => ne_emit rfl⟩
  | silent order site past memory =>
    rw [site] at member
    exact .inl ⟨member, fun p h => ne_emit past⟩
  | @begin c rest free due =>
    have same : rest.deadlines = sc.site.deadlines := by cases Site.next_of_due due <;> rfl
    exact .inl ⟨same ▸ member, fun p h => ne_emit_begin rfl rfl⟩
  | effect p h e =>
    rcases Site.deadlines_enact (s := sc.site.withPool p) sc.now e member with
      ⟨before, other⟩ | ⟨timer, id, after, rfl, new⟩
    · exact .inl ⟨before, fun p' h' same => other (emit_inj same).2.2⟩
    · exact .inr ⟨p, h, timer, id, after, rfl, new⟩

theorem named_wound_move (wound : sc.Wound) (move : Move sc sc') {d : Deadline}
    (member : d ∈ sc'.site.deadlines) : d.timer = ⟨d.request.number⟩ := by
  rcases deadline_move move member with ⟨before, -⟩ | ⟨p, h, timer, id, after, done, rfl⟩
  · exact wound.named d before
  · cases (arming_move move done).2
    rfl

/-! ### The timers of requests -/

theorem mem_set_of_ne {α : Type} {l : List α} {g : α → Bool} {a : α} (member : a ∈ l)
    (other : g a = false) (b : α) : a ∈ l.set (l.findIdx g) b := by
  induction l with
  | nil => cases member
  | cons first rest ih =>
    by_cases here : g first = true
    · rcases List.mem_cons.mp member with rfl | behind
      · rw [here] at other
        cases other
      · simp [List.findIdx_cons, here, behind]
    · rcases List.mem_cons.mp member with rfl | behind
      · simp [List.findIdx_cons, here]
      · simp [List.findIdx_cons, here, ih behind]

theorem mem_replace_of_ne {q : Queue} (member : r ∈ q.requests) (other : r.id ≠ id)
    (r' : Request) : r ∈ (q.replace id r').requests :=
  mem_set_of_ne member (by simpa using other) r'

/-- A request whose timer is not running may be let go. -/
theorem requests_behind {r' : Request} {rs : List Request} {timer : TimerId}
    (member : r ∈ sc.requests) (running : r.timer = some timer)
    (held : sc.hand.requests = r' :: rs) (unarmed : r'.timer = none) :
    r ∈ rs ∨ r ∈ sc.pool.pending.requests := by
  rw [Scene.requests, held, List.cons_append] at member
  rcases List.mem_cons.mp member with rfl | elsewhere
  · cases unarmed.symm.trans running
  · exact List.mem_append.mp elsewhere

theorem requests_sift {r' : Request} (member : r ∈ sc.requests)
    (held : sc.hand.requests = [r']) (gone : Ticket → Bool) :
    r ∈ sc.pool.pending.abandoned gone ++ [r'] ∨
      r ∈ (sc.pool.pending.prune gone).requests := by
  rw [Scene.requests, held] at member
  rw [List.mem_append, Queue.prune, Queue.abandoned, List.mem_filter, List.mem_filter]
  rcases List.mem_append.mp member with here | queued
  · exact .inl (.inr here)
  · cases gone r.ticket <;> simp [queued]

theorem requests_fetch {r' : Request} {q : Queue} (member : r ∈ sc.requests)
    (bare : sc.hand.requests = []) (found : sc.pool.pending.remove? id = some (r', q)) :
    r ∈ [r'] ∨ r ∈ q.requests := by
  obtain ⟨r', queued, eq⟩ := Option.map_eq_some_iff.mp found
  cases eq
  rw [Scene.requests, bare, List.nil_append] at member
  rcases mem_eraseP queued member with still | rfl
  · exact .inr still
  · exact .inl (List.mem_singleton_self _)

theorem requests_disarm {r' : Request} {rs : List Request} (member : r ∈ sc.requests)
    (held : sc.hand.requests = r' :: rs) (other : r ≠ r') :
    r ∈ { r' with timer := none } :: rs ∨ r ∈ sc.pool.pending.requests := by
  rw [Scene.requests, held, List.cons_append] at member
  rcases List.mem_cons.mp member with rfl | elsewhere
  · exact absurd rfl other
  · exact (List.mem_append.mp elsewhere).imp_left (List.mem_cons_of_mem _)

/-- A request whose timer is running stays where the pool can find it, unless the timer is stopped,
or the pool hears that the deadline has passed. -/
theorem running_move (move : Move sc sc') (member : r ∈ sc.requests)
    {timer : TimerId} (running : r.timer = some timer) :
    r ∈ sc'.requests ∨ (∃ p h, sc' = (sc.alter p h).emit (.disarm timer)) ∨
      sc.hand.task = some (some (.timedOut r.id)) := by
  have tasked : ∀ {c : Option Command}, sc.hand = { task := some c } →
      r ∈ sc.pool.pending.requests := by
    intro c task
    simpa [Scene.requests, task] using member
  have listed := member
  simp only [Scene.requests, List.mem_append] at member ⊢
  cases move with
  | event order allowed => exact .inl (by simpa [Scene.pool] using member)
  | wait order => exact .inl member
  | begin free due =>
    exact .inl (.inr (by simpa [Scene.pool, Site.pool_next? due, free] using member))
  | shut task ends opened => exact .inl (.inl (tasked task))
  | @expire id r' task queued lost =>
    by_cases mine : r.id = id
    · exact .inr (.inr (by rw [task, mine]))
    · exact .inl (.inr (mem_replace_of_ne (tasked task) mine _))
  | @overflow id r' r'' task queued due reachable drained =>
    by_cases mine : r.id = id
    · exact .inr (.inr (by rw [task, mine]))
    · refine .inl (.inr ?_)
      simp only [Scene.pool_emit, Scene.pool_alter]
      exact mem_replace_of_ne (tasked task) mine _
  | pop free bare front =>
    rw [bare, front] at member
    exact .inl (by simpa using member)
  | sift held left => exact .inl (requests_sift listed held _)
  | fetch free bare called found => exact .inl (requests_fetch listed bare found)
  | @disarm r' rs timer' held armed =>
    by_cases mine : r = r'
    · subst mine
      cases armed.symm.trans running
      exact .inr (.inl ⟨_, _, rfl⟩)
    · left
      simp only [Scene.hand_emit, Scene.hand_alter, Scene.pool_emit, Scene.pool_alter]
      exact requests_disarm listed held mine
  | forsake held unarmed left =>
    have kept := requests_behind listed running held unarmed
    exact .inl kept
  | fail held unarmed grounds =>
    left
    simp only [Scene.hand_emit, Scene.hand_alter, Scene.pool_emit, Scene.pool_alter]
    exact requests_behind listed running held unarmed
  | lend held unarmed =>
    left
    simp only [Scene.hand_emit, Scene.hand_alter, Scene.pool_emit, Scene.pool_alter]
    exact requests_behind listed running held unarmed
  | connect held opened unarmed =>
    left
    simp only [Scene.hand_emit, Scene.hand_alter, Scene.pool_emit, Scene.pool_alter]
    exact requests_behind listed running held unarmed
  | arm held unarmed =>
    left
    simp only [Scene.hand_emit, Scene.hand_alter, Scene.pool_emit, Scene.pool_alter]
    exact .inr ((requests_behind listed running held unarmed).resolve_left List.not_mem_nil)
  | @enqueue r' held =>
    rw [held] at member
    left
    right
    rcases member with here | queued
    · exact List.mem_append_right _ here
    · exact List.mem_append_left _ queued
  | report free closed complete =>
    rw [free] at member
    exact .inl (.inr (member.resolve_left List.not_mem_nil))
  | _ =>
    -- The rest leaves all requests where they are.
    left
    simp only [Scene.hand_emit, Scene.hand_alter, Scene.pool_emit, Scene.pool_alter]
    first
    | exact member
    | exact .inr (tasked ‹_›)

theorem kept_wound_move (wound : sc.Wound) (move : Move sc sc') {d : Deadline}
    (member : d ∈ sc'.site.deadlines) :
    ∃ r ∈ sc'.requests, r.id = d.request ∧ r.timer = some d.timer := by
  rcases deadline_move move member with ⟨before, unstopped⟩ | ⟨p, h, timer, id, after, done, rfl⟩
  · obtain ⟨r, listed, id, running⟩ := wound.kept d before
    rcases running_move move listed running with still | ⟨p, h, stopped⟩ | task
    · exact ⟨r, still, id, running⟩
    · exact absurd stopped (unstopped p h)
    · have set := alarms_of_deadline before
      rw [← id, alarms_of_expired wound task] at set
      cases set
  · cases (arming_move move done).2
    rw [done]
    exact ⟨_, List.mem_append_left _ (List.mem_singleton_self _), rfl, rfl⟩

theorem wound_move (a : sc.Accounted) (poised : sc.Poised) (move : Move sc sc')
    (wound : sc.Wound) : sc'.Wound where
  once := once_wound_move a wound move
  single := single_wound_move wound move
  older := older_move wound move
  begun := begun_wound_move poised wound move
  fresh := fresh_wound_move poised wound move
  named _ member := named_wound_move wound move member
  kept _ member := kept_wound_move wound move member

theorem wound_start (config : Config) (observer : Hook → Nat → Option String) :
    (Scene.start config observer).Wound where
  once _ := Nat.le_refl 0
  single _ := Nat.zero_le 1
  older _ armed := by cases armed
  begun _ idle := by cases idle
  fresh idle := by cases idle
  named := List.forall_mem_nil _
  kept := List.forall_mem_nil _

/-! ### The time of a deadline -/

def Scene.Expiring (sc : Scene) (id : RequestId) : Prop :=
  0 < sc.site.underWay.countP (fun c => c.expired? = some id) ∨ sc.command = some (.timedOut id)

/-- The deadline of a request is its limit after its timer was started, and passes then or later. -/
def Scene.Punctual (sc : Scene) : Prop :=
  ∀ rec ∈ sc.past, ∀ timer id after, rec.effect = some (.arm timer id after) →
    (∀ d ∈ sc.site.deadlines, d.request = id → d.due = rec.now + after.toMillis) ∧
      (sc.Expiring id → rec.now + after.toMillis ≤ sc.now)

theorem now_move (move : Move sc sc') : sc.now ≤ sc'.now := by
  cases passage_move move with
  | event order allowed => exact order
  | silent order site past memory => exact order
  | begin free due => exact Nat.le_refl _
  | effect p h e => exact Nat.le_refl _

/-- The pool is told of deadlines that have passed. -/
theorem expiring_move (a : sc.Accounted) (wound : sc.Wound) (move : Move sc sc')
    (expiring : sc'.Expiring id) :
    sc.Expiring id ∨ ∃ d ∈ sc.site.deadlines, d.request = id ∧ d.due ≤ sc'.now := by
  cases passage_move move with
  | @event later e order allowed =>
    rcases expiring with told | command
    · have sent : 0 < sc.site.underWay.countP (fun c => c.expired? = some id) +
          (sc.site.sends e).countP fun c => c.expired? = some id := by
        rw [← Site.countP_underWay_happen a.numbered (Site.blind_expired id)]
        exact told
      by_cases before : 0 < sc.site.underWay.countP fun c => c.expired? = some id
      · exact .inl (.inl before)
      · obtain ⟨c, member, expired⟩ := List.countP_pos_iff.mp (by omega :
          0 < (sc.site.sends e).countP fun c => c.expired? = some id)
        obtain ⟨timer, d, rfl, found, request⟩ :=
          Site.expired_of_sends member (by simpa using expired)
        -- The deadline that has passed has the name of the one that is reported.
        obtain ⟨d', set, passed⟩ := List.any_eq_true.mp allowed
        obtain ⟨same, due⟩ : d'.timer = timer ∧ d'.due ≤ later := by simpa using passed
        have timed : d.timer = timer := by simpa using List.find?_some found
        have named := wound.named d (List.mem_of_find?_eq_some found)
        have named' := wound.named d' set
        rw [timed, ← same, named', TimerId.mk.injEq] at named
        exact .inr ⟨d', set, (congrArg RequestId.mk named).trans request, due⟩
    · exact .inl (.inr command)
  | silent order site past memory =>
    rw [Scene.Expiring, site, Scene.command, memory] at expiring
    exact .inl expiring
  | @begin c rest free due =>
    left
    left
    rw [Site.underWay_next? due, List.countP_append]
    rcases expiring with told | command
    · dsimp only at told
      omega
    · have here : c = some (.timedOut id) := command
      subst here
      apply Nat.add_pos_left
      simp [Command.expired?]
  | effect p h e =>
    left
    rcases expiring with told | command
    · left
      have silent : e.starts.countP (fun c => c.expired? = some id) = 0 := by cases e <;> rfl
      have same : ((sc.alter p h).emit e).site.underWay.countP (fun c => c.expired? = some id) =
          sc.site.underWay.countP _ + _ :=
        Site.countP_underWay_enact (s := sc.site.withPool p) sc.now e
      omega
    · exact .inr command

theorem unheard_of_arming (wound : sc.Wound) {h : Hand} {timer : TimerId} {after : Duration}
    (arming : Arming sc h timer id after) :
    (∀ d ∈ sc.site.deadlines, d.request ≠ id) ∧ ¬sc.Expiring id := by
  have silent : sc.site.alarms id = 0 := by
    have once := wound.once id
    have never := unwound_of_arming wound arming
    omega
  constructor
  · intro d set same
    have here := alarms_of_deadline set
    rw [same, silent] at here
    cases here
  · rintro (told | command)
    · rw [Site.alarms] at silent
      omega
    · cases arming with
      | intro held limited newest fresh =>
        obtain ⟨k, asked⟩ := wound.fresh fresh
        cases command.symm.trans asked

theorem punctual_move (a : sc.Accounted) (wound : sc.Wound) (move : Move sc sc')
    (punctual : sc.Punctual) : sc'.Punctual := by
  intro rec member timer id after effect
  rcases effect_move move member effect with here | ⟨p, h, new, rfl⟩
  · -- What was armed before keeps its time.
    obtain ⟨due, passed⟩ := punctual rec here timer id after effect
    constructor
    · intro d set request
      rcases deadline_move move set with ⟨before, -⟩ | ⟨p, h, timer', id', after', done, rfl⟩
      · exact due d before request
      · have armed : 0 < Site.armings sc.past id := by
          apply List.countP_pos_iff.mpr
          exact ⟨rec, here, by simp [effect, Effect.armed?]⟩
        rw [← request, unwound_of_arming wound (arming_move move done).2] at armed
        cases armed
    · intro expiring
      rcases expiring_move a wound move expiring with before | ⟨d, set, request, gone⟩
      · exact Nat.le_trans (passed before) (now_move move)
      · rw [← due d set request]
        exact gone
  · obtain ⟨unset, untold⟩ := unheard_of_arming wound (arming_move move new).2
    constructor
    · intro d set request
      rcases deadline_move move set with ⟨before, -⟩ | ⟨p', h', timer', id', after', done, rfl⟩
      · exact absurd request (unset d before)
      · cases (emit_inj (new.symm.trans done)).2.2
        rfl
    · intro expiring
      rcases expiring_move a wound move expiring with before | ⟨d, set, request, -⟩
      · exact absurd before untold
      · exact absurd request (unset d set)

end LoanPool
